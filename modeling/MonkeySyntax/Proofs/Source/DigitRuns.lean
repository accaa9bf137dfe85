import MonkeySyntax.Proofs.Source.Concatenation

/-!
# Runs of digits

The integer tokens of a source are its runs of digits, each of them as long as it can be: there
is no digit directly before it or after it.

A token that has a digit is a number, and so every digit of a source is within a number.  No token
ends between two digits, since the second of them would have lengthened it.
-/

namespace MonkeySyntax

/-- A run of digits at an offset, with no digit directly before it or after it. -/
structure IsDigitRun (cs : List Char) (offset : Nat) (run : List Char) : Prop where
  ne_nil : run ≠ []
  digits : ∀ c ∈ run, isDigit c = true
  stands : ∃ before after, cs = before ++ (run ++ after) ∧ before.length = offset ∧
    (∀ c ∈ before.getLast?, isDigit c = false) ∧ ∀ c ∈ after.head?, isDigit c = false

/-- A token with a digit in its spelling is a number. -/
theorem Kind.Spells.eq_integer {kind : Kind} {text : List Char} (h : kind.Spells text) {c : Char}
    (hc : c ∈ text) (hdigit : MonkeySyntax.isDigit c = true) :
  kind = .integer
  := by
  cases h with
  | word _ hcs =>
    have hletter := hcs c hc
    rw [isLetter_of_isDigit hdigit] at hletter
    cases hletter
  | number => rfl
  | pair hpair =>
    rw [ofPair.eq_def] at hpair
    split at hpair
    · simp only [List.mem_cons, List.not_mem_nil, or_false, or_self] at hc
      rw [hc] at hdigit
      cases hdigit
    · simp only [List.mem_cons, List.not_mem_nil, or_false] at hc
      rcases hc with rfl | rfl <;> cases hdigit
    · cases hpair
  | symbol _ hno _ =>
    obtain rfl := List.mem_singleton.mp hc
    rw [hdigit] at hno
    cases hno

/-- Two runs of digits at the start of the same characters, neither of which can be longer, are
the same. -/
theorem eq_of_digits_append {run run' after after' : List Char} (h : run ++ after = run' ++ after')
    (hrun : ∀ c ∈ run, isDigit c = true) (hrun' : ∀ c ∈ run', isDigit c = true)
    (hafter : ∀ c ∈ after.head?, isDigit c = false)
    (hafter' : ∀ c ∈ after'.head?, isDigit c = false) :
  run = run'
  := by
  have hread := Cursor.takeRun_append hrun hafter 0
  rw [h, Cursor.takeRun_append hrun' hafter' 0] at hread
  exact (String.ofList_injective (Prod.ext_iff.mp hread).1).symm

/-- The last character of a list stands before those that are put after the list. -/
theorem getElem?_append_of_mem_getLast? {before : List Char} {c : Char}
    (hc : c ∈ before.getLast?) (after : List Char) :
  (before ++ after)[before.length - 1]? = some c
  := by
  have hpos := List.length_pos_of_mem (List.mem_of_mem_getLast? hc)
  rw [List.getElem?_append_left (by omega), ← List.getLast?_eq_getElem?]
  exact hc

section

variable {n : Nat} {cs before after : List Char} {ts : List Token} {t : Token}

/-- The characters from the offset of a token up to its limit are those of its text. -/
theorem Token.StandsIn.mem_text (h : t.StandsIn n cs) {i : Nat} {c : Char} (hc : cs[i]? = some c)
    (hle : t.position ≤ ↑(n + i)) (hlt : ↑(n + i) < t.limit) :
  c ∈ t.text.toList
  := by
  obtain ⟨before, after, rfl, hposition, -, -⟩ := h
  rw [limit, hposition, ← String.length_toList] at hlt
  rw [List.getElem?_append_right (by omega), List.getElem?_append_left (by omega)] at hc
  apply List.mem_of_getElem? hc

/-- A token does not end between two digits. -/
theorem Token.StandsIn.limit_ne (h : t.StandsIn n (before ++ after)) {c d : Char}
    (hc : c ∈ before.getLast?) (hd : d ∈ after.head?) (hcdigit : isDigit c = true)
    (hddigit : isDigit d = true) :
  t.limit ≠ ↑(n + before.length)
  := by
  intro hlimit
  obtain ⟨before', after', hcs, hposition, hspells, hafter⟩ := h
  have hlength : before.length = (before' ++ t.text.toList).length := by
    rw [Token.limit, hposition, ← String.length_toList] at hlimit
    rw [List.length_append]
    omega
  rw [← List.append_assoc] at hcs
  obtain ⟨rfl, rfl⟩ := List.append_inj hcs hlength
  rw [List.getLast?_append, List.getLast?_eq_some_getLast hspells.ne_nil, Option.some_or,
    ← List.getLast?_eq_some_getLast hspells.ne_nil] at hc
  have hlonger := (hspells.isLengthenedBy_iff hc d).mpr (.inr (.inl ⟨hcdigit, hddigit⟩))
  rw [hafter d hd] at hlonger
  cases hlonger

/-- Of two tokens one ends before the other starts. -/
theorem Accounts.limit_le_position (h : Accounts n cs ts) {u : Token} (ht : t ∈ ts)
    (hu : u ∈ ts) (hne : u ≠ t) :
  u.limit ≤ t.position ∨ t.limit ≤ u.position
  := by
  obtain ⟨us, vs, rfl⟩ := List.append_of_mem ht
  obtain ⟨-, hordered, hbefore⟩ := List.pairwise_append.mp h.ordered
  rcases List.mem_append.mp hu with hu | hu
  · exact .inl (hbefore u hu t List.mem_cons_self)
  · have hu : u ∈ vs := List.mem_of_ne_of_mem hne hu
    exact .inr ((List.pairwise_cons.mp hordered).1 u hu)

/-- There is no digit directly before a token that starts with a digit. -/
theorem Accounts.isDigit_getLast? (h : Accounts n (before ++ after) ts) (ht : t ∈ ts)
    (hposition : t.position = ↑(n + before.length)) {d : Char} (hd : d ∈ after.head?)
    (hdigit : isDigit d = true) :
  ∀ c ∈ before.getLast?, isDigit c = false
  := by
  intro c hc
  by_contra hcdigit
  rw [Bool.not_eq_false] at hcdigit
  have hpos := List.length_pos_of_mem (List.mem_of_mem_getLast? hc)
  rcases h.layout _ c (getElem?_append_of_mem_getLast? hc after) with hlayout | ⟨u, hu, hle, hlt⟩
  · rw [isLayout_of_isDigit hcdigit] at hlayout
    cases hlayout
  · have hends := (h.stands u hu).limit_ne hc hd hcdigit hdigit
    have hlt' := (h.stands t ht).position_lt_limit
    have hne : u ≠ t := by
      rintro rfl
      omega
    have hordered := h.limit_le_position ht hu hne
    omega

/-- An integer token is a run of digits. -/
theorem Accounts.isDigitRun (h : Accounts n cs ts) (ht : t ∈ ts) (hkind : t.kind = .integer) :
  ∃ offset, t.position = ↑(n + offset) ∧ IsDigitRun cs offset t.text.toList
  := by
  obtain ⟨before, after, rfl, hposition, hspells, hafter⟩ := h.stands t ht
  obtain ⟨hne, hdigits⟩ := hspells.isDigit hkind
  obtain ⟨d, text, htext⟩ := List.exists_cons_of_ne_nil hne
  have hd : d ∈ (t.text.toList ++ after).head? := by simp [htext]
  have hbefore := h.isDigit_getLast? ht hposition hd (hdigits d (by simp [htext]))
  rw [hkind] at hafter
  exact ⟨before.length, hposition, hne, hdigits, before, after, rfl, rfl, hbefore, hafter⟩

/-- A run of digits is an integer token.  The token of its first digit is a number, so it has only
digits, and starts with that one. -/
theorem Accounts.mem_of_isDigitRun (h : Accounts n cs ts) {offset : Nat} {run : List Char}
    (hrun : IsDigitRun cs offset run) :
  ⟨.integer, String.ofList run, ↑(n + offset)⟩ ∈ ts
  := by
  obtain ⟨hne, hdigits, before, after, rfl, rfl, hbefore, hafter⟩ := hrun
  obtain ⟨d, run', hd⟩ := List.exists_cons_of_ne_nil hne
  have hddigit : isDigit d = true := hdigits d (by simp [hd])
  have hindex : (before ++ (run ++ after))[before.length]? = some d := by simp [hd]
  rcases h.layout _ d hindex with hlayout | ⟨t, ht, hle, hlt⟩
  · rw [isLayout_of_isDigit hddigit] at hlayout
    cases hlayout
  · have hstands := h.stands t ht
    obtain ⟨before', after', hcs, hposition, hspells, hafter'⟩ := id hstands
    have hkind := hspells.eq_integer (hstands.mem_text hindex hle hlt) hddigit
    obtain ⟨-, hdigits'⟩ := hspells.isDigit hkind
    rw [hkind] at hafter'
    have hlength : before.length = before'.length := by
      by_contra hlength
      have hne' : before ≠ [] := List.ne_nil_of_length_pos (by omega)
      have hlast := List.getLast?_eq_some_getLast hne'
      have hchar := getElem?_append_of_mem_getLast? hlast (run ++ after)
      have hno := hbefore _ hlast
      rw [hdigits' _ (hstands.mem_text hchar (by omega) (by omega))] at hno
      cases hno
    obtain ⟨-, htext⟩ := List.append_inj hcs hlength
    obtain rfl := eq_of_digits_append htext hdigits hdigits' hafter hafter'
    rw [String.ofList_toList, hlength, ← hposition, ← hkind]
    exact ht

end

/-- The integer tokens of a source are its runs of digits. -/
theorem mem_tokenize_integer_iff (source : String) (t : Token) :
  t ∈ tokenize source ∧ t.kind = .integer ↔
    ∃ (offset : Nat) (run : List Char), t = ⟨.integer, String.ofList run, ↑offset⟩ ∧
      IsDigitRun source.toList offset run
  := by
  obtain ⟨ts, hts⟩ := exists_munches 0 source.toList
  rw [hts.tokenize_eq]
  constructor
  · rintro ⟨ht, hkind⟩
    rcases List.mem_append.mp ht with ht | ht
    · obtain ⟨offset, hposition, hrun⟩ := hts.accounts.isDigitRun ht hkind
      refine ⟨offset, t.text.toList, ?_, hrun⟩
      rw [String.ofList_toList, ← hkind, ← Nat.zero_add offset, ← hposition]
    · rw [List.mem_singleton.mp ht] at hkind
      cases hkind
  · rintro ⟨offset, run, rfl, hrun⟩
    have hmem := hts.accounts.mem_of_isDigitRun hrun
    rw [Nat.zero_add] at hmem
    exact ⟨List.mem_append_left _ hmem, rfl⟩

end MonkeySyntax
