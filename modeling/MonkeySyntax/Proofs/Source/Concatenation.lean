import MonkeySyntax.Proofs.Source.Tokenization

/-!
# Sources put together

The tokens of two texts, one after the other, are those of the first and those of the second,
unless the first text runs on into the second: its last token is then lengthened by the first
character of the second.

Whether a token is lengthened can be told from the last character of its spelling, and a token
that ends where its source ends has the last character of the source.
-/

namespace MonkeySyntax

/-- A token is lengthened when a word goes on with a letter, a number with a digit, or a single
symbol with the second half of a symbol of two characters. -/
theorem Kind.Spells.isLengthenedBy_iff {kind : Kind} {text : List Char} (h : kind.Spells text)
    {c : Char} (hc : c ∈ text.getLast?) (d : Char) :
  kind.isLengthenedBy d = true ↔
    isLetter c = true ∧ isLetter d = true ∨
      MonkeySyntax.isDigit c = true ∧ MonkeySyntax.isDigit d = true ∨
        (kind = .assign ∨ kind = .bang) ∧ d = '='
  := by
  cases h with
  | word _ hcs =>
    have hletter := hcs c (List.mem_of_mem_getLast? hc)
    have hdigit : MonkeySyntax.isDigit c = false := by
      by_contra hdigit
      rw [isLetter_of_isDigit ((Bool.not_eq_false _).mp hdigit)] at hletter
      cases hletter
    have hkind : ¬ (ofWord (String.ofList text) = .assign ∨
        ofWord (String.ofList text) = .bang) := by
      rw [ofWord.eq_def]
      split <;> decide
    simp [isLengthenedBy_ofWord, hletter, hdigit, hkind]
  | number _ hcs =>
    have hdigit := hcs c (List.mem_of_mem_getLast? hc)
    simp [isLengthenedBy, isLetter_of_isDigit hdigit, hdigit]
  | @pair a b kind hpair =>
    obtain rfl : b = c := by simpa using hc
    rw [isLengthenedBy_ofPair hpair]
    rw [ofPair.eq_def] at hpair
    split at hpair
    · cases hpair
      simp [isLetter, MonkeySyntax.isDigit]
    · cases hpair
      simp [isLetter, MonkeySyntax.isDigit]
    · cases hpair
  | @symbol e hletter hdigit _ =>
    obtain rfl : e = c := by simpa using hc
    simp only [hletter, hdigit, Bool.false_eq_true, false_and, false_or]
    rw [ofSymbol.eq_def]
    split <;> simp [isLengthenedBy]

/-! ### The end of a source -/

section

variable {n : Nat} {cs : List Char} {ts : List Token} {t : Token}

/-- A token that ends where the characters end has the last one of them. -/
theorem Token.StandsIn.getLast?_text (h : t.StandsIn n cs) (hlimit : t.limit = ↑(n + cs.length)) :
  t.text.toList.getLast? = cs.getLast?
  := by
  obtain ⟨before, after, rfl, hposition, hspells, -⟩ := h
  rw [limit, hposition, List.length_append, List.length_append, ← String.length_toList] at hlimit
  obtain rfl : after = [] := List.length_eq_zero_iff.mp (by omega)
  rw [List.append_nil, List.getLast?_append, List.getLast?_eq_some_getLast hspells.ne_nil,
    Option.some_or]

/-- How a token that ends where the characters end is lengthened can be told from the last one of
them. -/
theorem Token.StandsIn.isLengthenedBy_iff (h : t.StandsIn n cs)
    (hlimit : t.limit = ↑(n + cs.length)) :
  ∃ c ∈ cs.getLast?, ∀ d, t.kind.isLengthenedBy d = true ↔
    isLetter c = true ∧ isLetter d = true ∨ isDigit c = true ∧ isDigit d = true ∨
      (t.kind = .assign ∨ t.kind = .bang) ∧ d = '='
  := by
  rw [← h.getLast?_text hlimit]
  obtain ⟨-, -, -, -, hspells, -⟩ := h
  have hlast := List.getLast?_eq_some_getLast hspells.ne_nil
  use t.text.toList.getLast hspells.ne_nil, hlast
  apply hspells.isLengthenedBy_iff hlast

/-- A token that ends where the characters end is the last one.  Another one would start where the
characters end. -/
theorem Accounts.getLast?_eq (h : Accounts n cs ts) (ht : t ∈ ts)
    (hlimit : t.limit = ↑(n + cs.length)) :
  ts.getLast? = some t
  := by
  obtain ⟨before, after, rfl⟩ := List.append_of_mem ht
  cases after with
  | nil => simp
  | cons u after =>
    have hordered := List.pairwise_append.mp h.ordered
    have hle := (List.pairwise_cons.mp hordered.2.1).1 u List.mem_cons_self
    have hstands := h.stands u (by simp)
    have hlt := hstands.position_lt_limit
    have hend := hstands.limit_le
    omega

/-- If the last character is no layout, then a token ends with it. -/
theorem Accounts.exists_limit_eq (h : Accounts n cs ts) {c : Char} (hc : c ∈ cs.getLast?)
    (hlayout : isLayout c = false) :
  ∃ u ∈ ts, u.limit = ↑(n + cs.length)
  := by
  have hpos : 0 < cs.length := List.length_pos_of_mem (List.mem_of_mem_getLast? hc)
  rw [List.getLast?_eq_getElem?] at hc
  rcases h.layout _ c hc with hgap | ⟨u, hu, -, hlt⟩
  · rw [hlayout] at hgap
    cases hgap
  · use u, hu
    have hle := (h.stands u hu).limit_le
    omega

/-- Two texts have their own tokens when they are put together if and only if no token at the end
of the first is lengthened by the second. -/
theorem Munches.append_iff {cs' : List Char} {ts' : List Token} (h : Munches n cs ts)
    (h' : Munches (n + cs.length) cs' ts') :
  Munches n (cs ++ cs') (ts ++ ts') ↔
    ∀ t ∈ ts, t.limit = ↑(n + cs.length) → ∀ c ∈ cs'.head?, t.kind.isLengthenedBy c = false
  := by
  constructor
  · intro hboth t ht hlimit c hc
    obtain ⟨before, after, hcs, hposition, -, hafter⟩ :=
      hboth.accounts.stands t (List.mem_append_left _ ht)
    have hlength : (before ++ t.text.toList).length = cs.length := by
      rw [Token.limit, hposition, ← String.length_toList] at hlimit
      rw [List.length_append]
      omega
    rw [← List.append_assoc] at hcs
    obtain ⟨-, rfl⟩ := List.append_inj hcs hlength.symm
    apply hafter c hc
  · intro hjoin
    apply h.append h' hjoin

end

/-! ### Running on -/

/-- The first text runs on into the second: a word or a number goes on, or an assignment or a
negation at the end becomes a symbol of two characters. -/
def RunsOn (first second : String) : Prop :=
  (∃ c ∈ first.toList.getLast?, ∃ d ∈ second.toList.head?,
      isLetter c = true ∧ isLetter d = true) ∨
    (∃ c ∈ first.toList.getLast?, ∃ d ∈ second.toList.head?,
      isDigit c = true ∧ isDigit d = true) ∨
    ∃ t ∈ (tokenize first).dropLast.getLast?, (t.kind = .assign ∨ t.kind = .bang) ∧
      t.limit = first.length ∧ second.toList.head? = some '='

/-- A text runs on if and only if a token at its end is lengthened.  A character at the end that is
no layout is that of a token at the end. -/
theorem runsOn_iff {first : String} {ts : List Token} (h : Munches 0 first.toList ts)
    (second : String) :
  RunsOn first second ↔
    ∃ t ∈ ts, t.limit = first.length ∧ ∃ d ∈ second.toList.head?, t.kind.isLengthenedBy d = true
  := by
  have hlimit {t : Token} : t.limit = first.length ↔ t.limit = ↑(0 + first.toList.length) := by
    rw [Nat.zero_add, String.length_toList]
  have hdropLast : (tokenize first).dropLast = ts := by
    rw [h.tokenize_eq, List.dropLast_concat]
  have hlengthened {c d : Char} (hc : c ∈ first.toList.getLast?) (hd : d ∈ second.toList.head?)
      (hlayout : isLayout c = false)
      (hcd : isLetter c = true ∧ isLetter d = true ∨ isDigit c = true ∧ isDigit d = true) :
      ∃ t ∈ ts, t.limit = first.length ∧
        ∃ d ∈ second.toList.head?, t.kind.isLengthenedBy d = true := by
    obtain ⟨t, ht, hend⟩ := h.accounts.exists_limit_eq hc hlayout
    obtain ⟨c', hc', hiff⟩ := (h.accounts.stands t ht).isLengthenedBy_iff hend
    obtain rfl := Option.mem_unique hc hc'
    use t, ht, hlimit.mpr hend, d, hd
    rw [hiff]
    rcases hcd with hcd | hcd
    · exact .inl hcd
    · exact .inr (.inl hcd)
  constructor
  · rintro (⟨c, hc, d, hd, hletters⟩ | ⟨c, hc, d, hd, hdigits⟩ | ⟨t, ht, hkind, hend, hd⟩)
    · apply hlengthened hc hd (isLayout_of_isLetter hletters.1) (.inl hletters)
    · apply hlengthened hc hd (isLayout_of_isDigit hdigits.1) (.inr hdigits)
    · rw [hdropLast] at ht
      use t, List.mem_of_mem_getLast? ht, hend, '=', hd
      rcases hkind with hkind | hkind
      · rw [hkind]
        rfl
      · rw [hkind]
        rfl
  · rintro ⟨t, ht, hend, d, hd, hlonger⟩
    obtain ⟨c, hc, hiff⟩ := (h.accounts.stands t ht).isLengthenedBy_iff (hlimit.mp hend)
    rcases (hiff d).mp hlonger with hletters | hdigits | ⟨hkind, rfl⟩
    · exact .inl ⟨c, hc, d, hd, hletters⟩
    · exact .inr (.inl ⟨c, hc, d, hd, hdigits⟩)
    · refine .inr (.inr ⟨t, ?_, hkind, hend, hd⟩)
      rw [hdropLast]
      apply h.accounts.getLast?_eq ht (hlimit.mp hend)

/-- The tokens of two texts put together are those of the first, but for the end of the input, and
those of the second, moved by the length of the first, if and only if the first text does not run
on into the second. -/
theorem tokenize_append_iff (first second : String) :
  tokenize (first ++ second) =
      (tokenize first).dropLast ++ (tokenize second).map (Token.shift first.length) ↔
    ¬ RunsOn first second
  := by
  obtain ⟨ts, hts⟩ := exists_munches 0 first.toList
  obtain ⟨us, hus⟩ := exists_munches (0 + first.toList.length) second.toList
  obtain ⟨vs, hvs⟩ := exists_munches 0 (first ++ second).toList
  have hsecond : (tokenize second).map (Token.shift first.length) =
      us ++ [.endAt (first ++ second).length] := by
    have hmoved := Cursor.tokens_eq_shift (0 + first.toList.length) second.toList
    rw [hus.tokens_eq, String.ofList_toList, Nat.zero_add, String.length_toList,
      String.length_toList] at hmoved
    rw [← hmoved, String.length_append]
  rw [hsecond, hvs.tokenize_eq, hts.tokenize_eq, List.dropLast_concat, ← List.append_assoc,
    List.append_cancel_right_eq, runsOn_iff hts]
  have hboth := hts.append_iff hus
  rw [← String.toList_append] at hboth
  constructor
  · rintro rfl ⟨t, ht, hend, d, hd, hlonger⟩
    rw [← String.length_toList, ← Nat.zero_add first.toList.length] at hend
    rw [hboth.mp hvs t ht hend d hd] at hlonger
    cases hlonger
  · intro hjoin
    have hmunches : Munches 0 (first ++ second).toList (ts ++ us) := by
      apply hboth.mpr
      intro t ht hend d hd
      rw [Nat.zero_add, String.length_toList] at hend
      by_contra hlonger
      exact hjoin ⟨t, ht, hend, d, hd, (Bool.not_eq_false _).mp hlonger⟩
    have htokens := hvs.tokenize_eq.symm.trans hmunches.tokenize_eq
    rwa [List.append_cancel_right_eq] at htokens

end MonkeySyntax
