import MonkeySyntax.Proofs.RoundTrip
import MonkeySyntax.Session.Basic

/-!
# Turning verbose replies on and off

An entry that says `verbose-mode` is not parsed, but it would be accepted as a source: whatever
letters in it are capital, it is the difference of two names, since no keyword is spelt like one of
them.  So an entry that has diagnostics does not turn verbose replies on or off.
-/

namespace MonkeySyntax.Session

open Grammar

/-- An entry turns verbose replies on or off exactly if it says so. -/
theorem respond_verbose (verbose : Bool) (text : String) :
  (respond verbose text).2 = if isToggle text then !verbose else verbose
  := by
  rw [respond]
  by_cases hempty : text.isEmpty = true
  · obtain rfl : text = "" := String.isEmpty_iff.mp hempty
    rfl
  · by_cases htoggle : isToggle text = true
    · simp [hempty, htoggle]
    · simp [hempty, htoggle]

/-- Only a capital letter is made small, and then it is a small letter. -/
theorem toLower_cases (c : Char) :
  c.toLower = c ∨ c.isUpper = true ∧ c.toLower.isLower = true
  := by
  by_cases h : c.val ≥ 'A'.val ∧ c.val ≤ 'Z'.val
  · have hval : c.toLower.val = c.val + 32 := congrArg Char.val (dif_pos h)
    have hlower : c.toLower.isLower =
        (decide (c.toLower.val ≥ 'a'.val) && decide (c.toLower.val ≤ 'z'.val)) := rfl
    refine .inr ⟨decide_eq_true h, ?_⟩
    rw [hlower, hval, Bool.and_eq_true, decide_eq_true_eq, decide_eq_true_eq]
    have hfirst : 65 ≤ c.val.toNat := UInt32.le_iff_toNat_le.mp h.1
    have hlast : c.val.toNat ≤ 90 := UInt32.le_iff_toNat_le.mp h.2
    have hsum : (c.val + 32).toNat = c.val.toNat + 32 := by
      rw [UInt32.toNat_add]
      change (c.val.toNat + 32) % 2 ^ 32 = c.val.toNat + 32
      omega
    rw [ge_iff_le, UInt32.le_iff_toNat_le, UInt32.le_iff_toNat_le, hsum]
    change 97 ≤ c.val.toNat + 32 ∧ c.val.toNat + 32 ≤ 122
    omega
  · exact .inl (dif_neg h)

/-- A character that is a small letter when it is lowered is a letter. -/
theorem isLetter_of_toLower {c : Char} (h : c.toLower.isLower = true) :
  isLetter c = true
  := by
  have hletter : isLetter c = (c.isUpper || c.isLower || c == '_') := rfl
  rcases toLower_cases c with hc | ⟨hupper, -⟩
  · rw [hc] at h
    simp [hletter, h]
  · simp [hletter, hupper]

/-- Letters spell a name, unless they would be a keyword if they were small. -/
theorem spells_identifier {cs word : List Char} (h : cs.map Char.toLower = word) (hne : word ≠ [])
    (hlower : ∀ d ∈ word, d.isLower = true)
    (hname : word ∉
      ["function", "let", "true", "false", "if", "else", "return"].map String.toList) :
  Kind.identifier.Spells cs
  := by
  have hletters : ∀ c ∈ cs, isLetter c = true := by
    intro c hc
    apply isLetter_of_toLower
    apply hlower
    rw [← h]
    apply List.mem_map_of_mem hc
  have hword : Kind.ofWord (String.ofList cs) = .identifier := by
    rw [Kind.ofWord.eq_def]
    split
    case h_8 => rfl
    all_goals
      rename_i hcs
      have hcs' := congrArg String.toList hcs
      rw [String.toList_ofList] at hcs'
      rw [← h, hcs'] at hname
      cases hname (by decide)
  rw [← hword]
  apply Kind.Spells.word _ hletters
  rintro rfl
  apply hne h.symm

/-- The difference of two names is a program. -/
theorem exists_isProgram_difference (left right : String) :
  ∃ program,
    IsProgram [⟨.identifier, left, 0⟩, ⟨.minus, "-", 0⟩, ⟨.identifier, right, 0⟩] program 2
  := by
  have hleft (rest : List Token) : IsExpr .sum (⟨.identifier, left, 0⟩ :: rest) _ 1 rest :=
    .tighter (.tighter (.tighter (.tighter (.name rfl))))
  have hright : IsExpr .product [⟨.identifier, right, 0⟩] _ 1 [] :=
    .tighter (.tighter (.tighter (.name rfl)))
  have hboth : IsExpr .sum
      [⟨.identifier, left, 0⟩, ⟨.minus, "-", 0⟩, ⟨.identifier, right, 0⟩] _ 2 [] :=
    .binary (hleft _) rfl hright
  have hstmt := IsStmt.expression (.tighter (.tighter hboth)) (by decide) (by decide)
  exact ⟨⟨[_]⟩, .cons hstmt .nil⟩

/-- As a source, a text that turns verbose replies on or off is the difference of two names. -/
theorem parse_of_isToggle {text : String} (h : isToggle text = true) :
  (parse text).diagnostics = []
  := by
  have hlower : text.toList.map Char.toLower = "verbose".toList ++ '-' :: "mode".toList :=
    beq_iff_eq.mp h
  obtain ⟨left, others, hcs, hleft, hothers⟩ := List.map_eq_append_iff.mp hlower
  obtain ⟨dash, right, rfl, hdash, hright⟩ := List.map_eq_cons_iff.mp hothers
  obtain rfl : dash = '-' := by
    rcases toLower_cases dash with hsame | ⟨-, hletter⟩
    · rwa [hsame] at hdash
    · rw [hdash] at hletter
      cases hletter
  have hspells := spells_identifier hleft (by decide) (by simp) (by decide)
  have hspells' := spells_identifier hright (by decide) (by simp) (by decide)
  have hminus : Kind.minus.Spells ['-'] := .symbol (c := '-') rfl rfl rfl
  have hlexes : Lexes text.toList
      ([⟨.identifier, String.ofList left, 0⟩, ⟨.minus, "-", 0⟩,
        ⟨.identifier, String.ofList right, 0⟩] ++ [.endAt 0]) := by
    have hlast := Lexes.nil.spelling hspells' (by simp)
    rw [List.append_nil] at hlast
    rw [hcs]
    apply (hlast.spelling hminus _).spelling hspells
    · simp [Kind.isLengthenedBy, isLetter]
    · intro c _
      rfl
  obtain ⟨program, hprogram⟩ := exists_isProgram_difference _ _
  apply ((hlexes.parse_eq_iff program).mpr ⟨2, by decide, hprogram⟩).2

/-- An entry with diagnostics does not change whether replies are verbose. -/
theorem respond_verbose_of_diagnostics {text : String} (h : (parse text).diagnostics ≠ [])
    (verbose : Bool) :
  (respond verbose text).2 = verbose
  := by
  rw [respond_verbose, if_neg (mt parse_of_isToggle h)]

end MonkeySyntax.Session
