import MonkeySyntax.Proofs.Parser.Gives
import MonkeySyntax.Proofs.Source.Numerals
import MonkeySyntax.Proofs.Tree.Formed

/-!
# Reading integers

The current token is read as an integer if its text is that of an integer, and then the tree has
the token as it is, with the value of its digits.  Otherwise the parser reports the text.  It does
not move in either case.

The blank characters around a numeral are the white space of Unicode.  The separators U+001C to
U+001F, which are blank elsewhere, are no part of a numeral.
-/

namespace MonkeySyntax

/-- The texts that have a value in range are those of integers. -/
theorem Parse.integerValue_eq_some_iff_isInteger {text : String} {value : Int} :
  integerValue? text = some value ↔ Numeral.IsInteger Numeral.isBlank text value
  := by
  have hmin : -maxInteger - 1 = -2 ^ 63 := rfl
  have hmax : maxInteger = 2 ^ 63 - 1 := rfl
  rw [integerValue_eq_some, Numeral.value_eq_some_iff, hmin, hmax]
  constructor
  · rintro ⟨⟨factor, ds, hnumeral, hlength, hvalue⟩, hrange⟩
    exact ⟨factor, ds, hnumeral, hlength, hvalue, hrange⟩
  · rintro ⟨factor, ds, hnumeral, hlength, hvalue, hrange⟩
    exact ⟨⟨factor, ds, hnumeral, hlength, hvalue⟩, hrange⟩

/-- A run of digits is the text of an integer if it is not too long and its value is not too
great. -/
theorem IsDigitRun.isInteger_iff {cs run : List Char} {offset : Nat} (h : IsDigitRun cs offset run)
    (value : Int) :
  Numeral.IsInteger Numeral.isBlank (String.ofList run) value ↔
    run.length ≤ 4300 ∧
      value = (Nat.ofDigits 10 (run.reverse.map (fun c => c.toNat - '0'.toNat)) : Nat) ∧
        value ≤ 2 ^ 63 - 1
  := by
  have hne : (String.ofList run).toList ≠ [] := by
    rw [String.toList_ofList]
    exact h.ne_nil
  have hdigits : ∀ c ∈ (String.ofList run).toList, isDigit c = true := by
    rw [String.toList_ofList]
    exact h.digits
  have hmax : Parse.maxInteger = 2 ^ 63 - 1 := rfl
  rw [← Parse.integerValue_eq_some_iff_isInteger, integerValue_eq_some_iff hne hdigits,
    String.toList_ofList, Numeral.ofAscii, Numeral.ofDigits_eq, List.map_reverse, hmax,
    Numeral.maxDigits]

/-- A report adds a message to the others. -/
theorem Parser.map_message_report (d : Diagnostic) (p : Parser) :
  (p.report d).diagnostics.map Diagnostic.message =
    p.diagnostics.map Diagnostic.message ++ [d.message]
  := by
  rw [diagnostics, report, List.reverse_cons, List.map_append, List.map_singleton, diagnostics]

/-- What the current token gives as an integer.  Its text is that of an integer, which the parser
gives, or it is not, which the parser reports; nothing else changes.  In a source the integer
tokens are the runs of digits, and those are given that are not too long and not too great. -/
theorem Parse.integer_outcome (p : Parser) :
  (∀ e q, Parse.integer p = (some e, q) ↔
      ∃ value, Numeral.IsInteger Numeral.isBlank p.current.text value ∧
        e = .integer p.current value ∧ q = p) ∧
    ((∀ value, ¬ Numeral.IsInteger Numeral.isBlank p.current.text value) →
      ∃ q, Parse.integer p = (none, q) ∧
        q.diagnostics.map Diagnostic.message = p.diagnostics.map Diagnostic.message ++
          ["could not parse \"" ++ p.current.text ++ "\" as integer"] ∧
        q.stream = p.stream ∧ q.pulled = p.pulled ∧ q.depth = p.depth ∧
        q.statistics = p.statistics) ∧
    ∀ source,
      (∀ t, t ∈ tokenize source ∧ t.kind = .integer ↔
        ∃ (offset : Nat) (run : List Char), t = ⟨.integer, String.ofList run, ↑offset⟩ ∧
          IsDigitRun source.toList offset run) ∧
      ∀ offset run, IsDigitRun source.toList offset run →
        p.current = ⟨.integer, String.ofList run, ↑offset⟩ →
        ∀ e q, Parse.integer p = (some e, q) ↔
          ∃ value : Int, run.length ≤ 4300 ∧
            value = (Nat.ofDigits 10 (run.reverse.map (fun c => c.toNat - '0'.toNat)) : Nat) ∧
            value ≤ 2 ^ 63 - 1 ∧ e = .integer p.current value ∧ q = p
  := by
  have hgives (e : Expr) (q : Parser) : Parse.integer p = (some e, q) ↔
      ∃ value, Numeral.IsInteger Numeral.isBlank p.current.text value ∧
        e = .integer p.current value ∧ q = p := by
    simp only [← integerValue_eq_some_iff_isInteger]
    apply gives_integer
  refine ⟨hgives, ?_, fun source => ⟨mem_tokenize_integer_iff source, ?_⟩⟩
  · intro hno
    have hnone : integerValue? p.current.text = none := by
      rw [Option.eq_none_iff_forall_ne_some]
      intro value hvalue
      exact hno value (integerValue_eq_some_iff_isInteger.mp hvalue)
    refine ⟨p.report (.badInteger p.current.text), ?_, ?_, rfl, rfl, rfl, rfl⟩
    · rw [integer, hnone]
    · rw [Parser.map_message_report, Diagnostic.message_badInteger]
  · intro offset run hrun hcurrent e q
    have hinteger (value : Int) := hrun.isInteger_iff value
    have htext : p.current.text = String.ofList run := by rw [hcurrent]
    rw [← htext] at hinteger
    rw [hgives]
    constructor
    · rintro ⟨value, hvalue, hrest⟩
      obtain ⟨hlength, hvalue, hmax⟩ := (hinteger value).mp hvalue
      exact ⟨value, hlength, hvalue, hmax, hrest⟩
    · rintro ⟨value, hlength, hvalue, hmax, hrest⟩
      exact ⟨value, (hinteger value).mpr ⟨hlength, hvalue, hmax⟩, hrest⟩

/-- Arabic-Indic digits with a sign, an underscore and blanks around them are an integer, two
underscores together are refused, and zeros at the start of a run of digits make no difference. -/
theorem Parse.integer_thirty_and_seven :
  Parse.integer (.ofStream (.ofList [⟨.integer, "\u00a0-\u0663_0 ", 0⟩])) =
      (some (.integer ⟨.integer, "\u00a0-\u0663_0 ", 0⟩ (-30)),
        .ofStream (.ofList [⟨.integer, "\u00a0-\u0663_0 ", 0⟩])) ∧
    (∃ q, Parse.integer (.ofStream (.ofList [⟨.integer, "3__0", 0⟩])) = (none, q) ∧
      q.diagnostics.map Diagnostic.message = ["could not parse \"3__0\" as integer"]) ∧
    IsDigitRun "x = 007;".toList 4 "007".toList ∧
      Parse.integer (.ofStream (.ofList [⟨.integer, "007", 4⟩])) =
        (some (.integer ⟨.integer, "007", 4⟩ 7), .ofStream (.ofList [⟨.integer, "007", 4⟩]))
  := by
  have hthirty : Numeral.IsInteger Numeral.isBlank "\u00a0-\u0663_0 " (-30) := by
    apply integerValue_eq_some_iff_isInteger.mp
    decide
  have hno : ∀ value, ¬ Numeral.IsInteger Numeral.isBlank "3__0" value := by
    intro value hvalue
    have hnone : integerValue? "3__0" = none := by decide
    cases hnone.symm.trans (integerValue_eq_some_iff_isInteger.mpr hvalue)
  have hrun : IsDigitRun "x = 007;".toList 4 "007".toList :=
    ⟨by decide, List.all_eq_true.mp (by decide), "x = ".toList, [';'], by decide, by decide,
      by simp [isDigit], by simp [isDigit]⟩
  obtain ⟨q, hq, hmessages, -⟩ :=
    (integer_outcome (.ofStream (.ofList [⟨.integer, "3__0", 0⟩]))).2.1 hno
  refine ⟨((integer_outcome _).1 _ _).mpr ⟨-30, hthirty, rfl, rfl⟩, ⟨q, hq, hmessages⟩, hrun, ?_⟩
  apply (((integer_outcome _).2.2 "x = 007;").2 4 "007".toList hrun rfl _ _).mpr
  exact ⟨7, by decide, by decide, by decide, rfl, rfl⟩

/-- If the separators were blank around a numeral, then a separator and a digit would be an
integer, but the parser reports it. -/
theorem Parse.integer_separator :
  Numeral.IsInteger Text.isBlank "\x1c5" 5 ∧
    Parse.integer (.ofStream (.ofList [⟨.integer, "\x1c5", 0⟩])) =
      (none, (Parser.ofStream (.ofList [⟨.integer, "\x1c5", 0⟩])).report (.badInteger "\x1c5"))
  := by
  have hnumeral : Numeral.IsNumeral Text.isBlank "\x1c5".toList 1 [5] :=
    ⟨['\x1c'], [], ['5'], [], by decide, List.forall_mem_singleton.mpr (by decide),
      List.forall_mem_nil _, .missing, .mk (by decide) .nil⟩
  exact ⟨⟨1, [5], hnumeral, by decide, by decide, by decide, by decide⟩, by decide⟩

end MonkeySyntax
