import MonkeySyntax.Proofs.Parser.Unread

/-!
# The rounds of the loops

A loop of the parser is given a list of tokens, and makes no more rounds than there are tokens
in the list.  A round passes a token of the stream, so any list that is as long as the stream
of the parser gives the loop all the rounds that it needs, and all such lists give the same
outcome.
-/

namespace MonkeySyntax

/-- No strength is below the lowest one. -/
theorem Precedence.not_lt_lowest (strength : Precedence) :
  ¬ strength < .lowest
  := by
  rw [lt_iff_rank_lt]
  cases strength <;> decide

/-- A token that binds more strongly than something is not the end of the input. -/
theorem Kind.ne_endOfInput_of_lt {strength : Precedence} {kind : Kind}
    (h : strength < kind.precedence) :
  kind ≠ .endOfInput
  := by
  rintro rfl
  apply strength.not_lt_lowest h

/-- A parser before a token other than the end of the input has tokens ahead. -/
theorem Parser.length_tokens_pos_of_next {p : Parser} (h : p.next.kind ≠ .endOfInput) :
  0 < p.stream.tokens.length
  := by
  rw [List.length_pos_iff]
  rintro hnil
  apply h (kind_next_of_tokens hnil)

/-- If the current token is not the end of the input, a token is left. -/
theorem Parser.length_tokens_pos_of_current {p : Parser} (h : p.current.kind ≠ .endOfInput) :
  0 < p.stream.tokens.length
  := by
  rw [List.length_pos_iff]
  rintro hnil
  apply h (kind_current_of_tokens hnil)

namespace Parse

variable {α β : Type}

/-- What comes after an action matters only where the action leads. -/
theorem bind_congr_of_apply {x : Parse α} {f g : α → Parse β} {p : Parser}
    (h : ∀ a q, x p = (some a, q) → f a q = g a q) :
  (x >>= f) p = (x >>= g) p
  := by
  rw [bind_apply, bind_apply]
  rcases hx : x p with ⟨_ | a, q⟩
  · rfl
  · apply h a q hx

/-- A sequence depends on what its first action does. -/
theorem bind_congr_of_left {x y : Parse α} {f : α → Parse β} {p : Parser} (h : x p = y p) :
  (x >>= f) p = (y >>= f) p
  := by
  rw [bind_apply, bind_apply, h]

/-- An orderly action reaches the parser that it leaves. -/
theorem Orderly.reaches_of_apply {x : Parse α} [hx : x.Orderly] {a : Option α} {p q : Parser}
    (h : x p = (a, q)) :
  p.Reaches q
  := by
  have hr := hx.reaches p
  rw [h] at hr
  apply hr

/-! ### Names and expressions after commas -/

/-- Without a comma there is no further name. -/
theorem parametersAfter_of_next {ahead : List Token} {read : List Ident} {p : Parser}
    (h : p.next.kind ≠ .comma) :
  parametersAfter ahead read p = (some read.reverse, p)
  := by
  cases ahead with
  | nil => rfl
  | cons t ahead => simp [parametersAfter, bind_apply, nextIs, Parser.nextIs, h, pure_apply]

/-- The loop of names stops by itself, so rounds past the tokens make no difference. -/
theorem parametersAfter_eq_of_length_le {ahead ahead' : List Token} {p : Parser}
    (h : p.stream.tokens.length ≤ ahead.length) (h' : p.stream.tokens.length ≤ ahead'.length)
    (read : List Ident) :
  parametersAfter ahead read p = parametersAfter ahead' read p
  := by
  induction ahead generalizing ahead' read p with
  | nil =>
    have hnext := Parser.kind_next_of_tokens (List.length_eq_zero_iff.mp (Nat.le_zero.mp h))
    rw [parametersAfter_of_next (by simp [hnext]), parametersAfter_of_next (by simp [hnext])]
  | cons t ahead ih =>
    by_cases hnext : p.next.kind = .comma
    · have hpos := Parser.length_tokens_pos_of_next (p := p) (by simp [hnext])
      obtain ⟨t', ahead', rfl⟩ := List.exists_cons_of_length_pos (Nat.lt_of_lt_of_le hpos h')
      rw [List.length_cons] at h h'
      rw [parametersAfter, parametersAfter]
      apply bind_congr_of_apply
      rintro b q hq
      cases hq
      simp only [Parser.nextIs_iff, hnext, if_true]
      apply bind_congr_of_apply
      rintro u q hq
      cases hq
      apply bind_congr_of_apply
      rintro u q hq
      have hle := (Orderly.reaches_of_apply hq).length_tokens_le
      rw [Parser.length_tokens_advance] at hle
      apply bind_congr_of_apply
      rintro id r hr
      cases hr
      apply ih (by omega) (by omega)
    · rw [parametersAfter_of_next hnext, parametersAfter_of_next hnext]

/-- Without a comma there is no further expression. -/
theorem expressionsAfter_of_next {inner : Inner} {ahead : List Token} {read : List Expr}
    {p : Parser} (h : p.next.kind ≠ .comma) :
  expressionsAfter inner ahead read p = (some read.reverse, p)
  := by
  cases ahead with
  | nil => rfl
  | cons t ahead => simp [expressionsAfter, bind_apply, nextIs, Parser.nextIs, h, pure_apply]

section

variable {inner : Inner} [∀ strength, (inner strength).Orderly]

theorem expressionsAfter_eq_of_length_le {ahead ahead' : List Token} {p : Parser}
    (h : p.stream.tokens.length ≤ ahead.length) (h' : p.stream.tokens.length ≤ ahead'.length)
    (read : List Expr) :
  expressionsAfter inner ahead read p = expressionsAfter inner ahead' read p
  := by
  induction ahead generalizing ahead' read p with
  | nil =>
    have hnext := Parser.kind_next_of_tokens (List.length_eq_zero_iff.mp (Nat.le_zero.mp h))
    rw [expressionsAfter_of_next (by simp [hnext]), expressionsAfter_of_next (by simp [hnext])]
  | cons t ahead ih =>
    by_cases hnext : p.next.kind = .comma
    · have hpos := Parser.length_tokens_pos_of_next (p := p) (by simp [hnext])
      obtain ⟨t', ahead', rfl⟩ := List.exists_cons_of_length_pos (Nat.lt_of_lt_of_le hpos h')
      rw [List.length_cons] at h h'
      rw [expressionsAfter, expressionsAfter]
      apply bind_congr_of_apply
      rintro b q hq
      cases hq
      simp only [Parser.nextIs_iff, hnext, if_true]
      apply bind_congr_of_apply
      rintro u q hq
      cases hq
      apply bind_congr_of_apply
      rintro u q hq
      cases hq
      apply bind_congr_of_apply
      rintro e r hr
      have hle := (Orderly.reaches_of_apply hr).length_tokens_le
      rw [Parser.length_tokens_advance, Parser.length_tokens_advance] at hle
      apply ih (by omega) (by omega)
    · rw [expressionsAfter_of_next hnext, expressionsAfter_of_next hnext]

/-! ### Extensions -/

omit [∀ strength, (inner strength).Orderly] in
/-- Before a token that does not bind more strongly there is no extension. -/
theorem extensions_of_next {strength : Precedence} {ahead : List Token} {left : Expr}
    {p : Parser} (h : ¬ strength < p.next.kind.precedence) :
  extensions inner strength ahead left p = (some left, p)
  := by
  cases ahead with
  | nil => rfl
  | cons t ahead => rw [extensions, if_neg h]

theorem extensions_eq_of_length_le {strength : Precedence} {ahead ahead' : List Token}
    {p : Parser} (h : p.stream.tokens.length ≤ ahead.length)
    (h' : p.stream.tokens.length ≤ ahead'.length) (left : Expr) :
  extensions inner strength ahead left p = extensions inner strength ahead' left p
  := by
  induction ahead generalizing ahead' left p with
  | nil =>
    have hnext := Parser.kind_next_of_tokens (List.length_eq_zero_iff.mp (Nat.le_zero.mp h))
    have hstop : ¬ strength < p.next.kind.precedence := by
      rw [hnext]
      apply Precedence.not_lt_lowest
    rw [extensions_of_next hstop, extensions_of_next hstop]
  | cons t ahead ih =>
    by_cases hlt : strength < p.next.kind.precedence
    · have hpos := Parser.length_tokens_pos_of_next (Kind.ne_endOfInput_of_lt hlt)
      obtain ⟨t', ahead', rfl⟩ := List.exists_cons_of_length_pos (Nat.lt_of_lt_of_le hpos h')
      rw [List.length_cons] at h h'
      rw [extensions, extensions, if_pos hlt, if_pos hlt]
      rcases hext : extension inner left p.advance with ⟨_ | e, q⟩
      · rfl
      · have hle := (Orderly.reaches_of_apply hext).length_tokens_le
        rw [Parser.length_tokens_advance] at hle
        apply ih (by omega) (by omega)
    · rw [extensions_of_next hlt, extensions_of_next hlt]

/-! ### Statements -/

omit [∀ strength, (inner strength).Orderly] in
/-- At a token that closes the loop of statements stops. -/
theorem statementsAfter_of_current {closes : Kind → Bool} {ahead : List Token}
    {read : List Stmt} {p : Parser} (h : closes p.current.kind = true) :
  statementsAfter inner closes ahead read p = (read.reverse, p)
  := by
  cases ahead with
  | nil => rfl
  | cons t ahead => rw [statementsAfter, if_pos h]

/-- The loop of statements stops by itself, so rounds past the tokens make no difference. -/
theorem statementsAfter_eq_of_length_le {closes : Kind → Bool}
    (hcloses : closes .endOfInput = true) {ahead ahead' : List Token} {p : Parser}
    (h : p.stream.tokens.length ≤ ahead.length) (h' : p.stream.tokens.length ≤ ahead'.length)
    (read : List Stmt) :
  statementsAfter inner closes ahead read p = statementsAfter inner closes ahead' read p
  := by
  induction ahead generalizing ahead' read p with
  | nil =>
    have hcurrent := Parser.kind_current_of_tokens (List.length_eq_zero_iff.mp (Nat.le_zero.mp h))
    have hclose : closes p.current.kind = true := by rw [hcurrent, hcloses]
    rw [statementsAfter_of_current hclose, statementsAfter_of_current hclose]
  | cons t ahead ih =>
    by_cases hclose : closes p.current.kind = true
    · rw [statementsAfter_of_current hclose, statementsAfter_of_current hclose]
    · have hpos := Parser.length_tokens_pos_of_current (p := p) (by
        rintro hcurrent
        rw [hcurrent] at hclose
        apply hclose hcloses)
      obtain ⟨t', ahead', rfl⟩ := List.exists_cons_of_length_pos (Nat.lt_of_lt_of_le hpos h')
      rw [List.length_cons] at h h'
      rw [statementsAfter, statementsAfter, if_neg hclose, if_neg hclose]
      rcases hs : statement inner p with ⟨_ | s, q⟩
      all_goals
        have hle := (Orderly.reaches_of_apply hs).length_tokens_le
        have hadvance := Parser.length_tokens_advance q
        apply ih (by omega) (by omega)

omit [∀ strength, (inner strength).Orderly] in
/-- The statements read before come first. -/
theorem statementsAfter_eq_append (closes : Kind → Bool) (ahead : List Token) (read : List Stmt)
    (p : Parser) :
  statementsAfter inner closes ahead read p =
    (read.reverse ++ (statementsAfter inner closes ahead [] p).1,
      (statementsAfter inner closes ahead [] p).2)
  := by
  induction ahead generalizing read p with
  | nil => simp [statementsAfter]
  | cons t ahead ih =>
    rw [statementsAfter, statementsAfter]
    split
    · simp
    · rcases statement inner p with ⟨_ | s, q⟩
      · apply ih
      · dsimp only
        rw [ih (s :: read), ih [s]]
        simp

omit [∀ strength, (inner strength).Orderly] in
/-- At a token that closes there are no statements. -/
theorem statements_of_closes {closes : Kind → Bool} {p : Parser}
    (h : closes p.current.kind = true) :
  statements inner closes p = ([], p)
  := statementsAfter_of_current h

/-- Statements are the first one, if it gives a tree, and those after it. -/
theorem statements_of_not_closes {closes : Kind → Bool} (hcloses : closes .endOfInput = true)
    {p : Parser} (h : closes p.current.kind = false) :
  statements inner closes p =
    ((statement inner p).1.toList ++
        (statements inner closes (statement inner p).2.advance).1,
      (statements inner closes (statement inner p).2.advance).2)
  := by
  have hpos := Parser.length_tokens_pos_of_current (p := p) (by
    rintro hcurrent
    rw [hcurrent, hcloses] at h
    cases h)
  obtain ⟨t, ahead, htokens⟩ := List.exists_cons_of_length_pos hpos
  rw [statements, htokens, statementsAfter, h]
  rcases hs : statement inner p with ⟨_ | s, q⟩
  all_goals
    have hle := (Orderly.reaches_of_apply hs).length_tokens_le
    rw [htokens, List.length_cons] at hle
    have hadvance := Parser.length_tokens_advance q
    have hrounds : q.advance.stream.tokens.length ≤ ahead.length := by omega
    dsimp only
    rw [statementsAfter_eq_of_length_le hcloses hrounds le_rfl,
      statementsAfter_eq_append closes q.advance.stream.tokens]
    rfl

end

end Parse

end MonkeySyntax
