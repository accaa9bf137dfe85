import MonkeySyntax.Proofs.Parser.Simulation

/-!
# How many tokens a parser pulls

A parser pulls the tokens of its stream once each, and then a few times the end of the input.  An
expression starts at a token of the list, or right at the end of the list, and no action advances
past the end of the list but the loops over statements, which advance after each statement.  So
every block within which the list ends costs one token more, and so does the program.  There are
no more blocks, one within the other, than there are levels of expressions.

The loops of the parser stop by themselves: they would do the same with more rounds than they are
given.
-/

namespace MonkeySyntax

open Parse

namespace Parser

/-- The tokens that a parser has pulled and those that are ahead are no more than `total`, or it
has passed the end of its list, and pulled no more than `excess` tokens over `total`. -/
def Spent (total excess : Nat) (p : Parser) : Prop :=
  p.pulled + p.stream.tokens.length ≤ total ∨
    p.stream.tokens = [] ∧ p.pulled ≤ total + excess

namespace Spent

variable {total excess : Nat} {p : Parser}

/-- No more tokens are pulled than the two bounds allow together. -/
theorem pulled_le (h : p.Spent total excess) :
  p.pulled ≤ total + excess
  := by
  rcases h with h | ⟨-, h⟩
  · omega
  · apply h

/-- More tokens may be pulled past the end than are. -/
theorem mono (h : p.Spent total excess) {excess' : Nat} (hle : excess ≤ excess') :
  p.Spent total excess'
  := by
  rcases h with h | ⟨hnil, h⟩
  · exact .inl h
  · exact .inr ⟨hnil, by omega⟩

/-- While there are tokens ahead, the end of the list has not been passed. -/
theorem of_length_pos (h : p.Spent total excess) (hpos : 0 < p.stream.tokens.length) :
  p.Spent total 0
  := by
  rcases h with h | ⟨hnil, -⟩
  · exact .inl h
  · rw [hnil] at hpos
    cases hpos

/-- Before the end of the input no token has been pulled past it. -/
theorem of_current (h : p.Spent total excess) (hend : p.current.kind ≠ .endOfInput) :
  p.Spent total 0
  := h.of_length_pos (length_tokens_pos_of_current hend)

/-- As long as a token is ahead no token is pulled past the end. -/
theorem advance_of_length_pos (h : p.Spent total excess) (hpos : 0 < p.stream.tokens.length) :
  p.advance.Spent total 0
  := by
  rcases h with h | ⟨hnil, -⟩
  · apply Or.inl
    rw [length_tokens_advance]
    simp only [advance]
    omega
  · rw [hnil] at hpos
    cases hpos

/-- It costs one token more to advance wherever that may be. -/
theorem advance (h : p.Spent total excess) :
  p.advance.Spent total (excess + 1)
  := by
  rcases Nat.eq_zero_or_pos p.stream.tokens.length with hnil | hpos
  · refine .inr ⟨?_, Nat.add_le_add_right h.pulled_le 1⟩
    apply List.length_eq_zero_iff.mp
    rw [length_tokens_advance, hnil]
  · apply (h.advance_of_length_pos hpos).mono (Nat.zero_le _)

/-- Skipping stops at the end, and pulls no token past it. -/
theorem skipToTerminator (h : p.Spent total excess) :
  p.skipToTerminator.Spent total excess
  := by
  have hle : (p.stream.tokens.takeWhile (fun t => !isTerminator t.kind)).length ≤
      p.stream.tokens.length :=
    (List.takeWhile_prefix _).length_le
  rcases h with h | ⟨hnil, h⟩
  · apply Or.inl
    simp only [Parser.skipToTerminator, advanceBy, TokenStream.drop, List.length_drop]
    omega
  · apply Or.inr
    simp only [Parser.skipToTerminator, advanceBy, TokenStream.drop, hnil]
    exact ⟨rfl, h⟩

end Spent

end Parser

namespace Simulation

/-- A run with the tokens that it has pulled in view. -/
def spending (total excess : Nat) : Simulation where
  toRelabeling := .refl
  parser := id
  Fresh := Parser.Spent total 0
  Ready := Parser.Spent total excess
  Open := Parser.Spent total excess
  Failed := Parser.Spent total excess
  ready_of_fresh h := h.mono (Nat.zero_le _)
  fresh_of_ready h hend := h.of_current hend
  ready_of_open h := h
  open_of_ready h _ := h
  current_eq _ := rfl
  depth_eq _ := rfl
  kind_next _ := rfl
  advance h hend := ⟨rfl, h.advance_of_length_pos
    (hend.elim Parser.length_tokens_pos_of_current Parser.length_tokens_pos_of_next)⟩
  report _ h := ⟨rfl, h⟩
  descend h := ⟨rfl, h⟩
  open_ascend h := ⟨rfl, h⟩
  failed_ascend h := ⟨rfl, h⟩
  failed_skip h := ⟨rfl, h.skipToTerminator⟩
  failed_next _ := rfl
  failed_advance h hnext := ⟨rfl, (h.advance_of_length_pos
    (Parser.length_tokens_pos_of_next (by simp [hnext]))).mono (Nat.zero_le _)⟩

variable {total excess : Nat} {inner : Inner}

/-- A parser of expressions that pulls few tokens past the end does so where more are allowed. -/
theorem carries_spending_mono (hinner : (spending total excess).Carries inner) {excess' : Nat}
    (hle : excess ≤ excess') :
  (spending total excess').Carries inner
  := by
  intro strength p hp
  have hp' := hinner strength p hp
  rcases hxp : inner strength p with ⟨_ | e, q⟩
  · rw [hxp] at hp'
    exact ⟨hp'.1, hp'.2.mono hle⟩
  · rw [hxp] at hp'
    exact ⟨hp'.1, hp'.2.mono hle⟩

/-- A loop over statements costs one token more than the expressions within. -/
theorem spent_statementsAfter (hinner : (spending total excess).Carries inner)
    {closes : Kind → Bool} (hcloses : closes .endOfInput = true) (ahead : List Token)
    (read : List Stmt) {p : Parser} (hp : p.Spent total (excess + 1)) :
  (statementsAfter inner closes ahead read p).2.Spent total (excess + 1)
  := by
  induction ahead generalizing read p with
  | nil => apply hp
  | cons t ahead ih =>
    rw [statementsAfter]
    split
    next => apply hp
    next hopen =>
      have hend : p.current.kind ≠ .endOfInput := by
        rintro hkind
        rw [hkind] at hopen
        apply hopen hcloses
      rcases exists_statement hinner (hp.of_current hend) with ⟨s, q, hs, -, hq⟩ | ⟨q, hs, -, hq⟩
      · have hkept : q.countKept.Spent total excess := hq
        rw [hs]
        apply ih (s :: read) hkept.advance
      · have hdropped : q.countDropped.Spent total excess := hq
        rw [hs]
        apply ih read hdropped.advance

/-- A block pulls at most one token past the end more than the expressions in it. -/
theorem carriesBlocks_spending (hinner : (spending total excess).Carries inner) :
  (spending total (excess + 1)).CarriesBlocks inner
  := by
  rintro p ⟨hp, hbrace⟩
  have hpos := Parser.length_tokens_pos_of_current (p := p) (by simp [hbrace])
  have hstart := (hp.advance_of_length_pos hpos).mono (Nat.zero_le (excess + 1))
  have hcloses : closesBlock .endOfInput = true := rfl
  have hloop := spent_statementsAfter hinner hcloses p.advance.stream.tokens [] hstart
  refine ⟨?_, hloop⟩
  have hblock : (spending total (excess + 1)).block = id := funext Block.mapTokens_id
  rw [hblock]
  rfl

/-- An expression costs no more tokens than it has levels. -/
theorem carries_spending (total levels : Nat) :
  (spending total levels).Carries (expressionWithin levels)
  := by
  induction levels with
  | zero => apply carries_expressionWithin_zero
  | succ levels ih =>
    apply carries_expressionWithin_succ (carries_spending_mono ih (Nat.le_succ levels))
      (carriesBlocks_spending ih)

/-- An expression pulls at most as many tokens past the end as there are levels. -/
theorem carries_expression_spending (total : Nat) :
  (spending total maxNesting).Carries expression
  := by
  intro strength p hp
  have hlevels := carries_spending total (maxNesting - p.depth)
  apply carries_spending_mono hlevels (Nat.sub_le _ _) strength p hp

end Simulation

/-! ### Rounds -/

/-- Every loop stops by itself: with as many rounds as there are tokens ahead it does the same as
with any more rounds. -/
structure Parse.StopsItself (inner : Inner) : Prop where
  statements {closes : Kind → Bool} (hcloses : closes .endOfInput = true) {p : Parser}
    {ahead : List Token} (h : p.stream.tokens.length ≤ ahead.length) :
    statementsAfter inner closes ahead [] p = statements inner closes p
  parameters {p : Parser} {ahead : List Token} (h : p.stream.tokens.length ≤ ahead.length)
    (read : List Ident) :
    parametersAfter ahead read p = parametersAfter p.stream.tokens read p
  expressions {p : Parser} {ahead : List Token} (h : p.stream.tokens.length ≤ ahead.length)
    (read : List Expr) :
    expressionsAfter inner ahead read p = expressionsAfter inner p.stream.tokens read p
  extensions {p : Parser} {ahead : List Token} (h : p.stream.tokens.length ≤ ahead.length)
    (strength : Precedence) (left : Expr) :
    extensions inner strength ahead left p = extensions inner strength p.stream.tokens left p

/-- All loops stop by themselves, since each round passes a token. -/
theorem Parse.stopsItself (inner : Inner) [∀ strength, (inner strength).Orderly] :
  StopsItself inner
  where
  statements hcloses _ _ h := statementsAfter_eq_of_length_le hcloses h le_rfl []
  parameters h := parametersAfter_eq_of_length_le h le_rfl
  expressions h := expressionsAfter_eq_of_length_le h le_rfl
  extensions h _ := extensions_eq_of_length_le h le_rfl

namespace Parser

/-- What is skipped goes on to a token that ends a statement. -/
theorem isTerminator_skipToTerminator (p : Parser) :
  isTerminator p.skipToTerminator.current.kind = true
  := by
  obtain ⟨⟨tokens, stop⟩, pulled, depth, reported, statistics⟩ := p
  simp only [skipToTerminator, advanceBy, current, TokenStream.drop, TokenStream.head]
  induction tokens with
  | nil => rfl
  | cons t ts ih =>
    rw [List.takeWhile_cons]
    split
    next => apply ih
    next hkind => simpa using hkind

/-- The loop over the statements of a program goes on to the end of the input. -/
theorem kind_current_program (p : Parser) :
  p.program.2.current.kind = .endOfInput
  := by
  have hcloses : closesProgram .endOfInput = true := rfl
  induction hn : p.stream.tokens.length using Nat.strongRecOn generalizing p with
  | ind n ih =>
    subst hn
    by_cases hclose : closesProgram p.current.kind = true
    · have hprogram : p.program = (⟨[]⟩, p) := by rw [program, statements_of_closes hclose]
      rw [hprogram]
      apply beq_iff_eq.mp hclose
    · have hopen := eq_false_of_ne_true hclose
      have hprogram : p.program.2 = (statement expression p).2.advance.program.2 := by
        rw [program, statements_of_not_closes hcloses hopen]
        rfl
      have hpos := length_tokens_pos_of_current (p := p) (fun hend => hclose (beq_iff_eq.mpr hend))
      have hle := (Orderly.reaches (x := statement expression) p).length_tokens_le
      have hadvance := length_tokens_advance (statement expression p).2
      rw [hprogram]
      apply ih _ (by omega) _ rfl

end Parser

/-- To parse a stream takes no more than `103` tokens over those of its list.  The parse goes on
to the end of the input, and none of the loops on the way stops short. -/
theorem pulled_program_le (s : TokenStream) :
  (Parser.ofStream s).program.2.pulled ≤ s.tokens.length + 103 ∧
    (Parser.ofStream s).program.2.current.kind = .endOfInput ∧
    StopsItself expression ∧
    ∀ p : Parser, Parser.isTerminator p.skipToTerminator.current.kind = true
  := by
  have hstart : (Parser.ofStream s).Spent (s.tokens.length + 2) (maxNesting + 1) :=
    .inl (Nat.le_of_eq (Nat.add_comm _ _))
  have hcloses : closesProgram .endOfInput = true := rfl
  have hspent := Simulation.spent_statementsAfter
    (Simulation.carries_expression_spending (s.tokens.length + 2)) hcloses s.tokens [] hstart
  exact ⟨hspent.pulled_le, Parser.kind_current_program _, stopsItself expression,
    Parser.isTerminator_skipToTerminator⟩

end MonkeySyntax
