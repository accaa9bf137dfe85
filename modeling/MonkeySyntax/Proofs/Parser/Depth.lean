import MonkeySyntax.Proofs.Grammar.Acceptance
import MonkeySyntax.Proofs.Parser.Account
import MonkeySyntax.Proofs.Tree.Nesting

/-!
# The depth of a parser

An action with `n` levels for the expressions within it takes the parser at most `n` levels
deeper on the way, and leaves it as deep as it was, also when it gives up.  The trees that it
gives are nested accordingly, whatever has been reported, and whichever statements have been left
out of their blocks: every level of nesting was a level of the parser.  The loop over extensions
adds none, since the expression so far is their left side.
-/

namespace MonkeySyntax

namespace Parser

/-- The parser `q` is as deep as `p`, and was no more than `n` levels deeper since. -/
structure StaysWithin (n : Nat) (p q : Parser) : Prop where
  depth_eq : q.depth = p.depth
  deepest_le : q.statistics.deepest ≤ max p.statistics.deepest (p.depth + n)

namespace StaysWithin

variable {n : Nat} {p q r : Parser}

theorem refl (n : Nat) (p : Parser) :
  p.StaysWithin n p
  := ⟨rfl, Nat.le_max_left _ _⟩

theorem advance (n : Nat) (p : Parser) :
  p.StaysWithin n p.advance
  := ⟨rfl, Nat.le_max_left _ _⟩

theorem skipToTerminator (n : Nat) (p : Parser) :
  p.StaysWithin n p.skipToTerminator
  := ⟨rfl, Nat.le_max_left _ _⟩

theorem report (n : Nat) (p : Parser) (d : Diagnostic) :
  p.StaysWithin n (p.report d)
  := ⟨rfl, Nat.le_max_left _ _⟩

theorem countKept (n : Nat) (p : Parser) :
  p.StaysWithin n p.countKept
  := ⟨rfl, Nat.le_max_left _ _⟩

theorem countDropped (n : Nat) (p : Parser) :
  p.StaysWithin n p.countDropped
  := ⟨rfl, Nat.le_max_left _ _⟩

/-- Two runs that stay within the same levels do so one after the other. -/
theorem trans (h : p.StaysWithin n q) (h' : q.StaysWithin n r) :
  p.StaysWithin n r
  where
  depth_eq := h'.depth_eq.trans h.depth_eq
  deepest_le := by
    have hle := h.deepest_le
    have hle' := h'.deepest_le
    rw [h.depth_eq] at hle'
    omega

/-- What stays within `n` levels of one level deeper stays within `n + 1` levels. -/
theorem ascend (h : p.descend.StaysWithin n q) :
  p.StaysWithin (n + 1) q.ascend
  where
  depth_eq := by
    rw [Parser.ascend, h.depth_eq]
    rfl
  deepest_le := by
    have hle : q.statistics.deepest ≤
        max (max p.statistics.deepest (p.depth + 1)) (p.depth + 1 + n) := h.deepest_le
    simp only [Parser.ascend]
    omega

end StaysWithin

end Parser

namespace Parse

variable {α β : Type}

/-- An action stays within `n` levels, and `P` holds of what it gives. -/
def Keeps (n : Nat) (P : α → Prop) (x : Parse α) : Prop :=
  ∀ p, p.StaysWithin n (x p).2 ∧ ∀ a ∈ (x p).1, P a

namespace Keeps

variable {n : Nat} {P : α → Prop} {Q : β → Prop}

/-- A value of which `P` holds is given without a move. -/
theorem pure {a : α} (ha : P a) :
  Keeps n P (Pure.pure a)
  := by
  intro p
  use .refl n p
  rintro b ⟨⟩
  apply ha

/-- If an action stays within some levels, and so does what is done with its value, the sequence
does. -/
theorem bind {x : Parse α} {f : α → Parse β} (hx : Keeps n P x) (hf : ∀ a, P a → Keeps n Q (f a)) :
  Keeps n Q (x >>= f)
  := by
  intro p
  obtain ⟨hp, ha⟩ := hx p
  rw [bind_apply]
  rcases hxp : x p with ⟨_ | a, q⟩
  · rw [hxp] at hp
    exact ⟨hp, by simp⟩
  · rw [hxp] at hp ha
    obtain ⟨hq, hb⟩ := hf a (ha a rfl) q
    exact ⟨hp.trans hq, hb⟩

theorem ite {c : Prop} [Decidable c] {x y : Parse α} (hx : Keeps n P x) (hy : Keeps n P y) :
  Keeps n P (if c then x else y)
  := by
  split
  · apply hx
  · apply hy

theorem current :
  Keeps n (fun _ => True) current
  := fun p => ⟨.refl n p, fun _ _ => trivial⟩

theorem nextIs (kind : Kind) :
  Keeps n (fun _ => True) (nextIs kind)
  := fun p => ⟨.refl n p, fun _ _ => trivial⟩

theorem ahead :
  Keeps n (fun _ => True) ahead
  := fun p => ⟨.refl n p, fun _ _ => trivial⟩

theorem identifier :
  Keeps n (fun _ => True) identifier
  := fun p => ⟨.refl n p, fun _ _ => trivial⟩

theorem advance :
  Keeps n (fun _ => True) advance
  := fun p => ⟨.advance n p, fun _ _ => trivial⟩

/-- Asking for the next token goes no deeper, whether it is there or not. -/
theorem expectNext (kind : Kind) :
  Keeps n (fun _ => True) (expectNext kind)
  := by
  intro p
  rw [Parse.expectNext]
  split
  · exact ⟨.advance n p, fun _ _ => trivial⟩
  · exact ⟨.report n p _, fun _ _ => trivial⟩

/-- An action that gives up goes no deeper, and gives nothing. -/
theorem giveUp (d : Diagnostic) :
  Keeps n P (giveUp d)
  := by
  intro p
  use .report n p d
  rintro a ⟨⟩

/-- What is given up is skipped at the same depth. -/
theorem recovering {x : Parse α} (hx : Keeps n P x) :
  Keeps n P (recovering x)
  := by
  intro p
  obtain ⟨hp, ha⟩ := hx p
  rw [Parse.recovering]
  rcases hxp : x p with ⟨_ | a, q⟩
  · rw [hxp] at hp ha
    exact ⟨hp.trans (.skipToTerminator n q), ha⟩
  · rw [hxp] at hp ha
    exact ⟨hp, ha⟩

theorem accounted {x : Parse α} (hx : Keeps n P x) :
  Keeps n P (accounted x)
  := by
  intro p
  obtain ⟨hp, ha⟩ := hx p
  rw [Parse.accounted]
  rcases hxp : x p with ⟨_ | a, q⟩
  · rw [hxp] at hp ha
    exact ⟨hp.trans (.countDropped n q), ha⟩
  · rw [hxp] at hp ha
    exact ⟨hp.trans (.countKept n q), ha⟩

/-- What stays within `n` levels one level deeper needs one level more. -/
theorem nested {x : Parse α} (hx : Keeps n P x) :
  Keeps (n + 1) P (nested x)
  := by
  intro p
  obtain ⟨hp, ha⟩ := hx p.descend
  exact ⟨hp.ascend, ha⟩

end Keeps

/-- An expression stays within `n` levels, and is nested to no more than these. -/
def Bounds (n : Nat) (inner : Inner) : Prop :=
  ∀ strength, Keeps n (fun e => e.nesting ≤ n) (inner strength)

namespace Bounds

variable {n : Nat} {inner : Inner}

/-! ### Statements -/

/-- A `let` statement is nested within the levels for its value. -/
theorem letStatement (hinner : Bounds n inner) :
  Keeps n (fun s => s.nesting ≤ n) (letStatement inner)
  := by
  apply Keeps.recovering
  apply Keeps.bind .current
  intro word _
  apply Keeps.bind (.expectNext .identifier)
  intro _ _
  apply Keeps.bind .identifier
  intro name _
  apply Keeps.bind (.expectNext .assign)
  intro _ _
  apply Keeps.bind .advance
  intro _ _
  apply Keeps.bind (hinner .lowest)
  intro value hvalue
  apply Keeps.bind (.expectNext .semicolon)
  intro _ _
  apply Keeps.pure
  apply hvalue

/-- A `return` statement is nested within the levels for its value, if there is one. -/
theorem returnStatement (hinner : Bounds n inner) :
  Keeps n (fun s => s.nesting ≤ n) (returnStatement inner)
  := by
  apply Keeps.recovering
  apply Keeps.bind .current
  intro word _
  apply Keeps.bind (.nextIs .semicolon)
  intro b _
  apply Keeps.ite
  · apply Keeps.bind .advance
    intro _ _
    apply Keeps.pure
    apply Nat.zero_le n
  · apply Keeps.bind .advance
    intro _ _
    apply Keeps.bind (hinner .lowest)
    intro value hvalue
    apply Keeps.bind (.expectNext .semicolon)
    intro _ _
    apply Keeps.pure
    apply hvalue

/-- An expression as a statement is nested within the levels for expressions. -/
theorem expressionStatement (hinner : Bounds n inner) :
  Keeps n (fun s => s.nesting ≤ n) (expressionStatement inner)
  := by
  intro p
  obtain ⟨hp, he⟩ := hinner .lowest p
  rw [Parse.expressionStatement]
  rcases hxp : inner .lowest p with ⟨value, q⟩
  rw [hxp] at hp he
  constructor
  · apply hp.trans
    dsimp only
    split
    · apply Parser.StaysWithin.advance
    · apply Parser.StaysWithin.refl
  · intro s hs
    obtain ⟨e, he', rfl⟩ := Option.map_eq_some_iff.mp hs
    apply he e he'

/-- A statement is nested within the levels for expressions. -/
theorem statement (hinner : Bounds n inner) :
  Keeps n (fun s => s.nesting ≤ n) (statement inner)
  := by
  apply Keeps.accounted
  intro p
  dsimp only
  split
  · apply hinner.letStatement
  · apply hinner.returnStatement
  · apply hinner.expressionStatement

/-- The loop over statements, whichever of them are given up. -/
theorem statementsAfter (hinner : Bounds n inner) (closes : Kind → Bool) (ahead : List Token)
    {read : List Stmt} (hread : ∀ s ∈ read, s.nesting ≤ n) (p : Parser) :
  p.StaysWithin n (statementsAfter inner closes ahead read p).2 ∧
    ∀ s ∈ (Parse.statementsAfter inner closes ahead read p).1, s.nesting ≤ n
  := by
  have hreverse {read : List Stmt} (hread : ∀ s ∈ read, s.nesting ≤ n) :
      ∀ s ∈ read.reverse, s.nesting ≤ n := by
    simpa using hread
  induction ahead generalizing read p with
  | nil => exact ⟨.refl n p, hreverse hread⟩
  | cons t ahead ih =>
    rw [Parse.statementsAfter]
    split
    · exact ⟨.refl n p, hreverse hread⟩
    · obtain ⟨hp, hs⟩ := hinner.statement p
      rcases hxp : Parse.statement inner p with ⟨_ | s, q⟩
      · rw [hxp] at hp
        obtain ⟨hq, hrest⟩ := ih hread q.advance
        exact ⟨hp.trans ((Parser.StaysWithin.advance n q).trans hq), hrest⟩
      · rw [hxp] at hp hs
        obtain ⟨hq, hrest⟩ := ih (List.forall_mem_cons.mpr ⟨hs s rfl, hread⟩) q.advance
        exact ⟨hp.trans ((Parser.StaysWithin.advance n q).trans hq), hrest⟩

/-- A block is nested within the levels for the expressions in it, and takes none itself. -/
theorem block (hinner : Bounds n inner) :
  Keeps n (fun b => b.nesting ≤ n) (block inner)
  := by
  intro p
  obtain ⟨hp, hss⟩ := hinner.statementsAfter closesBlock p.advance.stream.tokens
    (List.forall_mem_nil _) p.advance
  use (Parser.StaysWithin.advance n p).trans hp
  rintro b ⟨⟩
  apply (Stmt.nestingEach_le_iff _ n).mpr hss

/-! ### Expressions -/

/-- A prefix operator takes a level more than its operand. -/
theorem unary (hinner : Bounds n inner) :
  Keeps n (fun e => e.nesting ≤ n + 1) (unary inner)
  := by
  apply Keeps.bind .current
  intro operator _
  apply Keeps.bind .advance
  intro _ _
  apply Keeps.bind (hinner .unary)
  intro right hright
  apply Keeps.pure
  apply Nat.succ_le_succ hright

/-- An expression in parentheses is nested no deeper than without them. -/
theorem group (hinner : Bounds n inner) :
  Keeps n (fun e => e.nesting ≤ n + 1) (group inner)
  := by
  apply Keeps.bind .advance
  intro _ _
  apply Keeps.bind (hinner .lowest)
  intro e he
  apply Keeps.bind (.expectNext .rightParen)
  intro _ _
  apply Keeps.pure
  apply Nat.le_succ_of_le he

/-- A second block is nested within the levels for the expressions in it. -/
theorem alternative (hinner : Bounds n inner) :
  Keeps n (fun b => Block.nestingElse b ≤ n) (alternative inner)
  := by
  apply Keeps.bind (.nextIs .elseWord)
  intro b _
  apply Keeps.ite
  · apply Keeps.bind .advance
    intro _ _
    apply Keeps.bind (.expectNext .leftBrace)
    intro _ _
    apply Keeps.bind hinner.block
    intro b hb
    apply Keeps.pure
    apply hb
  · apply Keeps.pure
    apply Nat.zero_le n

/-- A choice takes a level more than its condition and its blocks. -/
theorem conditional (hinner : Bounds n inner) :
  Keeps n (fun e => e.nesting ≤ n + 1) (conditional inner)
  := by
  apply Keeps.bind .current
  intro word _
  apply Keeps.bind (.expectNext .leftParen)
  intro _ _
  apply Keeps.bind .advance
  intro _ _
  apply Keeps.bind (hinner .lowest)
  intro condition hcondition
  apply Keeps.bind (.expectNext .rightParen)
  intro _ _
  apply Keeps.bind (.expectNext .leftBrace)
  intro _ _
  apply Keeps.bind hinner.block
  intro consequence hconsequence
  apply Keeps.bind hinner.alternative
  intro alternative halternative
  apply Keeps.pure
  rw [Expr.nesting]
  omega

end Bounds

/-- An integer takes one level. -/
theorem keeps_integer (n : Nat) :
  Keeps n (fun e => e.nesting ≤ n + 1) integer
  := by
  intro p
  rw [integer]
  split
  · use .refl n p
    rintro e ⟨⟩
    apply Nat.succ_le_succ (Nat.zero_le n)
  · apply Keeps.giveUp

/-- A boolean takes one level. -/
theorem keeps_boolean (n : Nat) :
  Keeps n (fun e => e.nesting ≤ n + 1) boolean
  := by
  intro p
  use .refl n p
  rintro e ⟨⟩
  apply Nat.succ_le_succ (Nat.zero_le n)

/-- Names are no expressions, and add no levels. -/
theorem keeps_parametersAfter (n : Nat) (ahead : List Token) (read : List Ident) :
  Keeps n (fun _ => True) (parametersAfter ahead read)
  := by
  induction ahead generalizing read with
  | nil => apply Keeps.pure trivial
  | cons t ahead ih =>
    apply Keeps.bind (.nextIs .comma)
    intro b _
    apply Keeps.ite
    · apply Keeps.bind .advance
      intro _ _
      apply Keeps.bind (.expectNext .identifier)
      intro _ _
      apply Keeps.bind .identifier
      intro id _
      apply ih
    · apply Keeps.pure trivial

/-- Parameters take no level. -/
theorem keeps_parameters (n : Nat) :
  Keeps n (fun _ => True) parameters
  := by
  apply Keeps.bind (.nextIs .rightParen)
  intro b _
  apply Keeps.ite
  · apply Keeps.bind .advance
    intro _ _
    apply Keeps.pure trivial
  · apply Keeps.bind (.expectNext .identifier)
    intro _ _
    apply Keeps.bind .identifier
    intro first _
    apply Keeps.bind .ahead
    intro ahead _
    apply Keeps.bind (keeps_parametersAfter n ahead [first])
    intro ids _
    apply Keeps.bind (.expectNext .rightParen)
    intro _ _
    apply Keeps.pure trivial

namespace Bounds

variable {n : Nat} {inner : Inner}

/-- A function takes a level more than its body. -/
theorem function (hinner : Bounds n inner) :
  Keeps n (fun e => e.nesting ≤ n + 1) (function inner)
  := by
  apply Keeps.bind .current
  intro word _
  apply Keeps.bind (.expectNext .leftParen)
  intro _ _
  apply Keeps.bind (keeps_parameters n)
  intro ids _
  apply Keeps.bind (.expectNext .leftBrace)
  intro _ _
  apply Keeps.bind hinner.block
  intro body hbody
  apply Keeps.pure
  apply Nat.succ_le_succ hbody

/-- Expressions with commas before them are nested within the levels for expressions. -/
theorem expressionsAfter (hinner : Bounds n inner) (ahead : List Token) {read : List Expr}
    (hread : ∀ e ∈ read, e.nesting ≤ n) :
  Keeps n (fun es => ∀ e ∈ es, e.nesting ≤ n) (expressionsAfter inner ahead read)
  := by
  induction ahead generalizing read with
  | nil => apply Keeps.pure (by simpa using hread)
  | cons t ahead ih =>
    apply Keeps.bind (.nextIs .comma)
    intro b _
    apply Keeps.ite
    · apply Keeps.bind .advance
      intro _ _
      apply Keeps.bind .advance
      intro _ _
      apply Keeps.bind (hinner .lowest)
      intro e he
      apply ih (List.forall_mem_cons.mpr ⟨he, hread⟩)
    · apply Keeps.pure (by simpa using hread)

/-- Expressions with commas between them are nested within the levels for expressions. -/
theorem expressionList (hinner : Bounds n inner) (closing : Kind) :
  Keeps n (fun es => ∀ e ∈ es, e.nesting ≤ n) (expressionList inner closing)
  := by
  apply Keeps.bind (.nextIs closing)
  intro b _
  apply Keeps.ite
  · apply Keeps.bind .advance
    intro _ _
    apply Keeps.pure (by simp)
  · apply Keeps.bind .advance
    intro _ _
    apply Keeps.bind (hinner .lowest)
    intro first hfirst
    apply Keeps.bind .ahead
    intro ahead _
    apply Keeps.bind (hinner.expressionsAfter ahead (by simpa using hfirst))
    intro es hes
    apply Keeps.bind (.expectNext closing)
    intro _ _
    apply Keeps.pure hes

/-- An operand takes at most a level more than the expressions within it. -/
theorem operand (hinner : Bounds n inner) :
  Keeps n (fun e => e.nesting ≤ n + 1) (operand inner)
  := by
  intro p
  rw [Parse.operand]
  split
  · use .refl n p
    rintro e ⟨⟩
    apply Nat.succ_le_succ (Nat.zero_le n)
  · apply keeps_integer
  · apply keeps_boolean
  · apply keeps_boolean
  · apply hinner.unary
  · apply hinner.unary
  · apply hinner.group
  · apply hinner.conditional
  · apply hinner.function
  · apply Keeps.giveUp

/-- A binary operator takes a level more than its operand on the right, and none more than the one
on the left. -/
theorem binary (hinner : Bounds n inner) {left : Expr} (hleft : left.nesting ≤ n + 1) :
  Keeps n (fun e => e.nesting ≤ n + 1) (binary inner left)
  := by
  apply Keeps.bind .current
  intro operator _
  apply Keeps.bind .advance
  intro _ _
  apply Keeps.bind (hinner operator.kind.precedence)
  intro right hright
  apply Keeps.pure
  apply Nat.max_le.mpr ⟨hleft, Nat.succ_le_succ hright⟩

/-- A call takes a level more than its arguments, and none more than the function. -/
theorem call (hinner : Bounds n inner) {function : Expr} (hfunction : function.nesting ≤ n + 1) :
  Keeps n (fun e => e.nesting ≤ n + 1) (call inner function)
  := by
  apply Keeps.bind .current
  intro parenthesis _
  apply Keeps.bind (hinner.expressionList .rightParen)
  intro arguments harguments
  apply Keeps.pure
  apply Nat.max_le.mpr ⟨hfunction, (Expr.nestingArguments_le_iff arguments n).mpr harguments⟩

/-- An extension takes no level more than the expression that it extends and one more than those
within it. -/
theorem extension (hinner : Bounds n inner) {left : Expr} (hleft : left.nesting ≤ n + 1) :
  Keeps n (fun e => e.nesting ≤ n + 1) (extension inner left)
  := by
  intro p
  rw [Parse.extension]
  split
  · apply hinner.call hleft
  · apply hinner.binary hleft

/-- However many extensions there are, the expression so far is only nested to its left. -/
theorem extensions (hinner : Bounds n inner) (strength : Precedence) (ahead : List Token)
    {left : Expr} (hleft : left.nesting ≤ n + 1) :
  Keeps n (fun e => e.nesting ≤ n + 1) (extensions inner strength ahead left)
  := by
  induction ahead generalizing left with
  | nil =>
    intro p
    use .refl n p
    rintro e ⟨⟩
    apply hleft
  | cons t ahead ih =>
    intro p
    rw [Parse.extensions]
    split
    · obtain ⟨hp, he⟩ := hinner.extension hleft p.advance
      rcases hxp : Parse.extension inner left p.advance with ⟨_ | e, q⟩
      · rw [hxp] at hp
        exact ⟨(Parser.StaysWithin.advance n p).trans hp, by simp⟩
      · rw [hxp] at hp he
        obtain ⟨hq, he'⟩ := ih (he e rfl) q
        exact ⟨(Parser.StaysWithin.advance n p).trans (hp.trans hq), he'⟩
    · use .refl n p
      rintro e ⟨⟩
      apply hleft

/-- A climb takes one level more than the expressions within it. -/
theorem climb (hinner : Bounds n inner) (strength : Precedence) :
  Keeps n (fun e => e.nesting ≤ n + 1) (climb inner strength)
  := by
  apply Keeps.bind hinner.operand
  intro left hleft
  apply Keeps.bind .ahead
  intro ahead _
  apply hinner.extensions strength ahead hleft

end Bounds

/-- Expressions are nested to no more than the levels that they are parsed with. -/
theorem bounds_expressionWithin (levels : Nat) :
  Bounds levels (expressionWithin levels)
  := by
  induction levels with
  | zero =>
    intro strength
    apply Keeps.recovering (.giveUp _)
  | succ levels ih =>
    intro strength
    apply Keeps.nested (ih.climb strength)

end Parse

/-- The statements of a program are nested to no more than `100` levels, whatever has been
reported, and the parser does not get deeper than that. -/
theorem nesting_parseStream (s : TokenStream) :
  (∀ stmt ∈ (parseStream s).program.statements, stmt.nesting ≤ maxNesting) ∧
    (parseAccount s).deepest ≤ maxNesting
  := by
  have hloop := Parse.statementsAfter_congr Grammar.agreesAt_expression Parse.closesProgram
    s.tokens [] (p := .ofStream s) rfl
  have hbounds := Parse.bounds_expressionWithin maxNesting
  obtain ⟨hp, hss⟩ := hbounds.statementsAfter Parse.closesProgram s.tokens (List.forall_mem_nil _)
    (.ofStream s)
  rw [← hloop] at hp hss
  constructor
  · apply hss
  · apply hp.deepest_le

end MonkeySyntax
