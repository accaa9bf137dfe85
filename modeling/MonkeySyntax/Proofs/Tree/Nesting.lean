import MonkeySyntax.Tree.Basic

/-!
# The nesting of trees

The nesting of a tree is the greatest number of constructs that stand one within the other, where
the left side of an operator and the expression that is called do not count as within: they may
themselves be such expressions, so trees of any depth on the left have little nesting.
-/

namespace MonkeySyntax

mutual

/-- The nesting of an expression.  What stands one level deeper is the operand on the right of an
operator, an argument, and the condition and the statements of a choice or a function. -/
def Expr.nesting : Expr → Nat
  | .name _ | .integer _ _ | .boolean _ _ => 1
  | .unary _ _ right => right.nesting + 1
  | .binary _ left _ right => max left.nesting (right.nesting + 1)
  | .conditional _ condition consequence alternative =>
    max condition.nesting (max consequence.nesting (Block.nestingElse alternative)) + 1
  | .function _ _ body => body.nesting + 1
  | .call _ function arguments => max function.nesting (Expr.nestingArguments arguments)

/-- The nesting of arguments, counted from where the call stands. -/
def Expr.nestingArguments : List Expr → Nat
  | [] => 0
  | e :: es => max (e.nesting + 1) (Expr.nestingArguments es)

/-- The nesting of the expression of a statement. -/
def Stmt.nesting : Stmt → Nat
  | .binding _ _ value => value.nesting
  | .returning _ none => 0
  | .returning _ (some value) => value.nesting
  | .expression _ value => value.nesting
  | .block body => body.nesting

/-- The greatest nesting of several statements. -/
def Stmt.nestingEach : List Stmt → Nat
  | [] => 0
  | s :: ss => max s.nesting (Stmt.nestingEach ss)

/-- The nesting of the statements of a block. -/
def Block.nesting : Block → Nat
  | .mk _ statements => Stmt.nestingEach statements

/-- The nesting of the second block of a choice. -/
def Block.nestingElse : Option Block → Nat
  | none => 0
  | some b => b.nesting

end

/-- Arguments stand one level deeper than the call. -/
theorem Expr.nestingArguments_le_iff (es : List Expr) (n : Nat) :
  Expr.nestingArguments es ≤ n + 1 ↔ ∀ e ∈ es, e.nesting ≤ n
  := by
  induction es with
  | nil => simp [Expr.nestingArguments]
  | cons e es ih =>
    rw [Expr.nestingArguments, Nat.max_le, ih, List.forall_mem_cons, Nat.succ_le_succ_iff]

/-- Statements are nested as deep as the deepest of them. -/
theorem Stmt.nestingEach_le_iff (ss : List Stmt) (n : Nat) :
  Stmt.nestingEach ss ≤ n ↔ ∀ s ∈ ss, s.nesting ≤ n
  := by
  induction ss with
  | nil => simp [Stmt.nestingEach]
  | cons s ss ih => rw [Stmt.nestingEach, Nat.max_le, ih, List.forall_mem_cons]

end MonkeySyntax
