import MonkeySyntax.Tree.Basic

/-!
# Equality of trees

Whether two trees are equal is decidable: `same` compares them construct by construct,
with all their tokens, texts and values, and it answers `true` exactly for equal trees.
-/

namespace MonkeySyntax

mutual

/-- Whether two expressions are equal. -/
def Expr.same : Expr → Expr → Bool
  | .name a, .name b => a == b
  | .integer t v, .integer u w => t == u && v == w
  | .boolean t v, .boolean u w => t == u && v == w
  | .unary t o r, .unary u p s => t == u && o == p && r.same s
  | .binary t l o r, .binary u k p s => t == u && l.same k && o == p && r.same s
  | .conditional t c a e, .conditional u d b f =>
    t == u && c.same d && a.same b && Block.sameOption e f
  | .function t ps a, .function u qs b => t == u && ps == qs && a.same b
  | .call t f as, .call u g bs => t == u && f.same g && Expr.sameList as bs
  | _, _ => false

/-- Whether two lists of expressions are equal. -/
def Expr.sameList : List Expr → List Expr → Bool
  | [], [] => true
  | a :: as, b :: bs => a.same b && Expr.sameList as bs
  | _, _ => false

/-- Whether two expressions that may be missing are equal. -/
def Expr.sameOption : Option Expr → Option Expr → Bool
  | none, none => true
  | some a, some b => a.same b
  | _, _ => false

/-- Whether two statements are equal. -/
def Stmt.same : Stmt → Stmt → Bool
  | .binding t n v, .binding u m w => t == u && n == m && v.same w
  | .returning t v, .returning u w => t == u && Expr.sameOption v w
  | .expression t v, .expression u w => t == u && v.same w
  | .block a, .block b => a.same b
  | _, _ => false

/-- Whether two lists of statements are equal. -/
def Stmt.sameList : List Stmt → List Stmt → Bool
  | [], [] => true
  | a :: as, b :: bs => a.same b && Stmt.sameList as bs
  | _, _ => false

/-- Whether two blocks are equal. -/
def Block.same : Block → Block → Bool
  | .mk t ss, .mk u rs => t == u && Stmt.sameList ss rs

/-- Whether two blocks that may be missing are equal. -/
def Block.sameOption : Option Block → Option Block → Bool
  | none, none => true
  | some a, some b => a.same b
  | _, _ => false

end

mutual

/-- Two expressions are compared by their constructs and parts, which tells whether they are equal.
-/
theorem Expr.same_iff : ∀ a b : Expr, a.same b = true ↔ a = b
  | .name _, b => by cases b <;> simp [Expr.same]
  | .integer _ _, b => by cases b <;> simp [Expr.same]
  | .boolean _ _, b => by cases b <;> simp [Expr.same]
  | .unary _ _ r, b => by cases b <;> simp [Expr.same, Expr.same_iff r, and_assoc]
  | .binary _ l _ r, b => by
    cases b <;> simp [Expr.same, Expr.same_iff l, Expr.same_iff r, and_assoc]
  | .conditional _ c a e, b => by
    cases b <;>
      simp [Expr.same, Expr.same_iff c, Block.same_iff a, Block.sameOption_iff e, and_assoc]
  | .function _ _ a, b => by cases b <;> simp [Expr.same, Block.same_iff a, and_assoc]
  | .call _ f as, b => by
    cases b <;> simp [Expr.same, Expr.same_iff f, Expr.sameList_iff as, and_assoc]

theorem Expr.sameList_iff : ∀ as bs : List Expr, Expr.sameList as bs = true ↔ as = bs
  | [], bs => by cases bs <;> simp [Expr.sameList]
  | a :: as, bs => by
    cases bs <;> simp [Expr.sameList, Expr.same_iff a, Expr.sameList_iff as]

theorem Expr.sameOption_iff : ∀ a b : Option Expr, Expr.sameOption a b = true ↔ a = b
  | none, b => by cases b <;> simp [Expr.sameOption]
  | some a, b => by cases b <;> simp [Expr.sameOption, Expr.same_iff a]

theorem Stmt.same_iff : ∀ a b : Stmt, a.same b = true ↔ a = b
  | .binding _ _ v, b => by cases b <;> simp [Stmt.same, Expr.same_iff v, and_assoc]
  | .returning _ v, b => by cases b <;> simp [Stmt.same, Expr.sameOption_iff v]
  | .expression _ v, b => by cases b <;> simp [Stmt.same, Expr.same_iff v]
  | .block a, b => by cases b <;> simp [Stmt.same, Block.same_iff a]

theorem Stmt.sameList_iff : ∀ as bs : List Stmt, Stmt.sameList as bs = true ↔ as = bs
  | [], bs => by cases bs <;> simp [Stmt.sameList]
  | a :: as, bs => by
    cases bs <;> simp [Stmt.sameList, Stmt.same_iff a, Stmt.sameList_iff as]

theorem Block.same_iff : ∀ a b : Block, a.same b = true ↔ a = b
  | .mk _ ss, .mk _ _ => by simp [Block.same, Stmt.sameList_iff ss]

theorem Block.sameOption_iff : ∀ a b : Option Block, Block.sameOption a b = true ↔ a = b
  | none, b => by cases b <;> simp [Block.sameOption]
  | some a, b => by cases b <;> simp [Block.sameOption, Block.same_iff a]

end

instance : DecidableEq Expr :=
  fun a b => decidable_of_iff (a.same b = true) (Expr.same_iff a b)

instance : DecidableEq Stmt :=
  fun a b => decidable_of_iff (a.same b = true) (Stmt.same_iff a b)

instance : DecidableEq Block :=
  fun a b => decidable_of_iff (a.same b = true) (Block.same_iff a b)

instance : DecidableEq Program :=
  fun a b => decidable_of_iff (Stmt.sameList a.statements b.statements = true) (by
    cases a
    cases b
    simp [Stmt.sameList_iff])

/-- Whether two nodes are equal. -/
def Node.same : Node → Node → Bool
  | .program a, .program b => a == b
  | .statement a, .statement b => a == b
  | .expression a, .expression b => a == b
  | _, _ => false

/-- Two nodes are compared by their sorts and parts, which tells whether they are equal. -/
theorem Node.same_iff (a b : Node) :
  a.same b = true ↔ a = b
  := by
  cases a <;> cases b <;> simp [Node.same]

instance : DecidableEq Node :=
  fun a b => decidable_of_iff (a.same b = true) (Node.same_iff a b)

end MonkeySyntax
