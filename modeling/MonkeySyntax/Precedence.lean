import MonkeySyntax.Token.Kind

/-!
# Precedences

A `Precedence` is a binding strength.  The seven of them are ordered by `rank`.
`Kind.precedence` is the strength with which a token of a kind extends the expression on
its left: the binary operators and the opening parenthesis of a call extend it, all other
kinds have the lowest strength and extend nothing.
-/

namespace MonkeySyntax

/-- A binding strength. -/
inductive Precedence where
  | lowest
  /-- Of `==` and `!=`. -/
  | equals
  /-- Of `<` and `>`. -/
  | lessGreater
  /-- Of `+` and `-`. -/
  | sum
  /-- Of `*` and `/`. -/
  | product
  /-- Of `!` and `-` before their operand. -/
  | unary
  /-- Of the parenthesis that opens the arguments of a call. -/
  | call
deriving DecidableEq, Repr, Inhabited

namespace Precedence

/-- Every binding strength, the weakest first. -/
def all : List Precedence :=
  [lowest, equals, lessGreater, sum, product, unary, call]

/-- The place of a binding strength in the order, from `1` for the weakest on. -/
def rank : Precedence → Nat
  | lowest => 1
  | equals => 2
  | lessGreater => 3
  | sum => 4
  | product => 5
  | unary => 6
  | call => 7

/-- The name under which a binding strength is listed. -/
def name : Precedence → String
  | lowest => "LOWEST"
  | equals => "EQUALS"
  | lessGreater => "LESSGREATER"
  | sum => "SUM"
  | product => "PRODUCT"
  | unary => "PREFIX"
  | call => "CALL"

/-- The binding strength listed under a name. -/
def ofName? (text : String) : Option Precedence :=
  all.find? (fun p => p.name == text)

instance : LT Precedence :=
  ⟨fun p q => p.rank < q.rank⟩

instance (p q : Precedence) : Decidable (p < q) :=
  inferInstanceAs (Decidable (p.rank < q.rank))

/-- A strength is below another exactly when its rank is. -/
theorem lt_iff_rank_lt {p q : Precedence} :
  p < q ↔ p.rank < q.rank
  := Iff.rfl

end Precedence

/-- The strength with which a token of a kind extends the expression on its left. -/
def Kind.precedence : Kind → Precedence
  | .equal | .notEqual => .equals
  | .less | .greater => .lessGreater
  | .plus | .minus => .sum
  | .asterisk | .slash => .product
  | .leftParen => .call
  | _ => .lowest

end MonkeySyntax
