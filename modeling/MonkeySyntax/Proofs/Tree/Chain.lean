import MonkeySyntax.Parser.Expression
import MonkeySyntax.Proofs.Tree.Shape

/-!
# Chains of operators

A chain is an operand, followed by operators between operands without parentheses.  An operand is a
name, an integer or a truth value, with operators before it.

The tree of a chain is given from the top down: the last one of the weakest operators is the one
between the two sides of the tree, which are the trees of the chains on its left and on its right.
Nothing is said of the order in which the operators are met.
-/

namespace MonkeySyntax

namespace Chain

/-- A token that stands for an expression by itself. -/
inductive Atom where
  | name (token : Token) (kind_eq : token.kind = .identifier)
  /-- An integer that is in range. -/
  | integer (token : Token) (value : Int) (kind_eq : token.kind = .integer)
      (value_eq : Parse.integerValue? token.text = some value)
  | boolean (token : Token) (kind_eq : token.kind = .trueWord ∨ token.kind = .falseWord)

namespace Atom

/-- The token of an atom. -/
def token : Atom → Token
  | name token _ => token
  | integer token _ _ _ => token
  | boolean token _ => token

/-- The expression that an atom stands for. -/
def tree : Atom → Expr
  | name token _ => .name ⟨token, token.text⟩
  | integer token value _ _ => .integer token value
  | boolean token _ => .boolean token (token.kind == .trueWord)

end Atom

/-- The greatest number of operators before an atom.  The levels that this leaves are one for the
chain, and one for each strength of the operators between operands. -/
def maxOperators : Nat :=
  95

/-- An expression with operators before it, which apply from the right to the left. -/
def prefixed (operators : List Token) (e : Expr) : Expr :=
  operators.foldr (fun t right => .unary t t.text right) e

/-- An atom with operators before it. -/
structure Operand where
  operators : List Token
  atom : Atom
  kind_operators : ∀ t ∈ operators, t.kind = .bang ∨ t.kind = .minus
  length_operators_le : operators.length ≤ maxOperators

namespace Operand

def tokens (u : Operand) : List Token :=
  u.operators ++ [u.atom.token]

/-- The expression that an operand stands for. -/
def tree (u : Operand) : Expr :=
  prefixed u.operators u.atom.tree

end Operand

/-- An operator between operands, and the operand on its right. -/
structure Link where
  operator : Token
  operand : Operand
  isBinary_operator : operator.kind.isBinary = true

namespace Link

/-- How strongly the operator of a link binds. -/
def strength (l : Link) : Precedence :=
  l.operator.kind.precedence

def tokens (l : Link) : List Token :=
  l.operator :: l.operand.tokens

/-- An operator between operands is weaker than one before an operand. -/
theorem rank_strength_le (l : Link) :
  l.strength.rank ≤ Precedence.product.rank
  := by
  have hbinary := l.isBinary_operator
  rw [strength]
  revert hbinary
  cases l.operator.kind <;> decide

end Link

/-- The last one of the weakest links, with the links before it and those after it. -/
def lastWeakest : List Link → Option (List Link × Link × List Link)
  | [] => none
  | l :: ls =>
    match lastWeakest ls with
    | none => some ([], l, [])
    | some (before, m, after) =>
      if l.strength < m.strength then some ([], l, ls) else some (l :: before, m, after)

/-- Among any links there is a weakest one. -/
theorem eq_nil_of_lastWeakest {links : List Link} (h : lastWeakest links = none) :
  links = []
  := by
  cases links with
  | nil => rfl
  | cons l ls =>
    rw [lastWeakest] at h
    split at h
    · cases h
    · split at h <;> cases h

/-- The last one of the weakest links is no stronger than those before it, and weaker than those
after it. -/
theorem eq_append_of_lastWeakest {links before after : List Link} {l : Link}
    (h : lastWeakest links = some (before, l, after)) :
  links = before ++ l :: after ∧ (∀ k ∈ before, ¬ k.strength < l.strength) ∧
    ∀ k ∈ after, l.strength < k.strength
  := by
  induction links generalizing before l after with
  | nil => cases h
  | cons k ls ih =>
    rw [lastWeakest] at h
    split at h
    case h_1 hnone =>
      cases h
      rw [eq_nil_of_lastWeakest hnone]
      simp
    case h_2 before' m after' hsome =>
      obtain ⟨rfl, hbefore, hafter⟩ := ih hsome
      split at h
      case isTrue hlt =>
        cases h
        have hmiddle : ∀ j ∈ before', k.strength < j.strength := by
          intro j hj
          apply Nat.lt_of_lt_of_le hlt (Nat.not_lt.mp (hbefore j hj))
        have hlast : ∀ j ∈ after', k.strength < j.strength := by
          intro j hj
          apply Nat.lt_trans hlt (hafter j hj)
        rw [List.forall_mem_append, List.forall_mem_cons]
        exact ⟨rfl, by simp, hmiddle, hlt, hlast⟩
      case isFalse hlt =>
        cases h
        rw [List.forall_mem_cons]
        exact ⟨rfl, ⟨hlt, hbefore⟩, hafter⟩

/-- No other link splits the links in this way. -/
theorem lastWeakest_eq_some_iff {links before after : List Link} {l : Link} :
  lastWeakest links = some (before, l, after) ↔
    links = before ++ l :: after ∧ (∀ k ∈ before, ¬ k.strength < l.strength) ∧
      ∀ k ∈ after, l.strength < k.strength
  := by
  constructor
  · apply eq_append_of_lastWeakest
  · rintro ⟨rfl, hbefore, hafter⟩
    induction before with
    | nil =>
      rw [List.nil_append, lastWeakest]
      rcases hsplit : lastWeakest after with _ | ⟨before', m, after'⟩
      · rw [eq_nil_of_lastWeakest hsplit]
      · have hlt : l.strength < m.strength := by
          apply hafter
          rw [(eq_append_of_lastWeakest hsplit).1]
          simp
        simp [hlt]
    | cons k before ih =>
      obtain ⟨hk, hbefore⟩ := List.forall_mem_cons.mp hbefore
      rw [List.cons_append, lastWeakest, ih hbefore]
      simp [hk]

end Chain

/-- An operand, and operators with the operands on their right. -/
structure Chain where
  first : Chain.Operand
  links : List Chain.Link

namespace Chain

def tokens (c : Chain) : List Token :=
  c.first.tokens ++ c.links.flatMap Link.tokens

/-- The last operand. -/
def last (c : Chain) : Operand :=
  (c.links.getLast?.map Link.operand).getD c.first

/-- A chain is split at the last one of its weakest operators. -/
def tree (c : Chain) : Expr :=
  match _hsplit : lastWeakest c.links with
  | none => c.first.tree
  | some (before, l, after) =>
    .binary l.operator (tree ⟨c.first, before⟩) l.operator.text (tree ⟨l.operand, after⟩)
termination_by c.links.length
decreasing_by
  all_goals
    rw [(eq_append_of_lastWeakest _hsplit).1, List.length_append, List.length_cons]
    omega

/-- The part of a chain before the first operator that is not stronger than a strength. -/
def upTo (strength : Precedence) (c : Chain) : Chain :=
  ⟨c.first, c.links.takeWhile (fun l => strength < l.strength)⟩

/-- The links from the first operator on that is not stronger than a strength. -/
def beyond (strength : Precedence) (c : Chain) : List Link :=
  c.links.dropWhile (fun l => strength < l.strength)

/-- The last operand of a chain is that of its part after any link. -/
theorem last_append_cons (u : Operand) (before after : List Link) (l : Link) :
  (mk u (before ++ l :: after)).last = (mk l.operand after).last
  := by
  cases after with
  | nil => simp [last]
  | cons k after => simp [last, List.getLast?_append, List.getLast?_cons]

/-- A chain goes up to the first link that is not stronger. -/
theorem upTo_append {strength : Precedence} (u : Operand) {before after : List Link}
    (hbefore : ∀ k ∈ before, strength < k.strength)
    (hafter : ∀ k ∈ after.head?, ¬ strength < k.strength) :
  (mk u (before ++ after)).upTo strength = mk u before
  := by
  have hstop : after.takeWhile (fun k => strength < k.strength) = [] := by
    cases after with
    | nil => rfl
    | cons k after => simp [hafter k rfl]
  rw [upTo, List.takeWhile_append_of_pos (by simpa using hbefore), hstop, List.append_nil]

/-- Beyond that the other links are left. -/
theorem beyond_append {strength : Precedence} (u : Operand) {before after : List Link}
    (hbefore : ∀ k ∈ before, strength < k.strength)
    (hafter : ∀ k ∈ after.head?, ¬ strength < k.strength) :
  (mk u (before ++ after)).beyond strength = after
  := by
  rw [beyond, List.dropWhile_append_of_pos (by simpa using hbefore)]
  cases after with
  | nil => rfl
  | cons k after => simp [hafter k rfl]

/-- The part of a chain up to a strength has only stronger links. -/
theorem lt_strength_of_mem_upTo {strength : Precedence} {c : Chain} {k : Link}
    (h : k ∈ (c.upTo strength).links) :
  strength < k.strength
  := by
  simpa using List.mem_takeWhile_imp h

/-- The part of a chain beyond a strength starts with a link that is no stronger. -/
theorem not_lt_strength_of_mem_beyond {strength : Precedence} {c : Chain} {k : Link}
    (h : k ∈ (c.beyond strength).head?) :
  ¬ strength < k.strength
  := by
  have hnot := List.head?_dropWhile_not (fun l : Link => strength < l.strength) c.links
  rw [beyond, Option.mem_def] at h
  rw [h] at hnot
  simpa using hnot

/-- The two parts of a chain make up the chain. -/
theorem links_upTo_append_beyond (strength : Precedence) (c : Chain) :
  (c.upTo strength).links ++ c.beyond strength = c.links
  := List.takeWhile_append_dropWhile

/-- The part of a chain beyond a strength has no more links than the chain. -/
theorem length_beyond_le (strength : Precedence) (c : Chain) :
  (c.beyond strength).length ≤ c.links.length
  := (List.dropWhile_suffix _).length_le

/-- The tree of a chain without links is that of its operand. -/
@[simp]
theorem tree_nil (u : Operand) :
  (mk u []).tree = u.tree
  := by
  rw [tree]
  rfl

/-- The tree of a chain from its two sides. -/
theorem tree_append_cons {u : Operand} {before after : List Link} {l : Link}
    (hbefore : ∀ k ∈ before, ¬ k.strength < l.strength)
    (hafter : ∀ k ∈ after, l.strength < k.strength) :
  (mk u (before ++ l :: after)).tree =
    .binary l.operator (mk u before).tree l.operator.text (mk l.operand after).tree
  := by
  have hsplit := lastWeakest_eq_some_iff.mpr ⟨rfl, hbefore, hafter⟩
  rw [tree]
  split
  case h_1 hnone =>
    dsimp only at hnone
    rw [hsplit] at hnone
    cases hnone
  case h_2 hsome =>
    dsimp only at hsome
    rw [hsplit] at hsome
    cases hsome
    rfl

end Chain

end MonkeySyntax
