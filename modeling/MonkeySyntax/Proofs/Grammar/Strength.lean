import MonkeySyntax.Proofs.Parser.Quiet
import MonkeySyntax.Proofs.Grammar.Basic

/-!
# Strengths and tiers

The parser asks for the expressions that bind more strongly than a strength.  These are the
expressions of a tier, `Precedence.tier`.  The tiers are ranked in line with the strengths of
their operators, so a token can follow an expression of a tier if its strength has no higher
rank, `Tier.EndsBefore`.
-/

namespace MonkeySyntax

open Grammar

/-- The tier of the expressions that bind more strongly than a strength. -/
def Precedence.tier : Precedence → Tier
  | lowest => .equality
  | equals => .relation
  | lessGreater => .sum
  | sum => .product
  | product => .unary
  | unary => .unary
  | call => .unary

namespace Grammar

namespace Tier

/-- The place of a tier in the order.  The tiers with operators between operands have the
place of the strength of these. -/
def rank : Tier → Nat
  | equality => 2
  | relation => 3
  | sum => 4
  | product => 5
  | unary => 6
  | call => 7
  | primary => 8

/-- A token of a kind ends an expression of a tier: it does not extend the operand on the
right, nor add a second block to a choice. -/
def EndsBefore (tier : Tier) (kind : Kind) : Prop :=
  kind.precedence.rank ≤ tier.rank ∧ kind ≠ .elseWord

/-- Different tiers have different ranks. -/
theorem rank_injective {tier tier' : Tier} (h : tier.rank = tier'.rank) :
  tier = tier'
  := by
  cases tier <;> cases tier' <;> simp_all [rank]

/-- The next tier has the next rank, but for the last one. -/
theorem rank_tighter {tier : Tier} (h : tier.rank < 8) :
  tier.tighter.rank = tier.rank + 1
  := by
  cases tier <;> simp_all [rank, tighter]

theorem rank_le (tier : Tier) :
  tier.rank ≤ 8
  := by
  cases tier <;> decide

/-- The next tier ranks no lower. -/
theorem rank_le_rank_tighter (tier : Tier) :
  tier.rank ≤ tier.tighter.rank
  := by
  cases tier <;> decide

/-- An expression of the next tier ends before what ends one of the tier. -/
theorem EndsBefore.tighter {tier : Tier} {kind : Kind} (h : tier.EndsBefore kind) :
  tier.tighter.EndsBefore kind
  := ⟨h.1.trans tier.rank_le_rank_tighter, h.2⟩

/-- An operator has the strength of its tier. -/
theorem rank_precedence_of_joins {tier : Tier} {kind : Kind} (h : tier.joins kind = true) :
  kind.precedence.rank = tier.rank
  := by
  cases tier <;> cases kind <;> first | rfl | cases h

/-- No operator ranks higher than those of products. -/
theorem rank_le_of_joins {tier : Tier} {kind : Kind} (h : tier.joins kind = true) :
  tier.rank ≤ product.rank
  := by
  cases tier <;> first | decide | cases h

/-- The operand on the right of an operator is of the next tier. -/
theorem tier_precedence_of_joins {tier : Tier} {kind : Kind} (h : tier.joins kind = true) :
  kind.precedence.tier = tier.tighter
  := by
  cases tier <;> cases kind <;> first | rfl | cases h

/-- A binary operator is no parenthesis. -/
theorem ne_leftParen_of_joins {tier : Tier} {kind : Kind} (h : tier.joins kind = true) :
  kind ≠ .leftParen
  := by
  rintro rfl
  cases tier <;> cases h

/-- A binary operator is not the end of the input. -/
theorem ne_endOfInput_of_joins {tier : Tier} {kind : Kind} (h : tier.joins kind = true) :
  kind ≠ .endOfInput
  := by
  rintro rfl
  cases tier <;> cases h

/-- A token that extends an expression, and starts no call, is an operator of some tier. -/
theorem exists_joins {kind : Kind} (h : Precedence.lowest < kind.precedence)
    (hparen : kind ≠ .leftParen) :
  ∃ tier : Tier, tier.joins kind = true
  := by
  cases kind with
  | equal | notEqual => exact ⟨.equality, rfl⟩
  | less | greater => exact ⟨.relation, rfl⟩
  | plus | minus => exact ⟨.sum, rfl⟩
  | asterisk | slash => exact ⟨.product, rfl⟩
  | leftParen => cases hparen rfl
  | _ => cases Precedence.not_lt_lowest _ h

end Tier

/-- An expression of a tier is one of every looser tier. -/
theorem IsExpr.loosen {tier tier' : Tier} {ts rest : List Token} {e : Expr} {n : Nat}
    (h : IsExpr tier' ts e n rest) (hle : tier.rank ≤ tier'.rank) :
  IsExpr tier ts e n rest
  := by
  induction hk : tier'.rank - tier.rank generalizing tier with
  | zero =>
    obtain rfl := Tier.rank_injective (Nat.le_antisymm hle (Nat.le_of_sub_eq_zero hk))
    apply h
  | succ k ih =>
    have hlt := tier'.rank_le
    have hrank : tier.tighter.rank = tier.rank + 1 := by
      apply Tier.rank_tighter
      omega
    apply IsExpr.tighter
    apply ih
    · omega
    · omega

end Grammar

namespace Precedence

/-- The tier of a strength ranks no lower than the strength, unless this is that of calls. -/
theorem rank_le_rank_tier {strength : Precedence} (h : strength ≠ .call) :
  strength.rank ≤ strength.tier.rank
  := by
  cases strength <;> first | decide | cases h rfl

/-- The tier of a strength ranks at most one higher than the strength. -/
theorem rank_tier_le (strength : Precedence) :
  strength.tier.rank ≤ strength.rank + 1
  := by
  cases strength <;> decide

/-- No strength has a tier above that of prefix operators. -/
theorem rank_tier_le_unary (strength : Precedence) :
  strength.tier.rank ≤ Tier.unary.rank
  := by
  cases strength <;> decide

/-- Up to products the tier of a strength ranks higher than the strength. -/
theorem lt_rank_tier {strength : Precedence} (h : strength.tier.rank ≤ Tier.product.rank) :
  strength.rank < strength.tier.rank
  := by
  revert h
  cases strength <;> decide

/-- A strength is below the operators of the tier that is read beyond it. -/
theorem rank_lt_of_rank_tier_le {strength : Precedence} {tier : Tier} {kind : Kind}
    (h : strength.tier.rank ≤ tier.rank) (hjoins : tier.joins kind = true) :
  strength < kind.precedence
  := by
  have hproduct := Tier.rank_le_of_joins hjoins
  have hstrength : strength.rank < strength.tier.rank := by
    apply lt_rank_tier
    omega
  rw [lt_iff_rank_lt, Tier.rank_precedence_of_joins hjoins]
  omega

theorem one_le_rank (strength : Precedence) :
  1 ≤ strength.rank
  := by
  cases strength <;> decide

theorem rank_le_seven (strength : Precedence) :
  strength.rank ≤ 7
  := by
  cases strength <;> decide

end Precedence

/-- The kinds that extend an expression are those that bind at all. -/
theorem Kind.extendsExpr_iff (kind : Kind) :
  kind.extendsExpr = true ↔ Precedence.lowest < kind.precedence
  := by
  cases kind <;> decide

/-- Nothing is weaker than a token that does not extend an expression. -/
theorem Kind.not_lt_precedence_of_extendsExpr {kind : Kind} (h : kind.extendsExpr = false)
    (strength : Precedence) :
  ¬ strength < kind.precedence
  := by
  have hlowest : ¬ Precedence.lowest < kind.precedence := by
    rw [← Kind.extendsExpr_iff, h]
    apply Bool.false_ne_true
  rw [Precedence.lt_iff_rank_lt] at hlowest ⊢
  have hone := strength.one_le_rank
  have hrank : Precedence.lowest.rank = 1 := rfl
  omega

end MonkeySyntax
