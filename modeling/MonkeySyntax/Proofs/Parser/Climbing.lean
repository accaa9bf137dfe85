import MonkeySyntax.Proofs.Grammar.Strength
import MonkeySyntax.Proofs.Tree.Chain

/-!
# Precedence climbing

The loop of extensions builds the tree of a chain of operators from the left, with the operand on
the right of every operator read at the strength of that operator.  What it builds is the tree of
the chain as it is given from the top down, `Chain.tree`.

When the loop meets an operator, the operators before it are no weaker, and those that are read
with its operand on the right are stronger.  So it is the last one of the weakest operators met so
far, which is where the chain so far is split.
-/

namespace MonkeySyntax

open Chain

namespace Chain

/-- The operand on the right of an operator, as far as the operators in it are stronger. -/
def Link.taken (l : Link) (links : List Link) : Chain :=
  (Chain.mk l.operand links).upTo l.strength

/-- What is left of the links after an operator when its operand on the right has been read. -/
def Link.untaken (l : Link) (links : List Link) : List Link :=
  (Chain.mk l.operand links).beyond l.strength

/-- The links that the loop has passed, when others are left: they are stronger than the strength
of the loop, and no weaker than the link that comes next. -/
structure Passed (strength : Precedence) (before links : List Link) : Prop where
  lt : ∀ k ∈ before, strength < k.strength
  not_lt : ∀ k ∈ before, ∀ l ∈ links.head?, ¬ k.strength < l.strength

/-- With no link passed there is nothing to extend. -/
theorem Passed.nil (strength : Precedence) (links : List Link) :
  Passed strength [] links
  := ⟨by simp, by simp⟩

/-- An operator is passed together with the operand on its right. -/
theorem Passed.step {strength : Precedence} {before links : List Link} {l : Link}
    (h : Passed strength before (l :: links)) (hl : strength < l.strength) :
  Passed strength (before ++ l :: (l.taken links).links) (l.untaken links)
  := by
  have htaken : ∀ k ∈ (l.taken links).links, l.strength < k.strength :=
    fun k hk => lt_strength_of_mem_upTo hk
  have huntaken : ∀ m ∈ (l.untaken links).head?, ¬ l.strength < m.strength :=
    fun m hm => not_lt_strength_of_mem_beyond hm
  have hbefore : ∀ k ∈ before, ¬ k.strength < l.strength := fun k hk => h.not_lt k hk l rfl
  simp only [Precedence.lt_iff_rank_lt, Nat.not_lt] at htaken huntaken hbefore hl
  constructor
  · rw [List.forall_mem_append, List.forall_mem_cons]
    use h.lt, hl
    intro k hk
    apply hl.trans (htaken k hk)
  · rw [List.forall_mem_append, List.forall_mem_cons]
    simp only [Precedence.lt_iff_rank_lt, Nat.not_lt]
    use fun k hk m hm => (huntaken m hm).trans (hbefore k hk), huntaken
    intro k hk m hm
    apply (huntaken m hm).trans (htaken k hk).le

end Chain

namespace Parse

/-- An atom is an operand. -/
theorem yields_atom (inner : Inner) (a : Atom) {p : Parser} (hp : p.current = a.token) :
  (operand inner).Yields p a.tree p
  := by
  cases a with
  | name token hkind =>
    obtain rfl : p.current = token := hp
    rw [yields_operand, hkind]
    exact ⟨rfl, rfl⟩
  | integer token value hkind hvalue =>
    obtain rfl : p.current = token := hp
    rw [yields_operand, hkind]
    apply (yields_integer p _ p).mpr ⟨value, hvalue, rfl, rfl⟩
  | boolean token hkind =>
    have hcurrent : p.current = token := hp
    have htree : (Atom.boolean token hkind).tree =
        .boolean p.current (p.currentIs .trueWord) := by
      rw [Parser.currentIs, hcurrent]
      rfl
    rw [htree, yields_operand, hcurrent]
    rcases hkind with hkind | hkind
    · rw [hkind]
      exact ⟨rfl, rfl⟩
    · rw [hkind]
      exact ⟨rfl, rfl⟩

/-- The operators before an atom take a level each. -/
theorem exists_yields_operators (a : Atom) {operators rest : List Token} {levels : Nat}
    {p : Parser} (hoperators : ∀ t ∈ operators, t.kind = .bang ∨ t.kind = .minus)
    (hlevels : operators.length ≤ levels)
    (hp : p.stream.tokens = operators ++ a.token :: rest)
    (hrest : ¬ Precedence.unary < (firstKind rest).precedence) :
  ∃ q, (operand (expressionWithin levels)).Yields p
      (prefixed operators a.tree) q ∧
    q.stream.tokens = a.token :: rest
  := by
  induction operators generalizing levels p with
  | nil =>
    use p
    exact ⟨yields_atom _ a (Parser.current_of_tokens hp), hp⟩
  | cons t operators ih =>
    obtain ⟨levels, rfl⟩ := Nat.exists_eq_add_of_le' (Nat.zero_lt_of_lt hlevels)
    obtain ⟨hkind, hkinds⟩ := List.forall_mem_cons.mp hoperators
    have hcurrent : p.current = t := Parser.current_of_tokens hp
    have htokens : p.advance.descend.stream.tokens = operators ++ a.token :: rest :=
      Parser.tokens_advance_of_tokens hp
    obtain ⟨q, hq, hqtokens⟩ := ih hkinds (Nat.le_of_succ_le_succ hlevels) htokens
    have hstop : ¬ Precedence.unary < q.next.kind.precedence := by
      rwa [Parser.kind_next_of_tokens_cons hqtokens]
    have hright : (expressionWithin (levels + 1) .unary).Yields p.advance
        (prefixed operators a.tree) q.ascend := by
      apply yields_expressionWithin _ hstop
      exact ⟨_, q, hq, .refl⟩
    have hunary : (unary (expressionWithin (levels + 1))).Yields p
        (.unary t t.text (prefixed operators a.tree)) q.ascend := by
      rw [yields_unary, hcurrent]
      exact ⟨_, hright, rfl⟩
    use q.ascend
    rw [yields_operand, hcurrent]
    rcases hkind with hkind | hkind
    · rw [hkind]
      exact ⟨hunary, hqtokens⟩
    · rw [hkind]
      exact ⟨hunary, hqtokens⟩

/-! ### Chains -/

/-- What comes after a part of a chain does not extend it. -/
theorem not_lt_precedence_firstKind {strength : Precedence} {links : List Link}
    {rest : List Token} (hlinks : ∀ l ∈ links.head?, ¬ strength < l.strength)
    (hrest : (firstKind rest).extendsExpr = false) :
  ¬ strength < (firstKind (links.flatMap Link.tokens ++ rest)).precedence
  := by
  cases links with
  | nil => apply Kind.not_lt_precedence_of_extendsExpr hrest
  | cons l links => apply hlinks l rfl

/-- How the parser reads chains with a number of levels: it gets to the last operand of the part
that binds more strongly than a strength. -/
def ReadsChains (levels : Nat) : Prop :=
  ∀ (strength : Precedence) (c : Chain) (rest : List Token) (p : Parser),
    maxOperators + 1 + (Precedence.product.rank - strength.rank) ≤ levels →
    p.stream.tokens = c.tokens ++ rest → (firstKind rest).extendsExpr = false →
    ∃ q, (expressionWithin levels strength).Yields p (c.upTo strength).tree q ∧
      q.stream.tokens = (c.upTo strength).last.atom.token ::
        ((c.beyond strength).flatMap Link.tokens ++ rest)

/-- The operator that comes next, with the part of the chain after it that is read as its operand
on the right. -/
theorem ReadsChains.exists_extends {levels : Nat} (h : ReadsChains levels) {strength : Precedence}
    (hlevels : maxOperators + (Precedence.product.rank - strength.rank) ≤ levels)
    {u : Operand} {before links : List Link} {l : Link} {rest : List Token} {p : Parser}
    (hp : p.stream.tokens =
      (mk u before).last.atom.token :: ((l :: links).flatMap Link.tokens ++ rest))
    (hrest : (firstKind rest).extendsExpr = false) (hpassed : Passed strength before (l :: links))
    (hl : strength < l.strength) :
  ∃ q, Extends (expressionWithin levels) strength ((mk u before).tree, p)
      ((mk u (before ++ l :: (l.taken links).links)).tree, q) ∧
    q.stream.tokens = (mk u (before ++ l :: (l.taken links).links)).last.atom.token ::
      ((l.untaken links).flatMap Link.tokens ++ rest)
  := by
  have hadvance : p.advance.stream.tokens = l.operator ::
      ((mk l.operand links).tokens ++ rest) := by
    rw [Parser.tokens_advance_of_tokens hp]
    simp [Link.tokens, Chain.tokens]
  have hcurrent : p.advance.current = l.operator := Parser.current_of_tokens hadvance
  have hparen : l.operator.kind ≠ .leftParen := by
    rintro hkind
    have hbinary := l.isBinary_operator
    rw [hkind] at hbinary
    cases hbinary
  have hrank := l.rank_strength_le
  rw [Precedence.lt_iff_rank_lt] at hl
  obtain ⟨q, hq, hqtokens⟩ := h l.strength (mk l.operand links) rest p.advance.advance (by omega)
    (Parser.tokens_advance_of_tokens hadvance) hrest
  use q
  constructor
  · constructor
    · rw [← Parser.current_advance, hcurrent]
      apply hl
    · rw [yields_extension, hcurrent, if_neg hparen, yields_binary, hcurrent]
      use (l.taken links).tree, hq
      apply tree_append_cons
      · intro k hk
        apply hpassed.not_lt k hk l rfl
      · intro k hk
        apply lt_strength_of_mem_upTo hk
  · rw [last_append_cons]
    apply hqtokens

/-- The loop of extensions, from the first links of a chain on. -/
theorem ReadsChains.exists_extensions {levels : Nat} (h : ReadsChains levels)
    {strength : Precedence}
    (hlevels : maxOperators + (Precedence.product.rank - strength.rank) ≤ levels)
    {u : Operand} {before links : List Link} {rest : List Token} {p : Parser}
    (hp : p.stream.tokens =
      (mk u before).last.atom.token :: (links.flatMap Link.tokens ++ rest))
    (hrest : (firstKind rest).extendsExpr = false) (hpassed : Passed strength before links) :
  ∃ q, Relation.ReflTransGen (Extends (expressionWithin levels) strength)
      ((mk u before).tree, p) (((mk u (before ++ links)).upTo strength).tree, q) ∧
    q.stream.tokens = ((mk u (before ++ links)).upTo strength).last.atom.token ::
      (((mk u (before ++ links)).beyond strength).flatMap Link.tokens ++ rest) ∧
    ¬ strength < q.next.kind.precedence
  := by
  induction hn : links.length using Nat.strong_induction_on generalizing before links p with
  | _ n ih =>
  by_cases hstop : ∀ l ∈ links.head?, ¬ strength < l.strength
  · rw [upTo_append u hpassed.lt hstop, beyond_append u hpassed.lt hstop]
    use p, .refl, hp
    rw [Parser.kind_next_of_tokens_cons hp]
    apply not_lt_precedence_firstKind hstop hrest
  · push Not at hstop
    obtain ⟨l, hhead, hl⟩ := hstop
    obtain ⟨links, rfl⟩ := List.head?_eq_some_iff.mp hhead
    obtain ⟨r, hr, hrtokens⟩ := h.exists_extends hlevels hp hrest hpassed hl
    have hlength : (l.untaken links).length < n := by
      rw [← hn, List.length_cons, Nat.lt_succ_iff]
      apply length_beyond_le
    obtain ⟨q, hq, hqtokens, hqstop⟩ := ih _ hlength hrtokens (hpassed.step hl) rfl
    have hlinks :
        before ++ l :: (l.taken links).links ++ l.untaken links = before ++ l :: links := by
      rw [List.append_assoc, List.cons_append, Link.taken, Link.untaken, links_upTo_append_beyond]
    rw [hlinks] at hq hqtokens
    exact ⟨q, .head hr hq, hqtokens, hqstop⟩

/-- Chains are read as the trees of their links, with any number of levels that is enough for
them. -/
theorem readsChains (levels : Nat) :
  ReadsChains levels
  := by
  induction levels with
  | zero =>
    intro strength c rest p hlevels
    rw [maxOperators] at hlevels
    omega
  | succ levels ih =>
    intro strength c rest p hlevels hp hrest
    obtain ⟨u, links⟩ := c
    have hoperators : u.operators.length ≤ levels := by
      have hlength := u.length_operators_le
      omega
    have htokens : p.descend.stream.tokens =
        u.operators ++ u.atom.token :: (links.flatMap Link.tokens ++ rest) := by
      apply hp.trans
      simp [Chain.tokens, Operand.tokens]
    have hunary : ∀ l ∈ links.head?, ¬ Precedence.unary < l.strength := by
      intro l _
      have hrank := l.rank_strength_le
      rw [Precedence.lt_iff_rank_lt, Nat.not_lt]
      apply hrank.trans (by decide)
    obtain ⟨r, hr, hrtokens⟩ := exists_yields_operators u.atom u.kind_operators hoperators htokens
      (not_lt_precedence_firstKind hunary hrest)
    obtain ⟨q, hq, hqtokens, hqstop⟩ :=
      ih.exists_extensions (by omega) hrtokens hrest (.nil strength links)
    rw [tree_nil] at hq
    exact ⟨q.ascend, yields_expressionWithin ⟨_, r, hr, hq⟩ hqstop, hqtokens⟩

/-- From the first token of a chain, at depth `0`, the parser reads the part of the chain before the
first operator that is not stronger than the given strength: it gives the tree of that part without
a report, and stops at the last token of it. -/
theorem expression_chain (c : Chain) (strength : Precedence) {rest : List Token} {p : Parser}
    (hdepth : p.depth = 0) (hp : p.stream.tokens = c.tokens ++ rest)
    (hrest : (firstKind rest).extendsExpr = false) :
  ∃ q, expression strength p = (some (c.upTo strength).tree, q) ∧
    q.diagnostics = p.diagnostics ∧ q.current = (c.upTo strength).last.atom.token ∧
    q.stream.tokens = q.current :: ((c.beyond strength).flatMap Link.tokens ++ rest)
  := by
  have hlevels : maxOperators + 1 + (Precedence.product.rank - strength.rank) ≤
      maxNesting - p.depth := by
    have hproduct : Precedence.product.rank = 5 := rfl
    have hone := strength.one_le_rank
    rw [maxOperators, maxNesting]
    omega
  obtain ⟨q, ⟨happly, hreported⟩, hq⟩ := readsChains _ strength c rest p hlevels hp hrest
  have hcurrent := Parser.current_of_tokens hq
  use q, happly
  rw [Parser.diagnostics, Parser.diagnostics, hreported, hcurrent]
  exact ⟨rfl, rfl, hq⟩

/-- The chain `-a + b * c < d`. -/
def comparison : Chain where
  first := ⟨[⟨.minus, "-", 0⟩], .name ⟨.identifier, "a", 1⟩ rfl, by simp, by decide⟩
  links := [⟨⟨.plus, "+", 3⟩, ⟨[], .name ⟨.identifier, "b", 5⟩ rfl, by simp, by decide⟩, rfl⟩,
    ⟨⟨.asterisk, "*", 7⟩, ⟨[], .name ⟨.identifier, "c", 9⟩ rfl, by simp, by decide⟩, rfl⟩,
    ⟨⟨.less, "<", 11⟩, ⟨[], .name ⟨.identifier, "d", 13⟩ rfl, by simp, by decide⟩, rfl⟩]

/-- Beyond the strength of comparisons, only `-a + b * c` is read. -/
theorem expression_chain_comparison :
  (firstKind [⟨.semicolon, ";", 14⟩]).extendsExpr = false ∧
  ∃ q, expression .lessGreater (.ofStream (.ofList (comparison.tokens ++ [⟨.semicolon, ";", 14⟩]))) =
      (some (.binary ⟨.plus, "+", 3⟩
        (.unary ⟨.minus, "-", 0⟩ "-" (.name ⟨⟨.identifier, "a", 1⟩, "a"⟩)) "+"
        (.binary ⟨.asterisk, "*", 7⟩ (.name ⟨⟨.identifier, "b", 5⟩, "b"⟩) "*"
          (.name ⟨⟨.identifier, "c", 9⟩, "c"⟩))), q) ∧
    q.diagnostics = [] ∧ q.current = ⟨.identifier, "c", 9⟩
  := by
  have htree : (comparison.upTo .lessGreater).tree = .binary ⟨.plus, "+", 3⟩
        (.unary ⟨.minus, "-", 0⟩ "-" (.name ⟨⟨.identifier, "a", 1⟩, "a"⟩)) "+"
        (.binary ⟨.asterisk, "*", 7⟩ (.name ⟨⟨.identifier, "b", 5⟩, "b"⟩) "*"
          (.name ⟨⟨.identifier, "c", 9⟩, "c"⟩)) := by
    cbv
  obtain ⟨q, hq, hdiagnostics, hcurrent, -⟩ := expression_chain comparison .lessGreater
    (p := .ofStream (.ofList (comparison.tokens ++ [⟨.semicolon, ";", 14⟩]))) rfl rfl rfl
  rw [htree] at hq
  exact ⟨rfl, q, hq, hdiagnostics, hcurrent⟩

end Parse

end MonkeySyntax
