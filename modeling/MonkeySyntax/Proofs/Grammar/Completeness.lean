import MonkeySyntax.Proofs.Grammar.Strength

/-!
# The parser reads what the grammar derives

Each construct of the grammar has a statement that says how the parser reads it: from a parser
at the tokens of the construct, with as many levels left as the construct is nested, the action
for the construct runs quietly, gives the tree, and passes exactly its tokens.  On the way the
parser gets as deep as the construct is nested, which its account shows, so the nesting of a
construct can be read off a run.

Every rule of the grammar has a lemma that joins the readings of the parts.  The theorem for
all of the grammar, by induction on derivations, has a case for each of them.
-/

namespace MonkeySyntax

namespace Parser

/-- A parser at a list of tokens, after which there is nothing but the end of the input. -/
structure At (p : Parser) (ts : List Token) : Prop where
  settled : p.stream.IsSettled
  unread : p.unread = ts
  depth_le : p.depth ≤ p.statistics.deepest

/-- The parser `q` is at the tokens `rest`, as deep as `p`, and has been `n` levels deeper on
the way. -/
structure Arrives (p : Parser) (n : Nat) (rest : List Token) (q : Parser) : Prop where
  settled : q.stream.IsSettled
  unread : q.unread = rest
  depth_eq : q.depth = p.depth
  deepest_eq : q.statistics.deepest = max p.statistics.deepest (p.depth + n)

variable {p q r : Parser} {t : Token} {ts ts' rest : List Token} {m n : Nat}

/-- The current token is the first of those that the parser is at. -/
theorem At.kind_current (h : p.At ts) :
  p.current.kind = firstKind ts
  := by
  rw [Parser.kind_current, h.unread]

/-- The current token is the first of those that the parser is at, if there are any. -/
theorem At.current_eq (h : p.At (t :: ts)) :
  p.current = t
  := current_of_unread h.unread

/-- A parser that goes on is at the tokens after the first. -/
theorem At.advance (h : p.At (t :: ts)) :
  p.advance.At ts
  where
  settled := h.settled.tail
  unread := by
    rw [unread_advance h.settled, h.unread]
    rfl
  depth_le := h.depth_le

/-- Nothing is left past the end. -/
theorem At.advance_nil (h : p.At []) :
  p.advance.At []
  where
  settled := h.settled.tail
  unread := by
    rw [unread_advance h.settled, h.unread]
    rfl
  depth_le := h.depth_le

/-- A parser one level deeper is at the same tokens. -/
theorem At.descend (h : p.At ts) :
  p.descend.At ts
  where
  settled := h.settled
  unread := h.unread
  depth_le := Nat.le_max_right _ _

/-- A parser that does nothing arrives where it is. -/
theorem At.arrives (h : p.At ts) :
  p.Arrives 0 ts p
  where
  settled := h.settled
  unread := h.unread
  depth_eq := rfl
  deepest_eq := (Nat.max_eq_left h.depth_le).symm

/-- Before a token other than the end of the input the stream has a token left. -/
theorem At.length_tokens_pos (h : p.At ts) (hts : firstKind ts ≠ .endOfInput) :
  0 < p.stream.tokens.length
  := by
  by_contra hpos
  have hnil := List.length_eq_zero_iff.mp (Nat.eq_zero_of_not_pos hpos)
  apply hts
  rw [← h.kind_current]
  apply kind_current_of_tokens hnil

/-- A parser that arrives at some tokens is at them. -/
theorem Arrives.at (h : p.Arrives n rest q) :
  q.At rest
  where
  settled := h.settled
  unread := h.unread
  depth_le := by
    rw [h.depth_eq, h.deepest_eq]
    omega

/-- Of two runs one after the other, the deeper one tells how deep the parser has been. -/
theorem Arrives.trans (h : p.Arrives m ts q) (h' : q.Arrives n rest r) :
  p.Arrives (max m n) rest r
  where
  settled := h'.settled
  unread := h'.unread
  depth_eq := h'.depth_eq.trans h.depth_eq
  deepest_eq := by
    rw [h'.deepest_eq, h.deepest_eq, h.depth_eq]
    omega

/-- Passing a token first makes no difference to the depth. -/
theorem Arrives.of_advance (h : p.advance.Arrives n rest q) :
  p.Arrives n rest q
  := ⟨h.settled, h.unread, h.depth_eq, h.deepest_eq⟩

/-- Counting a statement as kept moves no token. -/
theorem Arrives.countKept (h : p.Arrives n rest q.advance) :
  p.Arrives n rest q.countKept.advance
  := ⟨h.settled, h.unread, h.depth_eq, h.deepest_eq⟩

/-- One token further after the arrival. -/
theorem Arrives.advance (h : p.Arrives n (t :: rest) q) :
  p.Arrives n rest q.advance
  := ⟨h.at.advance.settled, h.at.advance.unread, h.depth_eq, h.deepest_eq⟩

/-- What arrives one level deeper counts for a level more. -/
theorem Arrives.ascend (h : p.descend.Arrives n rest q.advance) :
  p.Arrives (n + 1) rest q.ascend.advance
  where
  settled := h.settled
  unread := h.unread
  depth_eq := by
    have hdepth : q.depth = p.depth + 1 := h.depth_eq
    simp [Parser.advance, Parser.ascend, hdepth]
  deepest_eq := by
    have hdeepest : q.statistics.deepest =
        max (max p.statistics.deepest (p.depth + 1)) (p.depth + 1 + n) := h.deepest_eq
    simp only [Parser.advance, Parser.ascend, hdeepest]
    omega

end Parser

namespace Grammar

open Parse

/-- How the parser reads an expression of a tier, one level deeper than the expression
stands. -/
def ReadsExpr (tier : Tier) (ts : List Token) (e : Expr) (n : Nat) (rest : List Token) : Prop :=
  ∀ (levels : Nat) (strength : Precedence) (p : Parser), p.At ts → n ≤ levels + 1 →
    strength.tier.rank ≤ tier.rank → strength ≠ .call → tier.EndsBefore (firstKind rest) →
    ∃ q, Climbs (expressionWithin levels) strength p e q ∧ p.Arrives (n - 1) rest q.advance

/-- How the parser reads arguments, from their opening parenthesis on. -/
def ReadsArguments (ts : List Token) (es : List Expr) (n : Nat) (rest : List Token) : Prop :=
  ∀ (levels : Nat) (p : Parser), p.advance.At ts → n ≤ levels + 1 →
    ∃ q, (expressionList (expressionWithin levels) .rightParen).Yields p es q ∧
      p.Arrives (n - 1) rest q.advance

/-- How the parser reads arguments after other arguments. -/
def ReadsMoreArguments (ts : List Token) (es : List Expr) (n : Nat) (rest : List Token) : Prop :=
  ∀ (levels : Nat) (p : Parser) (ahead : List Token) (read : List Expr), p.advance.At ts →
    n ≤ levels + 1 → p.stream.tokens.length ≤ ahead.length →
    ∃ q, (expressionsAfter (expressionWithin levels) ahead read).Yields p (read.reverse ++ es) q ∧
      q.next.kind = .rightParen ∧ p.advance.Arrives (n - 1) rest q.advance.advance

/-- How the parser reads a statement. -/
def ReadsStmt (ts : List Token) (s : Stmt) (n : Nat) (rest : List Token) : Prop :=
  ∀ (levels : Nat) (p : Parser), p.At ts → n ≤ levels → firstKind rest ≠ .elseWord →
    ∃ q, (statement (expressionWithin levels)).Yields p s q ∧ p.Arrives n rest q.advance

/-- How the parser reads a statement with a semicolon at its end, whatever comes next. -/
def ReadsTerminated (ts : List Token) (s : Stmt) (n : Nat) (rest : List Token) : Prop :=
  ∀ (levels : Nat) (p : Parser), p.At ts → n ≤ levels →
    ∃ q, (statement (expressionWithin levels)).Yields p s q ∧ p.Arrives n rest q.advance

/-- How the parser reads statements up to a closing token, which starts no statement. -/
def ReadsStmts (ts : List Token) (ss : List Stmt) (n : Nat) (rest : List Token) : Prop :=
  ∀ (levels : Nat) (closes : Kind → Bool) (ahead : List Token) (read : List Stmt) (p : Parser),
    p.At ts → n ≤ levels → (∀ kind : Kind, kind.startsStmt = true → closes kind = false) →
    closes (firstKind rest) = true → firstKind rest ≠ .elseWord →
    p.stream.tokens.length ≤ ahead.length →
    ∃ q, statementsAfter (expressionWithin levels) closes ahead read p =
        (read.reverse ++ ss, q) ∧
      q.reported = p.reported ∧ p.Arrives n rest q

/-- How the parser reads a block. -/
def ReadsBlock (ts : List Token) (b : Block) (n : Nat) (rest : List Token) : Prop :=
  ∀ (levels : Nat) (p : Parser), p.At ts → n ≤ levels →
    ∃ q, (block (expressionWithin levels)).Yields p b q ∧ p.Arrives n rest q.advance

/-- How the parser reads the second block of a choice, from the end of the first one on. -/
def ReadsAlternative (ts : List Token) (b : Option Block) (n : Nat) (rest : List Token) : Prop :=
  ∀ (levels : Nat) (p : Parser), p.advance.At ts → n ≤ levels → firstKind rest ≠ .elseWord →
    ∃ q, (alternative (expressionWithin levels)).Yields p b q ∧
      p.advance.Arrives n rest q.advance

/-! ### Parameters -/

/-- The parser reads the names after a name, with as many rounds at hand as there are
tokens. -/
theorem IsMoreParameters.yields {ts rest : List Token} {ids : List Ident}
    (h : IsMoreParameters ts ids rest) {p : Parser} (hp : p.advance.At ts) {ahead : List Token}
    (hahead : p.stream.tokens.length ≤ ahead.length) (read : List Ident) :
  ∃ q, (parametersAfter ahead read).Yields p (read.reverse ++ ids) q ∧
    q.next.kind = .rightParen ∧ p.advance.Arrives 0 rest q.advance.advance
  := by
  induction h generalizing p ahead read with
  | close hparen =>
    have hnext : p.next.kind = .rightParen := hp.kind_current.trans hparen
    use p
    constructor
    · rw [yields_parametersAfter ahead read p hahead, if_neg (by simp [hnext]), List.append_nil]
      exact ⟨rfl, rfl⟩
    · exact ⟨hnext, hp.advance.arrives.of_advance⟩
  | @cons comma name ts rest ids hcomma hname hids ih =>
    have hnext : p.next.kind = .comma := hp.kind_current.trans hcomma
    have hname' : p.advance.next = name := hp.advance.current_eq
    have hlength : p.advance.advance.stream.tokens.length ≤ ahead.tail.length := by
      rw [Parser.length_tokens_advance, Parser.length_tokens_advance, List.length_tail]
      omega
    obtain ⟨q, hq, hclose, hpq⟩ := ih hp.advance.advance hlength (⟨name, name.text⟩ :: read)
    use q
    constructor
    · rw [yields_parametersAfter ahead read p hahead, if_pos hnext, hname']
      rw [List.reverse_cons, List.append_assoc] at hq
      exact ⟨hname, hq⟩
    · exact ⟨hclose, hpq.of_advance.of_advance⟩

/-- The parser reads the parameters that the grammar derives. -/
theorem IsParameters.yields {ts rest : List Token} {ids : List Ident}
    (h : IsParameters ts ids rest) {p : Parser} (hp : p.advance.At ts) :
  ∃ q, parameters.Yields p ids q ∧ p.advance.Arrives 0 rest q.advance
  := by
  cases h with
  | close hparen =>
    have hnext : p.next.kind = .rightParen := hp.kind_current.trans hparen
    use p.advance
    rw [yields_parameters, if_pos hnext]
    exact ⟨⟨rfl, rfl⟩, hp.advance.arrives.of_advance⟩
  | @cons name ts rest ids hname hids =>
    have hnext : p.next = name := hp.current_eq
    obtain ⟨q, hq, hclose, hpq⟩ := hids.yields hp.advance le_rfl [⟨name, name.text⟩]
    use q.advance
    rw [yields_parameters, if_neg (by simp [hnext, hname]), hnext]
    exact ⟨⟨hname, q, hq, hclose, rfl⟩, hpq.of_advance⟩

/-! ### Expressions -/

section

variable {tier : Tier} {ts ts' ts'' rest : List Token} {e : Expr} {l m n : Nat}
variable {strength : Precedence} {p : Parser}

/-- An expression read with the levels for it stands in the scope of a parser of expressions,
before a token that does not bind more strongly than asked for. -/
theorem ReadsExpr.yields (h : ReadsExpr strength.tier ts e n rest) (levels : Nat) (hp : p.At ts)
    (hpos : 0 < n) (hn : n ≤ levels) (hcall : strength ≠ .call)
    (hstop : ¬ strength < (firstKind rest).precedence) (helse : firstKind rest ≠ .elseWord) :
  ∃ q, (expressionWithin levels strength).Yields p e q ∧ p.Arrives n rest q.advance
  := by
  obtain ⟨levels, rfl⟩ : ∃ k, levels = k + 1 := ⟨levels - 1, by omega⟩
  have hends : strength.tier.EndsBefore (firstKind rest) := by
    rw [Precedence.lt_iff_rank_lt, Nat.not_lt] at hstop
    exact ⟨hstop.trans (Precedence.rank_le_rank_tier hcall), helse⟩
  obtain ⟨q, hclimbs, harrives⟩ := h levels strength p.descend hp.descend hn le_rfl hcall hends
  have hnext : q.next.kind = firstKind rest := harrives.at.kind_current
  have hyields := yields_expressionWithin hclimbs (by rwa [hnext])
  have hlevel := harrives.ascend
  rw [Nat.sub_add_cancel hpos] at hlevel
  exact ⟨q.ascend, hyields, hlevel⟩

/-- An expression before a token that extends none. -/
theorem ReadsExpr.yields_lowest (h : ReadsExpr .equality ts e n rest) (levels : Nat)
    (hp : p.At ts) (hpos : 0 < n) (hn : n ≤ levels)
    (hextends : (firstKind rest).extendsExpr = false)
    (helse : firstKind rest ≠ .elseWord) :
  ∃ q, (expressionWithin levels .lowest).Yields p e q ∧ p.Arrives n rest q.advance
  := by
  have hlowest : ReadsExpr Precedence.lowest.tier ts e n rest := h
  have hstop := Kind.not_lt_precedence_of_extendsExpr hextends .lowest
  apply hlowest.yields levels hp hpos hn (by decide) hstop helse

/-- An expression of the next tier is read as one of the tier. -/
theorem ReadsExpr.tighter (h : ReadsExpr tier.tighter ts e n rest) :
  ReadsExpr tier ts e n rest
  := by
  intro levels strength p hp hn hstrength hcall hends
  apply h levels strength p hp hn (hstrength.trans tier.rank_le_rank_tighter) hcall hends.tighter

/-- An operand makes up an expression of any strength. -/
theorem ReadsExpr.of_operand
    (h : ∀ (levels : Nat) (p : Parser), p.At ts → n ≤ levels + 1 →
      tier.EndsBefore (firstKind rest) →
      ∃ q, (operand (expressionWithin levels)).Yields p e q ∧ p.Arrives (n - 1) rest q.advance) :
  ReadsExpr tier ts e n rest
  := by
  intro levels strength p hp hn _ _ hends
  obtain ⟨q, hyields, harrives⟩ := h levels p hp hn hends
  exact ⟨q, ⟨e, q, hyields, .refl⟩, harrives⟩

/-- An operand that is a token by itself. -/
theorem ReadsExpr.of_token {t : Token}
    (h : ∀ (inner : Inner) (p : Parser), p.current = t → (operand inner).Yields p e p) :
  ReadsExpr tier (t :: rest) e 1 rest
  := by
  apply ReadsExpr.of_operand
  intro levels p hp _ _
  exact ⟨p, h _ p hp.current_eq, hp.advance.arrives.of_advance⟩

/-- A binary expression is read as its left operand and one extension of it.  The left operand ends
before the operator, which binds more strongly than asked for, and the right operand ends where the
whole expression does. -/
theorem ReadsExpr.binary {op : Token} {left right : Expr} (hm : 0 < m) (hn : 0 < n)
    (hleft : ReadsExpr tier ts left m (op :: ts')) (hop : tier.joins op.kind = true)
    (hright : ReadsExpr tier.tighter ts' right n rest) :
  ReadsExpr tier ts (.binary op left op.text right) (max m (n + 1)) rest
  := by
  intro levels strength p hp hlevels hstrength hcall hends
  have hrank := Tier.rank_precedence_of_joins hop
  have hendsLeft : tier.EndsBefore op.kind := by
    constructor
    · rw [hrank]
    · rintro helse
      cases tier <;> rw [helse] at hop <;> cases hop
  obtain ⟨q, hq, hpq⟩ := hleft levels strength p hp (by omega) hstrength hcall hendsLeft
  have hcurrent : q.advance.current = op := hpq.at.current_eq
  have hlt := Precedence.rank_lt_of_rank_tier_le hstrength hop
  rw [← Tier.tier_precedence_of_joins hop] at hright
  have hstop : ¬ op.kind.precedence < (firstKind rest).precedence := by
    rw [Precedence.lt_iff_rank_lt, hrank, Nat.not_lt]
    apply hends.1
  have hcall' : op.kind.precedence ≠ .call := by
    intro h
    have hproduct := Tier.rank_le_of_joins hop
    rw [← hrank, h] at hproduct
    apply absurd hproduct (by decide)
  obtain ⟨r, hr, hqr⟩ := hright.yields levels hpq.at.advance hn (by omega) hcall' hstop
    hends.2
  use r
  constructor
  · apply hq.extend
    · rw [← Parser.current_advance, hcurrent]
      apply hlt
    · rw [yields_extension, hcurrent, if_neg (Tier.ne_leftParen_of_joins hop), yields_binary,
        hcurrent]
      exact ⟨right, hr, rfl⟩
  · have harrives := hpq.advance.trans hqr
    rwa [show max (m - 1) n = max m (n + 1) - 1 by omega] at harrives

/-- A call is read as the function and one extension of it by the arguments. -/
theorem ReadsExpr.call {paren : Token} {function : Expr} {arguments : List Expr} (hm : 0 < m)
    (hfunction : ReadsExpr .call ts function m (paren :: ts')) (hparen : paren.kind = .leftParen)
    (harguments : ReadsArguments ts' arguments n rest) :
  ReadsExpr .call ts (.call paren function arguments) (max m n) rest
  := by
  intro levels strength p hp hlevels hstrength hcall _
  have hends : Tier.call.EndsBefore paren.kind := by
    rw [hparen]
    exact ⟨le_rfl, by decide⟩
  obtain ⟨q, hq, hpq⟩ := hfunction levels strength p hp (by omega) hstrength hcall hends
  have hcurrent : q.advance.current = paren := hpq.at.current_eq
  have hlt : strength < paren.kind.precedence := by
    rw [hparen]
    cases strength <;> first | decide | cases hcall rfl
  obtain ⟨r, hr, hqr⟩ := harguments levels q.advance hpq.at.advance (by omega)
  use r
  constructor
  · apply hq.extend
    · rw [← Parser.current_advance, hcurrent]
      apply hlt
    · rw [yields_extension, hcurrent, if_pos hparen, yields_call, hcurrent]
      exact ⟨arguments, hr, rfl⟩
  · have harrives := hpq.trans hqr
    rwa [show max (m - 1) (n - 1) = max m n - 1 by omega] at harrives

/-- A prefix operator is read as an operand, with its own operand one level deeper. -/
theorem ReadsExpr.unary {op : Token} (hop : op.kind = .bang ∨ op.kind = .minus) (hn : 0 < n)
    (hright : ReadsExpr .unary ts e n rest) :
  ReadsExpr .unary (op :: ts) (.unary op op.text e) (n + 1) rest
  := by
  apply ReadsExpr.of_operand
  intro levels p hp hlevels hends
  have hstop : ¬ Precedence.unary < (firstKind rest).precedence := Nat.not_lt.mpr hends.1
  have hunary : ReadsExpr Precedence.unary.tier ts e n rest := hright
  obtain ⟨q, hq, hpq⟩ :=
    hunary.yields levels hp.advance hn (by omega) (by decide) hstop hends.2
  use q
  constructor
  · have hrun : (Parse.unary (expressionWithin levels)).Yields p (.unary op op.text e) q := by
      rw [yields_unary, hp.current_eq]
      exact ⟨e, hq, rfl⟩
    rw [yields_operand, hp.current_eq]
    rcases hop with hkind | hkind
    · rw [hkind]
      apply hrun
    · rw [hkind]
      apply hrun
  · apply hpq.of_advance

/-- An expression in parentheses is read one level deeper. -/
theorem ReadsExpr.group {paren close : Token} (hparen : paren.kind = .leftParen) (hn : 0 < n)
    (he : ReadsExpr .equality ts e n (close :: rest)) (hclose : close.kind = .rightParen) :
  ReadsExpr .primary (paren :: ts) e (n + 1) rest
  := by
  apply ReadsExpr.of_operand
  intro levels p hp hlevels _
  obtain ⟨q, hq, hpq⟩ := he.yields_lowest levels hp.advance hn (by omega)
    (by simp [hclose, Kind.extendsExpr]) (by simp [hclose])
  have hnext : q.next.kind = .rightParen := hpq.at.kind_current.trans hclose
  use q.advance
  constructor
  · rw [yields_operand, hp.current_eq, hparen]
    apply (yields_group p e q.advance).mpr ⟨q, hq, hnext, rfl⟩
  · apply hpq.advance.of_advance

/-- A choice is read one level deeper than its condition and its blocks. -/
theorem ReadsExpr.conditional {word paren close : Token} {consequence : Block}
    {alternative : Option Block} (hword : word.kind = .ifWord) (hparen : paren.kind = .leftParen)
    (hl : 0 < l) (hcondition : ReadsExpr .equality ts e l (close :: ts'))
    (hclose : close.kind = .rightParen) (hbrace : firstKind ts' = .leftBrace)
    (hconsequence : ReadsBlock ts' consequence m ts'')
    (halternative : ReadsAlternative ts'' alternative n rest) :
  ReadsExpr .primary (word :: paren :: ts) (.conditional word e consequence alternative)
    (max l (max m n) + 1) rest
  := by
  apply ReadsExpr.of_operand
  intro levels p hp hlevels hends
  have hnext : p.next.kind = .leftParen := hp.advance.kind_current.trans hparen
  obtain ⟨q, hq, hpq⟩ := hcondition.yields_lowest levels hp.advance.advance hl
    (by omega) (by simp [hclose, Kind.extendsExpr]) (by simp [hclose])
  have hnext' : q.next.kind = .rightParen := hpq.at.kind_current.trans hclose
  have hbrace' : q.advance.next.kind = .leftBrace := hpq.at.advance.kind_current.trans hbrace
  obtain ⟨q', hq', hqq'⟩ := hconsequence levels q.advance.advance hpq.at.advance (by omega)
  obtain ⟨r, hr, hqr⟩ := halternative levels q' hqq'.at (by omega) hends.2
  use r
  constructor
  · rw [yields_operand, hp.current_eq, hword]
    apply (yields_conditional p _ r).mpr
    rw [hp.current_eq]
    exact ⟨hnext, e, q, hq, hnext', hbrace', consequence, q', hq', alternative, hr, rfl⟩
  · have harrives := hpq.advance.trans (hqq'.trans hqr)
    apply harrives.of_advance.of_advance

/-- A function is read one level deeper than its body. -/
theorem ReadsExpr.function {word paren : Token} {ids : List Ident} {body : Block}
    (hword : word.kind = .functionWord) (hparen : paren.kind = .leftParen)
    (hids : IsParameters ts ids ts') (hbrace : firstKind ts' = .leftBrace)
    (hbody : ReadsBlock ts' body n rest) :
  ReadsExpr .primary (word :: paren :: ts) (.function word ids body) (n + 1) rest
  := by
  apply ReadsExpr.of_operand
  intro levels p hp hlevels _
  have hnext : p.next.kind = .leftParen := hp.advance.kind_current.trans hparen
  obtain ⟨q, hq, hpq⟩ := hids.yields hp.advance.advance
  have hbrace' : q.next.kind = .leftBrace := hpq.at.kind_current.trans hbrace
  obtain ⟨r, hr, hqr⟩ := hbody levels q.advance hpq.at (by omega)
  use r
  constructor
  · rw [yields_operand, hp.current_eq, hword]
    apply (yields_function p _ r).mpr
    rw [hp.current_eq]
    exact ⟨hnext, ids, q, hq, hbrace', body, hr, rfl⟩
  · have harrives := hpq.trans hqr
    rw [Nat.zero_max] at harrives
    apply harrives.of_advance.of_advance

end

/-! ### Arguments -/

section

variable {ts ts' rest : List Token} {e : Expr} {es : List Expr} {m n : Nat}

/-- A closing parenthesis ends the arguments. -/
theorem readsMoreArguments_close {paren : Token} (hparen : paren.kind = .rightParen) :
  ReadsMoreArguments (paren :: rest) [] 0 rest
  := by
  intro levels p ahead read hp _ hahead
  have hnext : p.next.kind = .rightParen := hp.kind_current.trans hparen
  use p
  constructor
  · rw [yields_expressionsAfter ahead read p hahead, if_neg (by simp [hnext]), List.append_nil]
    exact ⟨rfl, rfl⟩
  · exact ⟨hnext, hp.advance.arrives.of_advance⟩

/-- A comma and an argument before further arguments. -/
theorem ReadsMoreArguments.cons {comma : Token} (hcomma : comma.kind = .comma) (hm : 0 < m)
    (hfirst : (firstKind ts').extendsExpr = false ∧ firstKind ts' ≠ .elseWord)
    (he : ReadsExpr .equality ts e m ts') (hes : ReadsMoreArguments ts' es n rest) :
  ReadsMoreArguments (comma :: ts) (e :: es) (max (m + 1) n) rest
  := by
  intro levels p ahead read hp hlevels hahead
  have hnext : p.next.kind = .comma := hp.kind_current.trans hcomma
  obtain ⟨q, hq, hpq⟩ := he.yields_lowest levels hp.advance hm (by omega) hfirst.1
    hfirst.2
  have hlength : q.stream.tokens.length ≤ ahead.tail.length := by
    have hle := hq.reaches.length_tokens_le
    rw [Parser.length_tokens_advance, Parser.length_tokens_advance] at hle
    rw [List.length_tail]
    omega
  obtain ⟨r, hr, hclose, hqr⟩ := hes levels q ahead.tail (e :: read) hpq.at (by omega) hlength
  use r
  constructor
  · rw [yields_expressionsAfter ahead read p hahead, if_pos hnext]
    rw [List.reverse_cons, List.append_assoc] at hr
    exact ⟨e, q, hq, hr⟩
  · have harrives := hpq.trans hqr
    rw [show max m (n - 1) = max (m + 1) n - 1 by omega] at harrives
    exact ⟨hclose, harrives.of_advance⟩

/-- There are no arguments before a closing parenthesis. -/
theorem readsArguments_close {paren : Token} (hparen : paren.kind = .rightParen) :
  ReadsArguments (paren :: rest) [] 0 rest
  := by
  intro levels p hp _
  have hnext : p.next.kind = .rightParen := hp.kind_current.trans hparen
  use p.advance
  rw [yields_expressionList, if_pos hnext]
  exact ⟨⟨rfl, rfl⟩, hp.advance.arrives.of_advance.of_advance⟩

/-- A first argument before further arguments. -/
theorem ReadsArguments.cons (hm : 0 < m) (hparen : firstKind ts ≠ .rightParen)
    (hfirst : (firstKind ts').extendsExpr = false ∧ firstKind ts' ≠ .elseWord)
    (he : ReadsExpr .equality ts e m ts') (hes : ReadsMoreArguments ts' es n rest) :
  ReadsArguments ts (e :: es) (max (m + 1) n) rest
  := by
  intro levels p hp hlevels
  have hnext : p.next.kind = firstKind ts := hp.kind_current
  obtain ⟨q, hq, hpq⟩ := he.yields_lowest levels hp hm (by omega) hfirst.1 hfirst.2
  obtain ⟨r, hr, hclose, hqr⟩ :=
    hes levels q q.stream.tokens [e] hpq.at (by omega) le_rfl
  use r.advance
  constructor
  · rw [yields_expressionList, if_neg (by rwa [hnext])]
    exact ⟨e, q, hq, r, hr, hclose, rfl⟩
  · have harrives := hpq.trans hqr
    rw [show max m (n - 1) = max (m + 1) n - 1 by omega] at harrives
    apply harrives.of_advance

end

/-! ### Statements -/

section

variable {ts ts' rest : List Token} {e : Expr} {s : Stmt} {ss : List Stmt} {m n : Nat}

/-- A statement that is read whatever comes next is read before what may come. -/
theorem ReadsTerminated.readsStmt (h : ReadsTerminated ts s n rest) :
  ReadsStmt ts s n rest
  := fun levels p hp hn _ => h levels p hp hn

/-- A `let` statement is read up to its semicolon. -/
theorem readsTerminated_binding {word name assign semicolon : Token} (hword : word.kind = .letWord)
    (hname : name.kind = .identifier) (hassign : assign.kind = .assign) (hn : 0 < n)
    (hvalue : ReadsExpr .equality ts e n (semicolon :: rest))
    (hsemicolon : semicolon.kind = .semicolon) :
  ReadsTerminated (word :: name :: assign :: ts) (.binding word ⟨name, name.text⟩ e) n rest
  := by
  intro levels p hp hlevels
  have hnext : p.next = name := hp.advance.current_eq
  have hnext' : p.advance.next = assign := hp.advance.advance.current_eq
  obtain ⟨q, hq, hpq⟩ := hvalue.yields_lowest levels hp.advance.advance.advance hn
    hlevels (by simp [hsemicolon, Kind.extendsExpr]) (by simp [hsemicolon])
  have hclose : q.next.kind = .semicolon := hpq.at.kind_current.trans hsemicolon
  use q.advance.countKept
  constructor
  · rw [yields_statement, hp.current_eq]
    use q.advance, rfl
    rw [if_pos hword, yields_letStatement, hp.current_eq, hnext, hnext']
    exact ⟨hname, hassign, e, q, hq, hclose, rfl, rfl⟩
  · apply hpq.advance.of_advance.of_advance.of_advance.countKept

/-- A `return` statement without a value is read up to its semicolon. -/
theorem readsTerminated_returning {word semicolon : Token} (hword : word.kind = .returnWord)
    (hsemicolon : semicolon.kind = .semicolon) :
  ReadsTerminated (word :: semicolon :: rest) (.returning word none) 0 rest
  := by
  intro levels p hp _
  have hnext : p.next.kind = .semicolon := hp.advance.kind_current.trans hsemicolon
  use p.advance.countKept
  constructor
  · rw [yields_statement, hp.current_eq]
    use p.advance, rfl
    rw [if_neg (by simp [hword]), if_pos hword, yields_returnStatement, hp.current_eq, if_pos hnext]
    exact ⟨rfl, rfl⟩
  · apply hp.advance.advance.arrives.of_advance.of_advance.countKept

/-- A `return` statement with a value is read up to its semicolon. -/
theorem readsTerminated_returningValue {word semicolon : Token} (hword : word.kind = .returnWord)
    (hn : 0 < n) (hts : firstKind ts ≠ .semicolon)
    (hvalue : ReadsExpr .equality ts e n (semicolon :: rest))
    (hsemicolon : semicolon.kind = .semicolon) :
  ReadsTerminated (word :: ts) (.returning word (some e)) n rest
  := by
  intro levels p hp hlevels
  have hnext : p.next.kind = firstKind ts := hp.advance.kind_current
  obtain ⟨q, hq, hpq⟩ := hvalue.yields_lowest levels hp.advance hn
    hlevels (by simp [hsemicolon, Kind.extendsExpr]) (by simp [hsemicolon])
  have hclose : q.next.kind = .semicolon := hpq.at.kind_current.trans hsemicolon
  use q.advance.countKept
  constructor
  · rw [yields_statement, hp.current_eq]
    use q.advance, rfl
    rw [if_neg (by simp [hword]), if_pos hword, yields_returnStatement, hp.current_eq,
      if_neg (by rwa [hnext])]
    exact ⟨e, q, hq, hclose, rfl, rfl⟩
  · apply hpq.advance.of_advance.countKept

/-- An expression as a statement, whose semicolon, if it has one, comes next. -/
theorem exists_yields_statement {first : Token} {ts' : List Token} {levels : Nat} {p : Parser}
    (hfirst : first.kind.startsExpr = true) (hn : 0 < n) (hlevels : n ≤ levels)
    (hvalue : ReadsExpr .equality (first :: ts) e n ts') (hp : p.At (first :: ts))
    (hextends : (firstKind ts').extendsExpr = false) (helse : firstKind ts' ≠ .elseWord) :
  ∃ q : Parser, (statement (expressionWithin levels)).Yields p (.expression first e)
      (if q.next.kind = .semicolon then q.advance else q).countKept ∧
    p.Arrives n ts' q.advance
  := by
  obtain ⟨q, hq, hpq⟩ := hvalue.yields_lowest levels hp hn hlevels hextends helse
  use q
  constructor
  · rw [yields_statement, hp.current_eq]
    use if q.next.kind = .semicolon then q.advance else q, rfl
    rw [if_neg (by rintro h; simp [h, Kind.startsExpr] at hfirst),
      if_neg (by rintro h; simp [h, Kind.startsExpr] at hfirst), yields_expressionStatement,
      hp.current_eq]
    exact ⟨e, q, hq, rfl, rfl⟩
  · apply hpq

/-- An expression with a semicolon after it is read as a statement. -/
theorem readsTerminated_expression {first semicolon : Token} (hfirst : first.kind.startsExpr = true)
    (hn : 0 < n) (hvalue : ReadsExpr .equality (first :: ts) e n (semicolon :: rest))
    (hsemicolon : semicolon.kind = .semicolon) :
  ReadsTerminated (first :: ts) (.expression first e) n rest
  := by
  intro levels p hp hlevels
  obtain ⟨q, hq, hpq⟩ := exists_yields_statement hfirst hn hlevels hvalue hp
    (by simp [hsemicolon, Kind.extendsExpr]) (by simp [hsemicolon])
  have hnext : q.next.kind = .semicolon := hpq.at.kind_current.trans hsemicolon
  rw [if_pos hnext] at hq
  exact ⟨q.advance.countKept, hq, hpq.advance.countKept⟩

/-- An expression without a semicolon is read as a statement, before a token that does not extend
it. -/
theorem readsStmt_expression {first : Token} (hfirst : first.kind.startsExpr = true)
    (hn : 0 < n) (hvalue : ReadsExpr .equality (first :: ts) e n rest)
    (hsemicolon : firstKind rest ≠ .semicolon)
    (hextends : (firstKind rest).extendsExpr = false) :
  ReadsStmt (first :: ts) (.expression first e) n rest
  := by
  intro levels p hp hlevels helse
  obtain ⟨q, hq, hpq⟩ := exists_yields_statement hfirst hn hlevels hvalue hp hextends helse
  have hnext : q.next.kind = firstKind rest := hpq.at.kind_current
  rw [if_neg (by rwa [hnext])] at hq
  exact ⟨q.countKept, hq, hpq.countKept⟩

/-- An empty list of statements is read before a token that closes it. -/
theorem readsStmts_nil :
  ReadsStmts ts [] 0 ts
  := by
  intro levels closes ahead read p hp _ _ hcloses _ _
  have hstop :
      statementsAfter (expressionWithin levels) closes ahead read p = (read.reverse, p) := by
    cases ahead with
    | nil => rfl
    | cons t ahead => rw [statementsAfter, hp.kind_current, if_pos hcloses]
  rw [hstop, List.append_nil]
  exact ⟨p, rfl, rfl, hp.arrives⟩

/-- Statements are read with one before them, by a round of the loop.  The loop has a round left for
it, since a statement has a token. -/
theorem ReadsStmts.cons (hts : (firstKind ts).startsStmt = true)
    (hts' : firstKind ts' = firstKind rest ∨ (firstKind ts').startsStmt = true)
    (hs : ReadsStmt ts s m ts') (hss : ReadsStmts ts' ss n rest) :
  ReadsStmts ts (s :: ss) (max m n) rest
  := by
  intro levels closes ahead read p hp hlevels hstarts hcloses helse hahead
  have helse' : firstKind ts' ≠ .elseWord := by
    rcases hts' with heq | hstart
    · rwa [heq]
    · rintro h
      simp [h, Kind.startsStmt, Kind.startsExpr] at hstart
  obtain ⟨q, hq, hpq⟩ := hs levels p hp (by omega) helse'
  have hpos := hp.length_tokens_pos (by rintro h; simp [h, Kind.startsStmt, Kind.startsExpr] at hts)
  have hle := hq.reaches.length_tokens_le
  obtain ⟨t, ahead, rfl⟩ := List.exists_cons_of_length_pos (Nat.lt_of_lt_of_le hpos hahead)
  rw [List.length_cons] at hahead
  obtain ⟨r, hr, hreported, hqr⟩ := hss levels closes ahead (s :: read) q.advance hpq.at (by omega)
    hstarts hcloses helse (by rw [Parser.length_tokens_advance]; omega)
  use r
  rw [statementsAfter, hp.kind_current, hstarts _ hts, hq.1]
  rw [List.reverse_cons, List.append_assoc] at hr
  exact ⟨hr, hreported.trans hq.2, hpq.trans hqr⟩

/-- A token that starts a statement does not end a block. -/
theorem closesBlock_of_startsStmt (kind : Kind) (h : kind.startsStmt = true) :
  closesBlock kind = false
  := by
  cases kind <;> first | rfl | cases h

/-- A block, of which the statements end where the block is closed. -/
theorem exists_yields_block {brace : Token} {levels : Nat} {p : Parser}
    (hss : ReadsStmts ts ss n rest) (hp : p.At (brace :: ts)) (hlevels : n ≤ levels)
    (hcloses : closesBlock (firstKind rest) = true) :
  ∃ q, (block (expressionWithin levels)).Yields p (.mk brace ss) q ∧ p.Arrives n rest q
  := by
  have helse : firstKind rest ≠ .elseWord := by
    rintro h
    simp [h, closesBlock] at hcloses
  obtain ⟨q, hq, hreported, hpq⟩ := hss levels closesBlock p.advance.stream.tokens [] p.advance
    hp.advance hlevels closesBlock_of_startsStmt hcloses helse le_rfl
  use q
  constructor
  · constructor
    · rw [block, statements, hq, hp.current_eq]
      rfl
    · apply hreported
  · apply hpq.of_advance

/-- A block is read up to its closing brace. -/
theorem readsBlock_closed {brace close : Token} (hss : ReadsStmts ts ss n (close :: rest))
    (hclose : close.kind = .rightBrace) :
  ReadsBlock (brace :: ts) (.mk brace ss) n rest
  := by
  intro levels p hp hlevels
  obtain ⟨q, hq, hpq⟩ := exists_yields_block hss hp hlevels (by simp [hclose, closesBlock])
  exact ⟨q, hq, hpq.advance⟩

/-- A block without a closing brace is read up to the end of the input. -/
theorem readsBlock_unclosed {brace : Token} (hss : ReadsStmts ts ss n []) :
  ReadsBlock (brace :: ts) (.mk brace ss) n []
  := by
  intro levels p hp hlevels
  obtain ⟨q, hq, hpq⟩ := exists_yields_block hss hp hlevels rfl
  have hend := hpq.at.advance_nil
  exact ⟨q, hq, hend.settled, hend.unread, hpq.depth_eq, hpq.deepest_eq⟩

/-- Where no `else` comes there is no second block to be read. -/
theorem readsAlternative_missing :
  ReadsAlternative ts none 0 ts
  := by
  intro levels p hp _ helse
  have hnext : p.next.kind = firstKind ts := hp.kind_current
  use p
  rw [yields_alternative, if_neg (by rwa [hnext])]
  exact ⟨⟨rfl, rfl⟩, hp.arrives⟩

/-- A block after `else` is read as the second block of a choice. -/
theorem ReadsBlock.alternative {word : Token} {b : Block} (hword : word.kind = .elseWord)
    (hts : firstKind ts = .leftBrace) (hb : ReadsBlock ts b n rest) :
  ReadsAlternative (word :: ts) (some b) n rest
  := by
  intro levels p hp hlevels _
  have hnext : p.next.kind = .elseWord := hp.kind_current.trans hword
  have hnext' : p.advance.next.kind = .leftBrace := hp.advance.kind_current.trans hts
  obtain ⟨q, hq, hpq⟩ := hb levels p.advance.advance hp.advance hlevels
  use q
  rw [yields_alternative, if_pos hnext]
  exact ⟨⟨hnext', b, hq, rfl⟩, hpq.of_advance⟩

end

/-! ### The whole grammar -/

/-- What comes after an argument is neither an extension of it nor an `else`. -/
theorem IsMoreArguments.ends {ts rest : List Token} {es : List Expr} {n : Nat}
    (h : IsMoreArguments ts es n rest) :
  (firstKind ts).extendsExpr = false ∧ firstKind ts ≠ .elseWord
  := by
  rcases h.firstKind_eq_or with hfirst | hfirst
  · simp [hfirst, Kind.extendsExpr]
  · simp [hfirst, Kind.extendsExpr]

/-- An expression does not start with a token of a kind with which none starts. -/
theorem IsExpr.firstKind_ne {tier : Tier} {ts rest : List Token} {e : Expr} {n : Nat}
    (h : IsExpr tier ts e n rest) {kind : Kind} (hkind : kind.startsExpr = false) :
  firstKind ts ≠ kind
  := by
  rintro rfl
  simp [h.firstKind_startsExpr] at hkind

mutual

/-- The parser reads every expression of the grammar. -/
theorem IsExpr.reads {tier : Tier} {ts rest : List Token} {e : Expr} {n : Nat} :
    IsExpr tier ts e n rest → ReadsExpr tier ts e n rest
  | .tighter h => h.reads.tighter
  | .binary hleft hop hright =>
    .binary hleft.nesting_pos hright.nesting_pos hleft.reads hop hright.reads
  | .unary hop hright => .unary hop hright.nesting_pos hright.reads
  | .call hfunction hparen harguments =>
    .call hfunction.nesting_pos hfunction.reads hparen harguments.reads
  | .name ht => by
    apply ReadsExpr.of_token
    rintro inner p rfl
    rw [yields_operand, ht]
    exact ⟨rfl, rfl⟩
  | .integer ht hvalue => by
    apply ReadsExpr.of_token
    rintro inner p rfl
    rw [yields_operand, ht]
    apply (yields_integer p _ p).mpr ⟨_, hvalue, rfl, rfl⟩
  | .boolean ht => by
    apply ReadsExpr.of_token
    rintro inner p rfl
    rw [yields_operand]
    rcases ht with hkind | hkind
    · rw [hkind]
      exact ⟨by simp [Parser.currentIs, hkind], rfl⟩
    · rw [hkind]
      exact ⟨by simp [Parser.currentIs, hkind], rfl⟩
  | .group hparen he hclose => .group hparen he.nesting_pos he.reads hclose
  | .conditional hword hparen hcondition hclose hconsequence halternative =>
    .conditional hword hparen hcondition.nesting_pos hcondition.reads hclose
      hconsequence.firstKind_eq hconsequence.reads halternative.reads
  | .function hword hparen hids hbody =>
    .function hword hparen hids hbody.firstKind_eq hbody.reads

/-- The parser reads every list of arguments of the grammar. -/
theorem IsArguments.reads {ts rest : List Token} {es : List Expr} {n : Nat} :
    IsArguments ts es n rest → ReadsArguments ts es n rest
  | .close hparen => readsArguments_close hparen
  | .cons he hes => .cons he.nesting_pos (he.firstKind_ne rfl) hes.ends he.reads hes.reads

/-- The parser reads every further list of arguments of the grammar. -/
theorem IsMoreArguments.reads {ts rest : List Token} {es : List Expr} {n : Nat} :
    IsMoreArguments ts es n rest → ReadsMoreArguments ts es n rest
  | .close hparen => readsMoreArguments_close hparen
  | .cons hcomma he hes => .cons hcomma he.nesting_pos hes.ends he.reads hes.reads

/-- The parser reads every statement of the grammar. -/
theorem IsStmt.reads {ts rest : List Token} {s : Stmt} {n : Nat} :
    IsStmt ts s n rest → ReadsStmt ts s n rest
  | .binding hword hname hassign hvalue hsemicolon =>
    (readsTerminated_binding hword hname hassign hvalue.nesting_pos hvalue.reads
      hsemicolon).readsStmt
  | .returning hword hsemicolon => (readsTerminated_returning hword hsemicolon).readsStmt
  | .returningValue hword hvalue hsemicolon =>
    (readsTerminated_returningValue hword hvalue.nesting_pos (hvalue.firstKind_ne rfl)
      hvalue.reads hsemicolon).readsStmt
  | .terminated hvalue hsemicolon =>
    (readsTerminated_expression hvalue.firstKind_startsExpr hvalue.nesting_pos hvalue.reads
      hsemicolon).readsStmt
  | .expression hvalue hsemicolon hextends =>
    readsStmt_expression hvalue.firstKind_startsExpr hvalue.nesting_pos hvalue.reads hsemicolon
      hextends

/-- The parser reads all statements of the grammar. -/
theorem IsStmts.reads {ts rest : List Token} {ss : List Stmt} {n : Nat} :
    IsStmts ts ss n rest → ReadsStmts ts ss n rest
  | .nil => readsStmts_nil
  | .cons hs hss => .cons hs.firstKind_startsStmt hss.firstKind_eq_or hs.reads hss.reads

/-- The parser reads every block of the grammar. -/
theorem IsBlock.reads {ts rest : List Token} {b : Block} {n : Nat} :
    IsBlock ts b n rest → ReadsBlock ts b n rest
  | .closed _ hss hclose => readsBlock_closed hss.reads hclose
  | .unclosed _ hss => readsBlock_unclosed hss.reads

/-- The parser reads every second block of the grammar. -/
theorem IsAlternative.reads {ts rest : List Token} {b : Option Block} {n : Nat} :
    IsAlternative ts b n rest → ReadsAlternative ts b n rest
  | .missing => readsAlternative_missing
  | .present hword hb => hb.reads.alternative hword hb.firstKind_eq

end

end Grammar

end MonkeySyntax
