import MonkeySyntax.Proofs.Grammar.Strength

/-!
# The grammar derives what the parser reads

A quiet run of an action of the parser has a derivation in the grammar: the tokens that it
passes are those of the tree that it gives.  This is shown for each action, with any parser of
the expressions within for which it holds, and then for the parser of expressions by induction
on the levels that are left to it.

An expression that is being extended has the tier of its last extension, and the next token
does not bind more strongly than the operators of that tier.  This is what lets the expression
be the left operand of the next extension.
-/

namespace MonkeySyntax

open Grammar

namespace Parse

/-- A stream that has settled down stays so in a quiet run. -/
theorem Yields.isSettled {α : Type} {x : Parse α} [x.Orderly] {p q : Parser} {a : α}
    (h : x.Yields p a q) (hp : p.stream.IsSettled) :
  q.stream.IsSettled
  := h.reaches.isSettled hp

/-- The quiet runs of a parser of expressions have derivations, nested to no more than a number
of levels, and stop before a token that does not bind more strongly than asked for. -/
def IsSound (levels : Nat) (inner : Inner) : Prop :=
  ∀ (strength : Precedence) (p : Parser) (e : Expr) (q : Parser), p.stream.IsSettled →
    (inner strength).Yields p e q →
    ∃ n ≤ levels, IsExpr strength.tier p.unread e n q.advance.unread ∧
      ¬ strength < q.next.kind.precedence

/-! ### Parameters -/

/-- The names that the loop reads are those up to a parenthesis, if that comes next. -/
theorem exists_isMoreParameters {ahead : List Token} {read ids : List Ident} {p q : Parser}
    (hahead : p.stream.tokens.length ≤ ahead.length)
    (h : (parametersAfter ahead read).Yields p ids q) (hclose : q.next.kind = .rightParen) :
  ∃ ids', ids = read.reverse ++ ids' ∧
    IsMoreParameters p.advance.unread ids' q.advance.advance.unread
  := by
  induction ahead generalizing read p with
  | nil =>
    have hnil : p.stream.tokens = [] := List.length_eq_zero_iff.mp (Nat.le_zero.mp hahead)
    obtain ⟨rfl, rfl⟩ := (yields_pure _ p ids q).mp h
    rw [Parser.kind_next_of_tokens hnil] at hclose
    cases hclose
  | cons t ahead ih =>
    rw [yields_parametersAfter _ read p hahead] at h
    split at h
    next hcomma =>
      obtain ⟨hname, h⟩ := h
      have hlength : p.advance.advance.stream.tokens.length ≤ ahead.length := by
        rw [Parser.length_tokens_advance, Parser.length_tokens_advance]
        rw [List.length_cons] at hahead
        omega
      obtain ⟨ids', rfl, hids⟩ := ih hlength h
      use ⟨p.advance.next, p.advance.next.text⟩ :: ids'
      constructor
      · simp
      · rw [Parser.unread_of_next hcomma rfl,
          Parser.unread_of_next hname rfl]
        apply IsMoreParameters.cons hcomma hname hids
    next =>
      obtain ⟨rfl, rfl⟩ := h
      use []
      constructor
      · simp
      · rw [Parser.unread_of_next hclose rfl]
        apply IsMoreParameters.close hclose

/-- Parameters that are read without a report are derived by the grammar. -/
theorem isParameters {p q : Parser} {ids : List Ident} (h : parameters.Yields p ids q) :
  IsParameters p.advance.unread ids q.advance.unread
  := by
  rw [yields_parameters] at h
  split at h
  next hclose =>
    obtain ⟨rfl, rfl⟩ := h
    rw [Parser.unread_of_next hclose rfl]
    apply IsParameters.close hclose
  next =>
    obtain ⟨hname, r, hloop, hclose, rfl⟩ := h
    obtain ⟨ids', rfl, hids⟩ := exists_isMoreParameters le_rfl hloop hclose
    rw [Parser.unread_of_next hname rfl]
    apply IsParameters.cons hname hids

section

variable {levels : Nat} {inner : Inner} [∀ strength, (inner strength).Orderly]
variable {p q : Parser}

/-! ### Statements -/

omit [∀ strength, (inner strength).Orderly] in
/-- The expression that a sound parser reads starts with a token and is at the place of it. -/
theorem IsSound.of_lowest (hinner : IsSound levels inner) (hp : p.stream.IsSettled) {e : Expr}
    (h : (inner .lowest).Yields p e q) :
  ∃ n ≤ levels, IsExpr .equality p.unread e n q.advance.unread ∧
    q.next.kind.extendsExpr = false ∧ p.unread = p.current :: p.advance.unread
  := by
  obtain ⟨n, hn, he, hstop⟩ := hinner .lowest p e q hp h
  rw [← Kind.extendsExpr_iff, Bool.not_eq_true] at hstop
  have hfirst := he.firstKind_startsExpr
  have hcurrent : p.current.kind ≠ .endOfInput := by
    rintro hkind
    rw [← Parser.kind_current, hkind] at hfirst
    cases hfirst
  exact ⟨n, hn, he, hstop, Parser.unread_of_kind_current hcurrent⟩

/-- A `let` statement that is read without a report is derived by the grammar. -/
theorem isStmt_of_letStatement (hinner : IsSound levels inner) (hp : p.stream.IsSettled)
    {s : Stmt} (hword : p.current.kind = .letWord) (h : (letStatement inner).Yields p s q) :
  ∃ n ≤ levels, IsStmt p.unread s n q.advance.unread
  := by
  rw [yields_letStatement] at h
  obtain ⟨hname, hassign, e, r, he, hsemicolon, rfl, rfl⟩ := h
  obtain ⟨n, hn, hvalue, -, -⟩ := hinner.of_lowest hp.tail.tail.tail he
  use n, hn
  rw [Parser.unread_of_current hword rfl,
    Parser.unread_of_next hname rfl,
    Parser.unread_of_next hassign rfl]
  rw [Parser.unread_of_next hsemicolon rfl] at hvalue
  apply IsStmt.binding hword hname hassign hvalue hsemicolon

/-- A `return` statement that is read without a report is derived by the grammar. -/
theorem isStmt_of_returnStatement (hinner : IsSound levels inner) (hp : p.stream.IsSettled)
    {s : Stmt} (hword : p.current.kind = .returnWord) (h : (returnStatement inner).Yields p s q) :
  ∃ n ≤ levels, IsStmt p.unread s n q.advance.unread
  := by
  rw [Parser.unread_of_current hword rfl]
  rw [yields_returnStatement] at h
  split at h
  next hsemicolon =>
    obtain ⟨rfl, rfl⟩ := h
    use 0, Nat.zero_le levels
    rw [Parser.unread_of_next hsemicolon rfl]
    apply IsStmt.returning hword hsemicolon
  next =>
    obtain ⟨e, r, he, hsemicolon, rfl, rfl⟩ := h
    obtain ⟨n, hn, hvalue, -, -⟩ := hinner.of_lowest hp.tail he
    use n, hn
    rw [Parser.unread_of_next hsemicolon rfl] at hvalue
    apply IsStmt.returningValue hword hvalue hsemicolon

omit [∀ strength, (inner strength).Orderly] in
/-- An expression that is read as a statement without a report is derived as one. -/
theorem isStmt_of_expressionStatement (hinner : IsSound levels inner) (hp : p.stream.IsSettled)
    {s : Stmt} (h : (expressionStatement inner).Yields p s q) :
  ∃ n ≤ levels, IsStmt p.unread s n q.advance.unread
  := by
  rw [yields_expressionStatement] at h
  obtain ⟨e, r, he, rfl, rfl⟩ := h
  obtain ⟨n, hn, hvalue, hextends, hfirst⟩ := hinner.of_lowest hp he
  use n, hn
  rw [hfirst] at hvalue ⊢
  by_cases hsemicolon : r.next.kind = .semicolon
  · rw [if_pos hsemicolon]
    rw [Parser.unread_of_next hsemicolon rfl] at hvalue
    apply IsStmt.terminated hvalue hsemicolon
  · rw [if_neg hsemicolon]
    rw [Parser.kind_next] at hsemicolon hextends
    apply IsStmt.expression hvalue hsemicolon hextends

/-- A statement that is read without a report is derived by the grammar. -/
theorem isStmt_of_statement (hinner : IsSound levels inner) (hp : p.stream.IsSettled) {s : Stmt}
    (h : (statement inner).Yields p s q) :
  ∃ n ≤ levels, IsStmt p.unread s n q.advance.unread
  := by
  rw [yields_statement] at h
  obtain ⟨r, rfl, h⟩ := h
  split at h
  next hword => exact isStmt_of_letStatement (q := r) hinner hp hword h
  next =>
    split at h
    next hword => exact isStmt_of_returnStatement (q := r) hinner hp hword h
    next => exact isStmt_of_expressionStatement (q := r) hinner hp h

/-- The statements that the loop reads without a report are those up to a token that closes.  None
of them has been given up, since the whole loop has not reported. -/
theorem exists_isStmts (hinner : IsSound levels inner) {closes : Kind → Bool}
    (hcloses : closes .endOfInput = true) {ahead : List Token} {read : List Stmt}
    (hp : p.stream.IsSettled) (hahead : p.stream.tokens.length ≤ ahead.length) {ss : List Stmt}
    (h : statementsAfter inner closes ahead read p = (ss, q)) (hq : q.reported = p.reported) :
  ∃ ss', ss = read.reverse ++ ss' ∧ closes q.current.kind = true ∧
    ∃ n ≤ levels, IsStmts p.unread ss' n q.unread
  := by
  induction ahead generalizing read p with
  | nil =>
    have hnil : p.stream.tokens = [] := List.length_eq_zero_iff.mp (Nat.le_zero.mp hahead)
    cases h
    rw [Parser.kind_current_of_tokens hnil]
    exact ⟨[], by simp, hcloses, 0, Nat.zero_le levels, .nil⟩
  | cons t ahead ih =>
    by_cases hclose : closes p.current.kind = true
    · rw [statementsAfter, if_pos hclose] at h
      cases h
      exact ⟨[], by simp, hclose, 0, Nat.zero_le levels, .nil⟩
    · have hrest : (statement inner p).2.Reaches
          (statementsAfter inner closes (t :: ahead) read p).2 :=
        Orderly.reaches_statementsAfter_cons hclose
      rw [h] at hrest
      have hfirst := Orderly.reaches (x := statement inner) p
      obtain ⟨s, hs⟩ := exists_yields (hfirst.reported_eq hrest hq)
      rw [statementsAfter, if_neg hclose, hs.1] at h
      have hsettled := hs.isSettled hp
      have hlength : (statement inner p).2.advance.stream.tokens.length ≤ ahead.length := by
        have hle := hs.reaches.length_tokens_le
        rw [Parser.length_tokens_advance]
        rw [List.length_cons] at hahead
        omega
      obtain ⟨ss', rfl, hclose, n, hn, hss⟩ := ih hsettled.tail hlength h (hq.trans hs.2.symm)
      obtain ⟨m, hm, hstmt⟩ := isStmt_of_statement hinner hp hs
      use s :: ss'
      exact ⟨by simp, hclose, max m n, by omega, .cons hstmt hss⟩

/-- The statements of a block end with its brace, or there is nothing after them. -/
theorem isBlock_of_block (hinner : IsSound levels inner) (hp : p.stream.IsSettled)
    (hbrace : p.current.kind = .leftBrace) {b : Block} (h : (block inner).Yields p b q) :
  ∃ n ≤ levels, IsBlock p.unread b n q.advance.unread
  := by
  obtain ⟨hrun, hreported⟩ := h
  rcases hss : statements inner closesBlock p.advance with ⟨ss, r⟩
  rw [block, hss] at hrun
  simp only [Prod.mk.injEq, Option.some.injEq] at hrun
  obtain ⟨rfl, rfl⟩ := hrun
  have hsettled : r.stream.IsSettled := by
    have hr : p.advance.Reaches (statements inner closesBlock p.advance).2 :=
      Orderly.reaches_statements closesBlock p.advance
    rw [hss] at hr
    apply hr.isSettled hp.tail
  obtain ⟨ss', rfl, hclose, n, hn, hstmts⟩ :=
    exists_isStmts hinner rfl hp.tail le_rfl hss hreported
  use n, hn
  rw [Parser.unread_of_current hbrace rfl]
  by_cases hend : r.current.kind = .endOfInput
  · have hnil : r.advance.unread = [] := hsettled.proper_tail hend
    rw [Parser.unread_nil_of_kind_current hend] at hstmts
    rw [hnil]
    apply IsBlock.unclosed hbrace hstmts
  · rw [Parser.unread_of_kind_current hend] at hstmts
    have hkind : r.current.kind = .rightBrace := by simpa [closesBlock, hend] using hclose
    apply IsBlock.closed hbrace hstmts hkind

/-- A second block that is read without a report is derived by the grammar, and so is a missing one.
-/
theorem isAlternative_of_alternative (hinner : IsSound levels inner) (hp : p.stream.IsSettled)
    {b : Option Block} (h : (alternative inner).Yields p b q) :
  ∃ n ≤ levels, IsAlternative p.advance.unread b n q.advance.unread
  := by
  rw [yields_alternative] at h
  split at h
  next hword =>
    obtain ⟨hbrace, b', hb', rfl⟩ := h
    obtain ⟨n, hn, hblock⟩ :=
      isBlock_of_block (p := p.advance.advance) hinner hp.tail.tail hbrace hb'
    use n, hn
    rw [Parser.unread_of_next hword rfl]
    apply IsAlternative.present hword hblock
  next =>
    obtain ⟨rfl, rfl⟩ := h
    exact ⟨0, Nat.zero_le levels, .missing⟩

/-! ### Arguments -/

/-- The expressions that the loop reads are those up to a parenthesis, if that comes next. -/
theorem exists_isMoreArguments (hinner : IsSound levels inner) {ahead : List Token}
    {read es : List Expr} (hp : p.stream.IsSettled)
    (hahead : p.stream.tokens.length ≤ ahead.length)
    (h : (expressionsAfter inner ahead read).Yields p es q) (hclose : q.next.kind = .rightParen) :
  ∃ es', es = read.reverse ++ es' ∧ ∃ n ≤ levels + 1,
    IsMoreArguments p.advance.unread es' n q.advance.advance.unread
  := by
  induction ahead generalizing read p with
  | nil =>
    have hnil : p.stream.tokens = [] := List.length_eq_zero_iff.mp (Nat.le_zero.mp hahead)
    obtain ⟨rfl, rfl⟩ := (yields_pure _ p es q).mp h
    rw [Parser.kind_next_of_tokens hnil] at hclose
    cases hclose
  | cons t ahead ih =>
    rw [yields_expressionsAfter _ read p hahead] at h
    split at h
    next hcomma =>
      obtain ⟨e, r, he, h⟩ := h
      have hlength : r.stream.tokens.length ≤ ahead.length := by
        have hle := he.reaches.length_tokens_le
        rw [Parser.length_tokens_advance, Parser.length_tokens_advance] at hle
        rw [List.length_cons] at hahead
        omega
      obtain ⟨m, hm, hexpr, -, -⟩ := hinner.of_lowest hp.tail.tail he
      obtain ⟨es', rfl, n, hn, hes⟩ := ih (he.isSettled hp.tail.tail) hlength h
      use e :: es'
      constructor
      · simp
      · use max (m + 1) n, by omega
        rw [Parser.unread_of_next hcomma rfl]
        apply IsMoreArguments.cons hcomma hexpr hes
    next =>
      obtain ⟨rfl, rfl⟩ := h
      use []
      constructor
      · simp
      · use 0, Nat.zero_le _
        rw [Parser.unread_of_next hclose rfl]
        apply IsMoreArguments.close hclose

/-- Arguments that are read without a report are derived by the grammar. -/
theorem isArguments_of_expressionList (hinner : IsSound levels inner) (hp : p.stream.IsSettled)
    {es : List Expr} (h : (expressionList inner .rightParen).Yields p es q) :
  ∃ n ≤ levels + 1, IsArguments p.advance.unread es n q.advance.unread
  := by
  rw [yields_expressionList] at h
  split at h
  next hclose =>
    obtain ⟨rfl, rfl⟩ := h
    use 0, Nat.zero_le _
    rw [Parser.unread_of_next hclose rfl]
    apply IsArguments.close hclose
  next =>
    obtain ⟨e, r, he, r', hloop, hclose, rfl⟩ := h
    obtain ⟨m, hm, hexpr, -, -⟩ := hinner.of_lowest hp.tail he
    obtain ⟨es', rfl, n, hn, hes⟩ :=
      exists_isMoreArguments hinner (he.isSettled hp.tail) le_rfl hloop hclose
    use max (m + 1) n, by omega
    apply IsArguments.cons hexpr hes

/-! ### Operands -/

/-- An expression in parentheses that is read without a report is derived by the grammar. -/
theorem isExpr_of_group (hinner : IsSound levels inner) (hp : p.stream.IsSettled) {e : Expr}
    (hparen : p.current.kind = .leftParen) (h : (group inner).Yields p e q) :
  ∃ n ≤ levels + 1, IsExpr .primary p.unread e n q.advance.unread
  := by
  rw [yields_group] at h
  obtain ⟨r, he, hclose, rfl⟩ := h
  obtain ⟨n, hn, hexpr, -, -⟩ := hinner.of_lowest hp.tail he
  use n + 1, Nat.succ_le_succ hn
  rw [Parser.unread_of_current hparen rfl]
  rw [Parser.unread_of_next hclose rfl] at hexpr
  apply IsExpr.group hparen hexpr hclose

/-- A choice that is read without a report is derived by the grammar. -/
theorem isExpr_of_conditional (hinner : IsSound levels inner) (hp : p.stream.IsSettled) {e : Expr}
    (hword : p.current.kind = .ifWord) (h : (conditional inner).Yields p e q) :
  ∃ n ≤ levels + 1, IsExpr .primary p.unread e n q.advance.unread
  := by
  rw [yields_conditional] at h
  obtain ⟨hparen, condition, r, he, hclose, hbrace, b, r', hb, b', hb', rfl⟩ := h
  have hr := he.isSettled hp.tail.tail
  obtain ⟨l, hl, hexpr, -, -⟩ := hinner.of_lowest hp.tail.tail he
  obtain ⟨m, hm, hblock⟩ := isBlock_of_block (p := r.advance.advance) hinner hr.tail.tail hbrace hb
  obtain ⟨n, hn, halternative⟩ :=
    isAlternative_of_alternative hinner (hb.isSettled (p := r.advance.advance) hr.tail.tail) hb'
  use max l (max m n) + 1, by omega
  rw [Parser.unread_of_current hword rfl, Parser.unread_of_next hparen rfl]
  rw [Parser.unread_of_next hclose rfl] at hexpr
  apply IsExpr.conditional hword hparen hexpr hclose hblock halternative

/-- A function that is read without a report is derived by the grammar. -/
theorem isExpr_of_function (hinner : IsSound levels inner) (hp : p.stream.IsSettled) {e : Expr}
    (hword : p.current.kind = .functionWord) (h : (function inner).Yields p e q) :
  ∃ n ≤ levels + 1, IsExpr .primary p.unread e n q.advance.unread
  := by
  rw [yields_function] at h
  obtain ⟨hparen, ids, r, hids, hbrace, b, hb, rfl⟩ := h
  have hr := hids.isSettled (p := p.advance) hp.tail
  obtain ⟨n, hn, hblock⟩ := isBlock_of_block (p := r.advance) hinner hr.tail hbrace hb
  use n + 1, Nat.succ_le_succ hn
  rw [Parser.unread_of_current hword rfl, Parser.unread_of_next hparen rfl]
  apply IsExpr.function hword hparen (isParameters hids) hblock

/-- A prefix operator with its operand that is read without a report is derived by the grammar, and
what comes next binds no more strongly than a prefix operator. -/
theorem isExpr_of_unary (hinner : IsSound levels inner) (hp : p.stream.IsSettled) {e : Expr}
    (hop : p.current.kind = .bang ∨ p.current.kind = .minus) (h : (unary inner).Yields p e q) :
  ∃ n ≤ levels + 1, IsExpr .unary p.unread e n q.advance.unread ∧
    q.next.kind.precedence.rank ≤ Tier.unary.rank
  := by
  rw [yields_unary] at h
  obtain ⟨right, hright, rfl⟩ := h
  obtain ⟨n, hn, hexpr, hstop⟩ := hinner .unary p.advance right q hp.tail hright
  use n + 1, Nat.succ_le_succ hn
  constructor
  · rw [Parser.unread_of_kind_current (by rcases hop with hop | hop <;> simp [hop])]
    apply IsExpr.unary hop hexpr
  · apply Nat.not_lt.mp hstop

/-- What has been read of an expression while it is being extended: an expression of a tier
that is tight enough, before a token that is loose enough. -/
def IsStage (levels : Nat) (strength : Precedence) (ts : List Token) (x : Expr × Parser) : Prop :=
  ∃ n ≤ levels + 1, ∃ tier : Tier, strength.tier.rank ≤ tier.rank ∧
    IsExpr tier ts x.1 n x.2.advance.unread ∧ x.2.next.kind.precedence.rank ≤ tier.rank

omit [∀ strength, (inner strength).Orderly] in
/-- A primary expression is a stage of a climb of any strength. -/
theorem isStage_of_primary {strength : Precedence} {ts : List Token} {e : Expr}
    (h : ∃ n ≤ levels + 1, IsExpr .primary ts e n q.advance.unread) :
  IsStage levels strength ts (e, q)
  := by
  obtain ⟨n, hn, he⟩ := h
  have hstrength := strength.rank_tier_le_unary
  have hnext := q.next.kind.precedence.rank_le_seven
  exact ⟨n, hn, .primary, hstrength.trans (by decide), he, hnext.trans (by decide)⟩

omit [∀ strength, (inner strength).Orderly] in
/-- A token by itself is an expression without parts. -/
theorem isStage_of_token {strength : Precedence} {kind : Kind} {e : Expr}
    (hkind : p.current.kind = kind) (hend : kind ≠ .endOfInput)
    (h : IsExpr .primary (p.current :: p.advance.unread) e 1 p.advance.unread) :
  IsStage levels strength p.unread (e, p)
  := by
  apply isStage_of_primary
  use 1, Nat.succ_le_succ (Nat.zero_le levels)
  rw [Parser.unread_of_kind_current (by rwa [hkind])]
  apply h

/-- The first operand of a climb is a stage of it. -/
theorem isStage_of_operand (hinner : IsSound levels inner) (strength : Precedence)
    (hp : p.stream.IsSettled) {e : Expr} (h : (operand inner).Yields p e q) :
  IsStage levels strength p.unread (e, q)
  := by
  rw [yields_operand] at h
  split at h
  next hkind =>
    obtain ⟨rfl, rfl⟩ := h
    apply isStage_of_token hkind (by decide) (.name hkind)
  next hkind =>
    obtain ⟨value, hvalue, rfl, rfl⟩ := (yields_integer p e q).mp h
    apply isStage_of_token hkind (by decide) (.integer hkind hvalue)
  next hkind =>
    obtain ⟨rfl, rfl⟩ := h
    apply isStage_of_token hkind (by decide) (.boolean (.inl hkind))
  next hkind =>
    obtain ⟨rfl, rfl⟩ := h
    apply isStage_of_token hkind (by decide) (.boolean (.inr hkind))
  next hkind =>
    obtain ⟨n, hn, hexpr, hnext⟩ := isExpr_of_unary hinner hp (.inl hkind) h
    exact ⟨n, hn, .unary, strength.rank_tier_le_unary, hexpr, hnext⟩
  next hkind =>
    obtain ⟨n, hn, hexpr, hnext⟩ := isExpr_of_unary hinner hp (.inr hkind) h
    exact ⟨n, hn, .unary, strength.rank_tier_le_unary, hexpr, hnext⟩
  next hkind => apply isStage_of_primary (isExpr_of_group hinner hp hkind h)
  next hkind => apply isStage_of_primary (isExpr_of_conditional hinner hp hkind h)
  next hkind => apply isStage_of_primary (isExpr_of_function hinner hp hkind h)
  next => cases h

/-! ### Extensions -/

/-- A call is a stage if what it calls is. -/
theorem IsStage.call (hinner : IsSound levels inner) {strength : Precedence} {ts : List Token}
    {left e : Expr} (hstage : IsStage levels strength ts (left, p)) (hp : p.stream.IsSettled)
    (hparen : p.next.kind = .leftParen) (h : (Parse.call inner left).Yields p.advance e q) :
  IsStage levels strength ts (e, q)
  := by
  obtain ⟨m, hm, tier, -, hleft, hnext⟩ := hstage
  rw [yields_call] at h
  obtain ⟨es, hes, rfl⟩ := h
  obtain ⟨n, hn, harguments⟩ := isArguments_of_expressionList (p := p.advance) hinner hp.tail hes
  rw [hparen] at hnext
  have hfunction : IsExpr .call ts left m p.advance.unread := by
    apply hleft.loosen
    apply hnext
  rw [Parser.unread_of_next hparen rfl] at hfunction
  have hstrength := strength.rank_tier_le_unary
  have hrank := q.next.kind.precedence.rank_le_seven
  use max m n, by omega, .call, hstrength.trans (by decide)
  exact ⟨.call hfunction hparen harguments, hrank⟩

/-- An operator between operands gives a stage if the operand on its left is one.  The left operand
is of the tier of the operator, and the right one of the next tier. -/
theorem IsStage.binary (hinner : IsSound levels inner) {strength : Precedence} {ts : List Token}
    {left e : Expr} (hstage : IsStage levels strength ts (left, p)) (hp : p.stream.IsSettled)
    (hlt : strength < p.next.kind.precedence) (hparen : p.next.kind ≠ .leftParen)
    (h : (Parse.binary inner left).Yields p.advance e q) :
  IsStage levels strength ts (e, q)
  := by
  obtain ⟨m, hm, tier, -, hleft, hnext⟩ := hstage
  rw [yields_binary] at h
  obtain ⟨right, hright, rfl⟩ := h
  rw [Precedence.lt_iff_rank_lt] at hlt
  have hlowest : Precedence.lowest < p.next.kind.precedence := by
    have hpos := strength.one_le_rank
    rw [Precedence.lt_iff_rank_lt]
    apply Nat.lt_of_le_of_lt hpos hlt
  obtain ⟨tier', hjoins⟩ := Tier.exists_joins hlowest hparen
  have hrank := Tier.rank_precedence_of_joins hjoins
  rw [hrank] at hnext hlt
  have hoperand : IsExpr tier' ts left m p.advance.unread := hleft.loosen hnext
  have hend := Tier.ne_endOfInput_of_joins hjoins
  rw [Parser.unread_of_kind_current (p := p.advance) hend] at hoperand
  obtain ⟨n, hn, hexpr, hstop⟩ := hinner _ _ right q hp.tail.tail hright
  rw [Parser.current_advance, Tier.tier_precedence_of_joins hjoins] at hexpr
  rw [Precedence.lt_iff_rank_lt, Parser.current_advance, hrank, Nat.not_lt] at hstop
  use max m (n + 1), by omega, tier', strength.rank_tier_le.trans hlt
  exact ⟨.binary hoperand hjoins hexpr, hstop⟩

/-- An extension of a stage is a stage. -/
theorem IsStage.extends (hinner : IsSound levels inner) {strength : Precedence} {ts : List Token}
    {x y : Expr × Parser} (hstage : IsStage levels strength ts x) (hx : x.2.stream.IsSettled)
    (h : Extends inner strength x y) :
  IsStage levels strength ts y
  := by
  obtain ⟨hlt, hext⟩ := h
  rw [yields_extension, Parser.current_advance] at hext
  split at hext
  next hparen => exact hstage.call hinner hx hparen hext
  next hparen => exact hstage.binary hinner hx hlt hparen hext

/-- A chain of extensions of a stage ends with a stage. -/
theorem IsStage.chain (hinner : IsSound levels inner) {strength : Precedence} {ts : List Token}
    {x y : Expr × Parser} (hstage : IsStage levels strength ts x) (hx : x.2.stream.IsSettled)
    (h : Relation.ReflTransGen (Extends inner strength) x y) :
  IsStage levels strength ts y ∧ y.2.stream.IsSettled
  := by
  induction h with
  | refl => exact ⟨hstage, hx⟩
  | tail _ hlast ih =>
    obtain ⟨hbefore, hsettled⟩ := ih
    exact ⟨hbefore.extends hinner hsettled hlast, hlast.2.isSettled hsettled.tail⟩

/-- If a parser of expressions is sound, so is the one that climbs with it, one level deeper. -/
theorem IsSound.climb (hinner : IsSound levels inner) :
  IsSound (levels + 1) (Parse.climb inner)
  := by
  intro strength p e q hp h
  rw [yields_climb] at h
  obtain ⟨⟨left, r, hleft, hchain⟩, hstop⟩ := h
  have hstage := isStage_of_operand hinner strength hp hleft
  obtain ⟨⟨n, hn, tier, htier, hexpr, -⟩, -⟩ := hstage.chain hinner (hleft.isSettled hp) hchain
  exact ⟨n, hn, hexpr.loosen htier, hstop⟩

end

/-- The parser of expressions is sound with any number of levels left. -/
theorem isSound_expressionWithin (levels : Nat) :
  IsSound levels (expressionWithin levels)
  := by
  induction levels with
  | zero =>
    intro strength p e q _ h
    rw [expressionWithin, refuseDepth, yields_recovering] at h
    cases not_yields_giveUp _ p e q h
  | succ levels ih =>
    intro strength p e q hp h
    rw [expressionWithin, yields_nested] at h
    obtain ⟨r, hr, rfl⟩ := h
    apply ih.climb strength p.descend e r hp hr

end Parse

end MonkeySyntax
