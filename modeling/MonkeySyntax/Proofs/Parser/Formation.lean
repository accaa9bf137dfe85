import MonkeySyntax.Proofs.Parser.Gives
import MonkeySyntax.Proofs.Tree.Formed

/-!
# The formation of trees

Whatever an action gives is fully formed, from tokens that are ahead of the parser.  It does not
matter what has been reported: an action that gives up gives no tree, and the statements that are
left out of a block do not change the others.
-/

namespace MonkeySyntax

namespace Parser

variable {T : Token → Prop} {p q : Parser}

/-- Only tokens of which `T` holds are ahead. -/
def Among (T : Token → Prop) (p : Parser) : Prop :=
  ∀ t ∈ p.stream.tokens, T t

/-- The tokens ahead later on are among those ahead before. -/
theorem Among.reaches (h : p.Among T) (hq : p.Reaches q) :
  q.Among T
  := by
  obtain ⟨n, hstream, -⟩ := hq.passed
  intro t ht
  rw [hstream] at ht
  apply h t (List.mem_of_mem_drop ht)

/-- The tokens after the first are among those ahead. -/
theorem Among.advance (h : p.Among T) :
  p.advance.Among T
  := h.reaches (.advance p)

/-- The current token is one of those ahead, unless it is the end of the input. -/
theorem Among.current (h : p.Among T) (hend : p.current.kind ≠ .endOfInput) :
  T p.current
  := h p.current (TokenStream.head_mem hend)

end Parser

namespace Parse

variable (T : Token → Prop)

/-- Whatever is given as an expression has started with a token that may start one, and is fully
formed. -/
def Forms (inner : Inner) : Prop :=
  ∀ strength p e q, p.Among T → (inner strength).Gives p e q →
    p.current.kind.startsExpr = true ∧ e.IsFormed T

variable {T} {p q : Parser}

/-- A name that is the current token is fully formed. -/
theorem isFormed_name (hp : p.Among T) (hkind : p.current.kind = .identifier) :
  (⟨p.current, p.current.text⟩ : Ident).IsFormed T
  := ⟨hp.current (by simp [hkind]), hkind, rfl⟩

/-- The next token as a name. -/
theorem isFormed_nextName (hp : p.Among T) (hkind : p.next.kind = .identifier) :
  (⟨p.next, p.next.text⟩ : Ident).IsFormed T
  := isFormed_name hp.advance hkind

/-- An integer has the token and the value that it should. -/
theorem isFormed_integer (hp : p.Among T) (hkind : p.current.kind = .integer) {e : Expr}
    (h : integer.Gives p e q) :
  e.IsFormed T
  := by
  obtain ⟨value, hvalue, rfl, -⟩ := gives_integer.mp h
  exact ⟨hp.current (by simp [hkind]), hkind, integerValue_eq_some.mp hvalue⟩

/-- A boolean has the token and the value that it should. -/
theorem isFormed_boolean (hp : p.Among T)
    (hkind : p.current.kind = .trueWord ∨ p.current.kind = .falseWord) {e : Expr}
    (h : boolean.Gives p e q) :
  e.IsFormed T
  := by
  obtain ⟨rfl, -⟩ := (gives_boolean p e q).mp h
  have hend : p.current.kind ≠ .endOfInput := by rcases hkind with hkind | hkind <;> simp [hkind]
  exact ⟨hp.current hend, hkind, rfl⟩

/-- The names after a name are fully formed. -/
theorem areFormed_parametersAfter {ahead : List Token} {read ids : List Ident} (hp : p.Among T)
    (hread : ∀ id ∈ read, id.IsFormed T) (h : (parametersAfter ahead read).Gives p ids q) :
  ∀ id ∈ ids, id.IsFormed T
  := by
  induction ahead generalizing read p with
  | nil =>
    rw [gives_parametersAfter_nil] at h
    simpa [h.1] using hread
  | cons t ahead ih =>
    rw [gives_parametersAfter_cons] at h
    split at h
    · obtain ⟨hname, hids⟩ := h
      apply ih hp.advance.advance _ hids
      exact List.forall_mem_cons.mpr ⟨isFormed_nextName hp.advance hname, hread⟩
    · simpa [h.1] using hread

/-- Parameters are fully formed. -/
theorem areFormed_parameters {ids : List Ident} (hp : p.Among T) (h : parameters.Gives p ids q) :
  ∀ id ∈ ids, id.IsFormed T
  := by
  rw [gives_parameters] at h
  split at h
  · simp [h.1]
  · obtain ⟨hname, r, hids, -, -⟩ := h
    apply areFormed_parametersAfter hp.advance _ hids
    simpa using isFormed_nextName hp hname

section

variable {inner : Inner}

/-! ### Statements -/

theorem Forms.letStatement (hinner : Forms T inner) (hp : p.Among T)
    (hkind : p.current.kind = .letWord) {s : Stmt} (h : (letStatement inner).Gives p s q) :
  s.IsFormed T
  := by
  obtain ⟨hname, -, value, r, hvalue, -, rfl, -⟩ := gives_letStatement.mp h
  have hvalue' := hinner _ _ _ _ hp.advance.advance.advance hvalue
  exact ⟨hp.current (by simp [hkind]), hkind, isFormed_nextName hp hname, hvalue'.2⟩

theorem Forms.returnStatement (hinner : Forms T inner) (hp : p.Among T)
    (hkind : p.current.kind = .returnWord) {s : Stmt} (h : (returnStatement inner).Gives p s q) :
  s.IsFormed T
  := by
  rw [gives_returnStatement] at h
  have hword := hp.current (by simp [hkind])
  split at h
  · obtain ⟨rfl, -⟩ := h
    exact ⟨hword, hkind⟩
  · obtain ⟨value, r, hvalue, -, rfl, -⟩ := h
    exact ⟨hword, hkind, (hinner _ _ _ _ hp.advance hvalue).2⟩

theorem Forms.expressionStatement (hinner : Forms T inner) (hp : p.Among T) {s : Stmt}
    (h : (expressionStatement inner).Gives p s q) :
  s.IsFormed T
  := by
  obtain ⟨value, r, hvalue, rfl, -⟩ := gives_expressionStatement.mp h
  obtain ⟨hstarts, hformed⟩ := hinner _ _ _ _ hp hvalue
  have hend : p.current.kind ≠ .endOfInput := by
    intro hend
    rw [hend] at hstarts
    cases hstarts
  exact ⟨hp.current hend, hstarts, hformed⟩

/-- A statement that is given is fully formed. -/
theorem Forms.statement (hinner : Forms T inner) (hp : p.Among T) {s : Stmt}
    (h : (statement inner).Gives p s q) :
  s.IsFormed T
  := by
  obtain ⟨r, hr, -⟩ := (gives_accounted _ p s q).mp h
  dsimp only [Gives] at hr
  split at hr
  next hkind => apply hinner.letStatement hp hkind hr
  next hkind => apply hinner.returnStatement hp hkind hr
  next => apply hinner.expressionStatement hp hr

variable [∀ strength, (inner strength).Orderly]

/-- The statements that the loop has read are fully formed, whichever were given up. -/
theorem Forms.statementsAfter (hinner : Forms T inner) {closes : Kind → Bool}
    {ahead : List Token} {read : List Stmt} (hp : p.Among T) (hread : Stmt.AreFormed T read) :
  Stmt.AreFormed T (statementsAfter inner closes ahead read p).1
  := by
  have hreverse {read : List Stmt} (hread : Stmt.AreFormed T read) :
      Stmt.AreFormed T read.reverse := by
    rw [Stmt.areFormed_iff] at hread ⊢
    simpa using hread
  induction ahead generalizing read p with
  | nil => apply hreverse hread
  | cons t ahead ih =>
    rw [Parse.statementsAfter]
    split
    · apply hreverse hread
    · rcases hs : Parse.statement inner p with ⟨_ | s, q⟩
      · apply ih (hp.reaches (Orderly.reaches_of_apply hs)).advance hread
      · have hread' : Stmt.AreFormed T (s :: read) := ⟨hinner.statement hp hs, hread⟩
        apply ih (hp.reaches (Orderly.reaches_of_apply hs)).advance hread'

/-- A block that is given is fully formed, whatever has been left out of it. -/
theorem Forms.block (hinner : Forms T inner) (hp : p.Among T)
    (hkind : p.current.kind = .leftBrace) {b : Block} (h : (block inner).Gives p b q) :
  b.IsFormed T
  := by
  obtain ⟨rfl, -⟩ := gives_block.mp h
  exact ⟨hp.current (by simp [hkind]), hkind, hinner.statementsAfter hp.advance trivial⟩

/-! ### Expressions -/

omit [∀ strength, (inner strength).Orderly] in
theorem Forms.unary (hinner : Forms T inner) (hp : p.Among T)
    (hkind : p.current.kind = .bang ∨ p.current.kind = .minus) {e : Expr}
    (h : (unary inner).Gives p e q) :
  e.IsFormed T
  := by
  obtain ⟨right, hright, rfl⟩ := gives_unary.mp h
  have hend : p.current.kind ≠ .endOfInput := by rcases hkind with hkind | hkind <;> simp [hkind]
  exact ⟨hp.current hend, hkind, rfl, (hinner _ _ _ _ hp.advance hright).2⟩

omit [∀ strength, (inner strength).Orderly] in
theorem Forms.group (hinner : Forms T inner) (hp : p.Among T) {e : Expr}
    (h : (group inner).Gives p e q) :
  e.IsFormed T
  := by
  obtain ⟨r, he, -, -⟩ := gives_group.mp h
  apply (hinner _ _ _ _ hp.advance he).2

/-- A second block is fully formed, if there is one. -/
theorem Forms.alternative (hinner : Forms T inner) (hp : p.Among T) {b : Option Block}
    (h : (alternative inner).Gives p b q) :
  Block.IsFormedElse T b
  := by
  rw [gives_alternative] at h
  split at h
  · obtain ⟨hbrace, b', hb, rfl⟩ := h
    apply hinner.block hp.advance.advance hbrace hb
  · obtain ⟨rfl, -⟩ := h
    trivial

theorem Forms.conditional (hinner : Forms T inner) (hp : p.Among T)
    (hkind : p.current.kind = .ifWord) {e : Expr} (h : (conditional inner).Gives p e q) :
  e.IsFormed T
  := by
  obtain ⟨-, condition, r, hcondition, -, hbrace, consequence, r', hconsequence, second, hsecond,
    rfl⟩ := gives_conditional.mp h
  have hp' := hp.advance.advance
  have hr := (hp'.reaches hcondition.reaches).advance.advance
  have hr' := hr.reaches hconsequence.reaches
  exact ⟨hp.current (by simp [hkind]), hkind, (hinner _ _ _ _ hp' hcondition).2,
    hinner.block hr hbrace hconsequence, hinner.alternative hr' hsecond⟩

theorem Forms.function (hinner : Forms T inner) (hp : p.Among T)
    (hkind : p.current.kind = .functionWord) {e : Expr} (h : (function inner).Gives p e q) :
  e.IsFormed T
  := by
  obtain ⟨-, ids, r, hids, hbrace, body, hbody, rfl⟩ := gives_function.mp h
  have hr := (hp.advance.reaches hids.reaches).advance
  exact ⟨hp.current (by simp [hkind]), hkind, areFormed_parameters hp.advance hids,
    hinner.block hr hbrace hbody⟩

theorem Forms.expressionsAfter (hinner : Forms T inner) {ahead : List Token}
    {read es : List Expr} (hp : p.Among T) (hread : ∀ e ∈ read, e.IsFormed T)
    (h : (expressionsAfter inner ahead read).Gives p es q) :
  ∀ e ∈ es, e.IsFormed T
  := by
  induction ahead generalizing read p with
  | nil =>
    rw [gives_expressionsAfter_nil] at h
    simpa [h.1] using hread
  | cons t ahead ih =>
    rw [gives_expressionsAfter_cons] at h
    split at h
    · obtain ⟨e, r, he, hes⟩ := h
      have hp' := hp.advance.advance
      have hformed := (hinner _ _ _ _ hp' he).2
      apply ih (hp'.reaches he.reaches) (List.forall_mem_cons.mpr ⟨hformed, hread⟩) hes
    · simpa [h.1] using hread

/-- Expressions with commas between them are fully formed. -/
theorem Forms.expressionList (hinner : Forms T inner) {closing : Kind} (hp : p.Among T)
    {es : List Expr} (h : (expressionList inner closing).Gives p es q) :
  Expr.AreFormed T es
  := by
  rw [gives_expressionList] at h
  rw [Expr.areFormed_iff]
  split at h
  · simp [h.1]
  · obtain ⟨first, r, hfirst, r', hes, -, -⟩ := h
    apply hinner.expressionsAfter (hp.advance.reaches hfirst.reaches) _ hes
    simpa using (hinner _ _ _ _ hp.advance hfirst).2

/-- An operand has started with a token that may start an expression, and is fully formed. -/
theorem Forms.operand (hinner : Forms T inner) (hp : p.Among T) {e : Expr}
    (h : (operand inner).Gives p e q) :
  p.current.kind.startsExpr = true ∧ e.IsFormed T
  := by
  rw [Gives, Parse.operand] at h
  split at h
  next hkind =>
    simp only [Prod.mk.injEq, Option.some.injEq] at h
    rw [hkind, ← h.1]
    exact ⟨rfl, isFormed_name hp hkind⟩
  next hkind => exact ⟨by rw [hkind]; rfl, isFormed_integer hp hkind h⟩
  next hkind => exact ⟨by rw [hkind]; rfl, isFormed_boolean hp (.inl hkind) h⟩
  next hkind => exact ⟨by rw [hkind]; rfl, isFormed_boolean hp (.inr hkind) h⟩
  next hkind => exact ⟨by rw [hkind]; rfl, hinner.unary hp (.inl hkind) h⟩
  next hkind => exact ⟨by rw [hkind]; rfl, hinner.unary hp (.inr hkind) h⟩
  next hkind => exact ⟨by rw [hkind]; rfl, hinner.group hp h⟩
  next hkind => exact ⟨by rw [hkind]; rfl, hinner.conditional hp hkind h⟩
  next hkind => exact ⟨by rw [hkind]; rfl, hinner.function hp hkind h⟩
  next => simp at h

/-- What extends an expression has been looked at before: it binds more strongly than something,
and so it is an operator or starts a call. -/
theorem Forms.extension (hinner : Forms T inner) (hp : p.Among T) {strength : Precedence}
    (hkind : strength < p.current.kind.precedence) {left e : Expr} (hleft : left.IsFormed T)
    (h : (extension inner left).Gives p e q) :
  e.IsFormed T
  := by
  have htoken := hp.current (Kind.ne_endOfInput_of_lt hkind)
  rw [gives_extension] at h
  split at h
  next hparen =>
    obtain ⟨arguments, harguments, rfl⟩ := gives_call.mp h
    exact ⟨htoken, hparen, hleft, hinner.expressionList hp harguments⟩
  next hparen =>
    obtain ⟨right, hright, rfl⟩ := gives_binary.mp h
    have hoperator : p.current.kind.isBinary = true := by
      cases hk : p.current.kind with
      | equal | notEqual | less | greater | plus | minus | asterisk | slash => rfl
      | leftParen => cases hparen hk
      | _ =>
        rw [hk] at hkind
        cases Precedence.not_lt_lowest _ hkind
    exact ⟨htoken, hoperator, rfl, hleft, (hinner _ _ _ _ hp.advance hright).2⟩

/-- What a fully formed expression is extended to is fully formed. -/
theorem Forms.extensions (hinner : Forms T inner) {strength : Precedence} {ahead : List Token}
    {left e : Expr} (hp : p.Among T) (hleft : left.IsFormed T)
    (h : extensions inner strength ahead left p = (some e, q)) :
  e.IsFormed T
  := by
  induction ahead generalizing left p with
  | nil =>
    rwa [(extensions_nil_eq_some.mp h).1]
  | cons t ahead ih =>
    rw [extensions_cons_eq_some] at h
    split at h
    next hnext =>
      obtain ⟨e', r, hextension, hrest⟩ := h
      have hformed := hinner.extension hp.advance hnext hleft hextension
      apply ih (hp.advance.reaches hextension.reaches) hformed hrest
    next => rwa [h.1]

/-- If the expressions within a climb are fully formed, so is the one it gives. -/
theorem Forms.climb (hinner : Forms T inner) {strength : Precedence} (hp : p.Among T) {e : Expr}
    (h : (climb inner strength).Gives p e q) :
  p.current.kind.startsExpr = true ∧ e.IsFormed T
  := by
  obtain ⟨left, r, hleft, hrest⟩ := gives_climb.mp h
  obtain ⟨hstarts, hformed⟩ := hinner.operand hp hleft
  exact ⟨hstarts, hinner.extensions (hp.reaches hleft.reaches) hformed hrest⟩

end

/-- Expressions are fully formed with any number of levels. -/
theorem forms_expressionWithin (levels : Nat) :
  Forms T (expressionWithin levels)
  := by
  induction levels with
  | zero =>
    intro strength p e q _ h
    rw [expressionWithin, refuseDepth, gives_recovering] at h
    cases not_gives_giveUp _ _ _ _ h
  | succ levels ih =>
    intro strength p e q hp h
    rw [expressionWithin, gives_nested] at h
    obtain ⟨r, hr, -⟩ := h
    have hdescend : p.descend.Among T := hp
    apply ih.climb hdescend hr

/-- Expressions are fully formed at any depth. -/
theorem forms_expression :
  Forms T expression
  := by
  intro strength p e q hp h
  apply forms_expressionWithin (maxNesting - p.depth) strength p e q hp h

end Parse

/-- The program that a parser gives is fully formed, with tokens that are ahead of it. -/
theorem Parser.isFormed_program {T : Token → Prop} {p : Parser} (hp : p.Among T) :
  p.program.1.IsFormed T
  := Parse.forms_expression.statementsAfter hp trivial

/-- The program of a stream is fully formed, with tokens of the list. -/
theorem Program.isFormed_parseStream (s : TokenStream) :
  (parseStream s).program.IsFormed (· ∈ s.tokens)
  := Parser.isFormed_program (p := .ofStream s) (fun _ ht => ht)

/-- The program of a source is source-shaped, whatever has been reported. -/
theorem Parser.isSourceShaped_program (source : String) :
  (Parser.ofSource source).program.1.IsSourceShaped
  := by
  apply Program.IsFormed.isSourceShaped
  apply isFormed_program
  intro t ht
  apply isLexeme_of_mem_tokens ht

end MonkeySyntax
