import MonkeySyntax.Proofs.Parser.Rounds

/-!
# Actions that give a value

`x.Gives p a q` says that the action `x` gives `a` and takes the parser from `p` to `q`.  A
sequence of actions gives a value when all of them do (`gives_bind`), so the values that were
given on the way, and the tokens that were looked at, can be told from the last one.  Every action
of the parser is taken apart here, into the tokens that it asks for and the actions within it; for
a loop it is one round that is taken apart.
-/

namespace MonkeySyntax

namespace Parse

variable {α β : Type}

/-- An action gives a value, and takes the parser to another. -/
def Gives (x : Parse α) (p : Parser) (a : α) (q : Parser) : Prop :=
  x p = (some a, q)

/-- An action that gives a value reaches the parser it leaves. -/
theorem Gives.reaches {x : Parse α} [x.Orderly] {p q : Parser} {a : α} (h : x.Gives p a q) :
  p.Reaches q
  := Orderly.reaches_of_apply h

theorem gives_congr {x y : Parse α} {p : Parser} (h : x p = y p) (a : α) (q : Parser) :
  x.Gives p a q ↔ y.Gives p a q
  := by
  simp only [Gives, h]

/-! ### Sequences, branches and primitives -/

@[simp]
theorem gives_pure (b : α) (p : Parser) (a : α) (q : Parser) :
  (pure b : Parse α).Gives p a q ↔ a = b ∧ q = p
  := by
  simp only [Gives, pure_apply, Prod.mk.injEq, Option.some.injEq, eq_comm]

/-- A sequence of two actions gives a value when both of them do. -/
@[simp]
theorem gives_bind (x : Parse α) (f : α → Parse β) (p : Parser) (b : β) (q : Parser) :
  (x >>= f).Gives p b q ↔ ∃ a r, x.Gives p a r ∧ (f a).Gives r b q
  := by
  rcases hxp : x p with ⟨_ | a, r⟩
  · simp [Gives, bind_apply, hxp]
  · simp only [Gives, bind_apply, hxp, Prod.mk.injEq, Option.some.injEq]
    constructor
    · intro h
      exact ⟨a, r, ⟨rfl, rfl⟩, h⟩
    · rintro ⟨a, r, ⟨rfl, rfl⟩, h⟩
      apply h

@[simp]
theorem gives_ite {c : Prop} [Decidable c] (x y : Parse α) (p : Parser) (a : α) (q : Parser) :
  (if c then x else y).Gives p a q ↔ if c then x.Gives p a q else y.Gives p a q
  := by
  split <;> rfl

@[simp]
theorem gives_current (p : Parser) (t : Token) (q : Parser) :
  current.Gives p t q ↔ t = p.current ∧ q = p
  := gives_pure p.current p t q

@[simp]
theorem gives_nextIs (kind : Kind) (p : Parser) (b : Bool) (q : Parser) :
  (nextIs kind).Gives p b q ↔ b = p.nextIs kind ∧ q = p
  := gives_pure (p.nextIs kind) p b q

@[simp]
theorem gives_ahead (p : Parser) (ts : List Token) (q : Parser) :
  ahead.Gives p ts q ↔ ts = p.stream.tokens ∧ q = p
  := gives_pure p.stream.tokens p ts q

@[simp]
theorem gives_identifier (p : Parser) (id : Ident) (q : Parser) :
  identifier.Gives p id q ↔ id = ⟨p.current, p.current.text⟩ ∧ q = p
  := gives_pure (⟨p.current, p.current.text⟩ : Ident) p id q

@[simp]
theorem gives_boolean (p : Parser) (e : Expr) (q : Parser) :
  boolean.Gives p e q ↔ e = .boolean p.current (p.currentIs .trueWord) ∧ q = p
  := gives_pure (Expr.boolean p.current (p.currentIs .trueWord)) p e q

@[simp]
theorem gives_advance (p : Parser) (u : Unit) (q : Parser) :
  advance.Gives p u q ↔ q = p.advance
  := by
  simp only [Gives, advance, Prod.mk.injEq, true_and, eq_comm]

@[simp]
theorem not_gives_giveUp (d : Diagnostic) (p : Parser) (a : α) (q : Parser) :
  ¬ (giveUp d : Parse α).Gives p a q
  := by
  simp [Gives, giveUp]

/-- Asking for a token gives something exactly when it is next. -/
@[simp]
theorem gives_expectNext (kind : Kind) (p : Parser) (u : Unit) (q : Parser) :
  (expectNext kind).Gives p u q ↔ p.next.kind = kind ∧ q = p.advance
  := by
  by_cases h : p.next.kind = kind
  · have hp : expectNext kind p = advance p := by simp [expectNext, advance, Parser.nextIs, h]
    rw [gives_congr hp, gives_advance]
    simp [h]
  · simp [Gives, expectNext, Parser.nextIs, h]

@[simp]
theorem gives_recovering (x : Parse α) (p : Parser) (a : α) (q : Parser) :
  (recovering x).Gives p a q ↔ x.Gives p a q
  := by
  rcases hxp : x p with ⟨_ | b, r⟩
  · simp [Gives, recovering, hxp]
  · simp [Gives, recovering, hxp]

/-- An action one level deeper gives what it does there. -/
@[simp]
theorem gives_nested (x : Parse α) (p : Parser) (a : α) (q : Parser) :
  (nested x).Gives p a q ↔ ∃ r, x.Gives p.descend a r ∧ q = r.ascend
  := by
  rcases hxp : x p.descend with ⟨_ | b, r⟩
  · simp [Gives, nested, hxp]
  · simp only [Gives, nested, hxp, Prod.mk.injEq, Option.some.injEq]
    constructor
    · rintro ⟨rfl, rfl⟩
      exact ⟨r, ⟨rfl, rfl⟩, rfl⟩
    · rintro ⟨r, ⟨rfl, rfl⟩, rfl⟩
      exact ⟨rfl, rfl⟩

@[simp]
theorem gives_accounted (x : Parse α) (p : Parser) (a : α) (q : Parser) :
  (accounted x).Gives p a q ↔ ∃ r, x.Gives p a r ∧ q = r.countKept
  := by
  rcases hxp : x p with ⟨_ | b, r⟩
  · simp [Gives, accounted, hxp]
  · simp only [Gives, accounted, hxp, Prod.mk.injEq, Option.some.injEq]
    constructor
    · rintro ⟨rfl, rfl⟩
      exact ⟨r, ⟨rfl, rfl⟩, rfl⟩
    · rintro ⟨r, ⟨rfl, rfl⟩, rfl⟩
      exact ⟨rfl, rfl⟩

/-! ### Names -/

section

variable {p q : Parser}

@[simp]
theorem gives_parametersAfter_nil {read ids : List Ident} :
  (parametersAfter [] read).Gives p ids q ↔ ids = read.reverse ∧ q = p
  := by
  rw [parametersAfter, gives_pure]

/-- One round of the loop of names reads a comma and a name, or nothing. -/
theorem gives_parametersAfter_cons {t : Token} {ahead : List Token} {read ids : List Ident} :
  (parametersAfter (t :: ahead) read).Gives p ids q ↔
    if p.next.kind = .comma then
      p.advance.next.kind = .identifier ∧
        (parametersAfter ahead (⟨p.advance.next, p.advance.next.text⟩ :: read)).Gives
          p.advance.advance ids q
    else ids = read.reverse ∧ q = p
  := by
  simp [parametersAfter, Parser.nextIs_iff, Parser.current_advance]

/-- Parameters are a parenthesis, or names up to one. -/
theorem gives_parameters {ids : List Ident} :
  parameters.Gives p ids q ↔
    if p.next.kind = .rightParen then ids = [] ∧ q = p.advance
    else p.next.kind = .identifier ∧ ∃ r,
      (parametersAfter p.advance.stream.tokens [⟨p.next, p.next.text⟩]).Gives p.advance ids r ∧
        r.next.kind = .rightParen ∧ q = r.advance
  := by
  simp [parameters, Parser.nextIs_iff, Parser.current_advance]

variable {inner : Inner}

/-! ### Statements -/

theorem gives_letStatement {s : Stmt} :
  (letStatement inner).Gives p s q ↔
    p.next.kind = .identifier ∧ p.advance.next.kind = .assign ∧ ∃ value r,
      (inner .lowest).Gives p.advance.advance.advance value r ∧ r.next.kind = .semicolon ∧
        s = .binding p.current ⟨p.next, p.next.text⟩ value ∧ q = r.advance
  := by
  simp [letStatement, Parser.current_advance, and_assoc]

theorem gives_returnStatement {s : Stmt} :
  (returnStatement inner).Gives p s q ↔
    if p.next.kind = .semicolon then s = .returning p.current none ∧ q = p.advance
    else ∃ value r, (inner .lowest).Gives p.advance value r ∧ r.next.kind = .semicolon ∧
      s = .returning p.current (some value) ∧ q = r.advance
  := by
  simp [returnStatement, Parser.nextIs_iff, and_assoc]

/-- An expression is a statement, with a semicolon if one is next. -/
theorem gives_expressionStatement {s : Stmt} :
  (expressionStatement inner).Gives p s q ↔ ∃ value r,
    (inner .lowest).Gives p value r ∧ s = .expression p.current value ∧
      q = if r.nextIs .semicolon then r.advance else r
  := by
  rcases hxp : inner .lowest p with ⟨_ | e, r⟩
  · simp [Gives, expressionStatement, hxp]
  · simp only [Gives, expressionStatement, hxp, Option.map_some, Prod.mk.injEq,
      Option.some.injEq]
    constructor
    · rintro ⟨rfl, rfl⟩
      exact ⟨e, r, ⟨rfl, rfl⟩, rfl, rfl⟩
    · rintro ⟨value, r, ⟨rfl, rfl⟩, rfl, rfl⟩
      exact ⟨rfl, rfl⟩

/-- A block is always given, with the statements that are kept. -/
theorem gives_block {b : Block} :
  (block inner).Gives p b q ↔
    b = .mk p.current (statements inner closesBlock p.advance).1 ∧
      q = (statements inner closesBlock p.advance).2
  := by
  simp only [Gives, block, Prod.mk.injEq, Option.some.injEq, eq_comm]

/-! ### Expressions -/

theorem gives_integer {e : Expr} :
  integer.Gives p e q ↔ ∃ value,
    integerValue? p.current.text = some value ∧ e = .integer p.current value ∧ q = p
  := by
  rcases hvalue : integerValue? p.current.text with _ | value
  · simp [Gives, integer, hvalue]
  · simp [Gives, integer, hvalue, eq_comm]

theorem gives_unary {e : Expr} :
  (unary inner).Gives p e q ↔ ∃ right,
    (inner .unary).Gives p.advance right q ∧ e = .unary p.current p.current.text right
  := by
  simp [unary]

theorem gives_group {e : Expr} :
  (group inner).Gives p e q ↔ ∃ r,
    (inner .lowest).Gives p.advance e r ∧ r.next.kind = .rightParen ∧ q = r.advance
  := by
  simp [group]

theorem gives_alternative {b : Option Block} :
  (alternative inner).Gives p b q ↔
    if p.next.kind = .elseWord then
      p.advance.next.kind = .leftBrace ∧ ∃ b',
        (block inner).Gives p.advance.advance b' q ∧ b = some b'
    else b = none ∧ q = p
  := by
  simp [alternative, Parser.nextIs_iff]

theorem gives_conditional {e : Expr} :
  (conditional inner).Gives p e q ↔
    p.next.kind = .leftParen ∧ ∃ condition r,
      (inner .lowest).Gives p.advance.advance condition r ∧ r.next.kind = .rightParen ∧
        r.advance.next.kind = .leftBrace ∧ ∃ consequence r',
          (block inner).Gives r.advance.advance consequence r' ∧ ∃ second,
            (alternative inner).Gives r' second q ∧
              e = .conditional p.current condition consequence second
  := by
  simp [conditional]

theorem gives_function {e : Expr} :
  (function inner).Gives p e q ↔
    p.next.kind = .leftParen ∧ ∃ ids r,
      parameters.Gives p.advance ids r ∧ r.next.kind = .leftBrace ∧ ∃ body,
        (block inner).Gives r.advance body q ∧ e = .function p.current ids body
  := by
  simp [function]

@[simp]
theorem gives_expressionsAfter_nil {read es : List Expr} :
  (expressionsAfter inner [] read).Gives p es q ↔ es = read.reverse ∧ q = p
  := by
  rw [expressionsAfter, gives_pure]

/-- One round of the loop of expressions reads a comma and an expression, or nothing. -/
theorem gives_expressionsAfter_cons {t : Token} {ahead : List Token} {read es : List Expr} :
  (expressionsAfter inner (t :: ahead) read).Gives p es q ↔
    if p.next.kind = .comma then ∃ e r, (inner .lowest).Gives p.advance.advance e r ∧
      (expressionsAfter inner ahead (e :: read)).Gives r es q
    else es = read.reverse ∧ q = p
  := by
  simp [expressionsAfter, Parser.nextIs_iff]

theorem gives_expressionList {closing : Kind} {es : List Expr} :
  (expressionList inner closing).Gives p es q ↔
    if p.next.kind = closing then es = [] ∧ q = p.advance
    else ∃ first r, (inner .lowest).Gives p.advance first r ∧ ∃ r',
      (expressionsAfter inner r.stream.tokens [first]).Gives r es r' ∧
        r'.next.kind = closing ∧ q = r'.advance
  := by
  simp [expressionList, Parser.nextIs_iff]

theorem gives_binary {left e : Expr} :
  (binary inner left).Gives p e q ↔ ∃ right,
    (inner p.current.kind.precedence).Gives p.advance right q ∧
      e = .binary p.current left p.current.text right
  := by
  simp [binary]

theorem gives_call {left e : Expr} :
  (call inner left).Gives p e q ↔ ∃ arguments,
    (expressionList inner .rightParen).Gives p arguments q ∧ e = .call p.current left arguments
  := by
  simp [call]

/-- A parenthesis extends an expression to a call, and any other token to a binary expression. -/
theorem gives_extension {left e : Expr} :
  (extension inner left).Gives p e q ↔
    if p.current.kind = .leftParen then (call inner left).Gives p e q
    else (binary inner left).Gives p e q
  := by
  by_cases h : p.current.kind = .leftParen
  · rw [if_pos h, gives_congr]
    simp [extension, h]
  · rw [if_neg h, gives_congr]
    simp [extension, h]

theorem extensions_nil_eq_some {strength : Precedence} {left e : Expr} :
  extensions inner strength [] left p = (some e, q) ↔ e = left ∧ q = p
  := gives_pure left p e q

/-- One round of the loop of extensions extends the expression, or leaves it before a token that
does not bind more strongly. -/
theorem extensions_cons_eq_some {strength : Precedence} {t : Token} {ahead : List Token}
    {left e : Expr} :
  extensions inner strength (t :: ahead) left p = (some e, q) ↔
    if strength < p.next.kind.precedence then ∃ e' r,
      (extension inner left).Gives p.advance e' r ∧
        extensions inner strength ahead e' r = (some e, q)
    else e = left ∧ q = p
  := by
  rw [extensions]
  split
  · rcases hxp : extension inner left p.advance with ⟨_ | e', r⟩
    · simp [Gives, hxp]
    · simp only [Gives, hxp, Prod.mk.injEq, Option.some.injEq]
      constructor
      · intro h
        exact ⟨e', r, ⟨rfl, rfl⟩, h⟩
      · rintro ⟨e', r, ⟨rfl, rfl⟩, h⟩
        apply h
  · apply gives_pure

theorem gives_climb {strength : Precedence} {e : Expr} :
  (climb inner strength).Gives p e q ↔ ∃ left r, (operand inner).Gives p left r ∧
    extensions inner strength r.stream.tokens left r = (some e, q)
  := by
  rw [climb, gives_bind]
  constructor
  · rintro ⟨left, r, hleft, h⟩
    obtain ⟨ts, r', hts, h⟩ := (gives_bind _ _ r e q).mp h
    obtain ⟨rfl, rfl⟩ := (gives_ahead r ts r').mp hts
    exact ⟨left, r', hleft, h⟩
  · rintro ⟨left, r, hleft, h⟩
    refine ⟨left, r, hleft, (gives_bind _ _ r e q).mpr ?_⟩
    exact ⟨r.stream.tokens, r, (gives_ahead r _ r).mpr ⟨rfl, rfl⟩, h⟩

end

end Parse

end MonkeySyntax
