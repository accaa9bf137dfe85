import Mathlib.Logic.Relation
import MonkeySyntax.Proofs.Parser.Rounds

/-!
# Quiet runs

`x.Yields p a q` says that the action `x` gives `a`, takes the parser from `p` to `q`, and
reports nothing on the way, not even within blocks.  A quiet run of an orderly sequence of
actions consists of quiet runs of these (`yields_bind`), so every action of the parser has a
lemma that tells its quiet runs step by step.  The loops are told by relations that do not
count tokens: `Parse.Extends` is one extension of an expression.
-/

namespace MonkeySyntax

namespace Parse

variable {α β : Type}

/-- An action gives a value without a report. -/
def Yields (x : Parse α) (p : Parser) (a : α) (q : Parser) : Prop :=
  x p = (some a, q) ∧ q.reported = p.reported

/-- A quiet run reaches the parser it leaves. -/
theorem Yields.reaches {x : Parse α} [hx : x.Orderly] {p q : Parser} {a : α}
    (h : x.Yields p a q) :
  p.Reaches q
  := by
  have hr := hx.reaches p
  rw [h.1] at hr
  apply hr

/-- An orderly action that reports nothing gives a value. -/
theorem exists_yields {x : Parse α} [hx : x.Orderly] {p : Parser}
    (h : (x p).2.reported = p.reported) :
  ∃ a, x.Yields p a (x p).2
  := by
  rcases hxp : x p with ⟨_ | a, q⟩
  · have hlt := hx.reports p
    rw [hxp] at h hlt
    dsimp only at h
    simp [h] at hlt
  · rw [hxp] at h
    exact ⟨a, hxp, h⟩

theorem yields_congr {x y : Parse α} {p : Parser} (h : x p = y p) (a : α) (q : Parser) :
  x.Yields p a q ↔ y.Yields p a q
  := by
  simp only [Yields, h]

@[simp]
theorem yields_pure (b : α) (p : Parser) (a : α) (q : Parser) :
  (pure b : Parse α).Yields p a q ↔ a = b ∧ q = p
  := by
  simp only [Yields, pure_apply, Prod.mk.injEq, Option.some.injEq]
  constructor
  · rintro ⟨⟨rfl, rfl⟩, -⟩
    exact ⟨rfl, rfl⟩
  · rintro ⟨rfl, rfl⟩
    exact ⟨⟨rfl, rfl⟩, rfl⟩

/-- A sequence of two actions runs quietly when both of them do. -/
@[simp]
theorem yields_bind {x : Parse α} {f : α → Parse β} [hx : x.Orderly]
    [hf : ∀ a, (f a).Orderly] (p : Parser) (b : β) (q : Parser) :
  (x >>= f).Yields p b q ↔ ∃ a r, x.Yields p a r ∧ (f a).Yields r b q
  := by
  constructor
  · rintro ⟨h, hq⟩
    have hxr := hx.reaches p
    rw [bind_apply] at h
    rcases hxp : x p with ⟨_ | a, r⟩
    · simp [hxp] at h
    · rw [hxp] at h hxr
      have hfr := (hf a).reaches r
      simp only at h
      rw [h] at hfr
      have hr := hxr.reported_eq hfr hq
      exact ⟨a, r, ⟨hxp, hr⟩, h, hq.trans hr.symm⟩
  · rintro ⟨a, r, ⟨hxp, hr⟩, h, hq⟩
    constructor
    · rw [bind_apply, hxp]
      apply h
    · rw [hq, hr]

@[simp]
theorem yields_ite {c : Prop} [Decidable c] (x y : Parse α) (p : Parser) (a : α) (q : Parser) :
  (if c then x else y).Yields p a q ↔ if c then x.Yields p a q else y.Yields p a q
  := by
  split <;> rfl

@[simp]
theorem yields_current (p : Parser) (t : Token) (q : Parser) :
  current.Yields p t q ↔ t = p.current ∧ q = p
  := yields_pure p.current p t q

@[simp]
theorem yields_nextIs (kind : Kind) (p : Parser) (b : Bool) (q : Parser) :
  (nextIs kind).Yields p b q ↔ b = p.nextIs kind ∧ q = p
  := yields_pure (p.nextIs kind) p b q

@[simp]
theorem yields_ahead (p : Parser) (ts : List Token) (q : Parser) :
  ahead.Yields p ts q ↔ ts = p.stream.tokens ∧ q = p
  := yields_pure p.stream.tokens p ts q

@[simp]
theorem yields_identifier (p : Parser) (id : Ident) (q : Parser) :
  identifier.Yields p id q ↔ id = ⟨p.current, p.current.text⟩ ∧ q = p
  := yields_pure (⟨p.current, p.current.text⟩ : Ident) p id q

@[simp]
theorem yields_boolean (p : Parser) (e : Expr) (q : Parser) :
  boolean.Yields p e q ↔ e = .boolean p.current (p.currentIs .trueWord) ∧ q = p
  := yields_pure (Expr.boolean p.current (p.currentIs .trueWord)) p e q

@[simp]
theorem yields_advance (p : Parser) (u : Unit) (q : Parser) :
  advance.Yields p u q ↔ q = p.advance
  := by
  simp only [Yields, advance, Prod.mk.injEq, true_and]
  constructor
  · rintro ⟨rfl, -⟩
    rfl
  · rintro rfl
    exact ⟨rfl, rfl⟩

theorem not_yields_giveUp (d : Diagnostic) (p : Parser) (a : α) (q : Parser) :
  ¬ (giveUp d : Parse α).Yields p a q
  := by
  simp [Yields, giveUp]

/-- Asking for a token is quiet exactly when it is next. -/
@[simp]
theorem yields_expectNext (kind : Kind) (p : Parser) (u : Unit) (q : Parser) :
  (expectNext kind).Yields p u q ↔ p.next.kind = kind ∧ q = p.advance
  := by
  by_cases h : p.next.kind = kind
  · have hp : expectNext kind p = advance p := by simp [expectNext, advance, Parser.nextIs, h]
    rw [yields_congr hp, yields_advance]
    simp [h]
  · simp [Yields, expectNext, Parser.nextIs, h]

@[simp]
theorem yields_recovering (x : Parse α) (p : Parser) (a : α) (q : Parser) :
  (recovering x).Yields p a q ↔ x.Yields p a q
  := by
  rcases hxp : x p with ⟨_ | b, r⟩
  · simp [Yields, recovering, hxp]
  · simp [Yields, recovering, hxp]

/-- An action runs quietly one level deeper as it does there. -/
theorem yields_nested (x : Parse α) (p : Parser) (a : α) (q : Parser) :
  (nested x).Yields p a q ↔ ∃ r, x.Yields p.descend a r ∧ q = r.ascend
  := by
  simp only [Yields, nested, Prod.mk.injEq]
  constructor
  · rintro ⟨⟨ha, rfl⟩, hq⟩
    exact ⟨(x p.descend).2, ⟨Prod.ext ha rfl, hq⟩, rfl⟩
  · rintro ⟨r, ⟨hx, hr⟩, rfl⟩
    simp only [hx, true_and]
    apply hr

theorem yields_accounted (x : Parse α) (p : Parser) (a : α) (q : Parser) :
  (accounted x).Yields p a q ↔ ∃ r, x.Yields p a r ∧ q = r.countKept
  := by
  rcases hxp : x p with ⟨_ | b, r⟩
  · simp [Yields, accounted, hxp]
  · simp only [Yields, accounted, hxp, Prod.mk.injEq, Option.some.injEq]
    constructor
    · rintro ⟨⟨rfl, rfl⟩, hq⟩
      exact ⟨r, ⟨⟨rfl, rfl⟩, hq⟩, rfl⟩
    · rintro ⟨s, ⟨⟨rfl, rfl⟩, hs⟩, rfl⟩
      exact ⟨⟨rfl, rfl⟩, hs⟩

/-! ### Statements -/

/-- An expression is read quietly as a statement, with a semicolon if one is next. -/
theorem yields_expressionStatement (inner : Inner) (p : Parser) (s : Stmt) (q : Parser) :
  (expressionStatement inner).Yields p s q ↔
    ∃ e r, (inner .lowest).Yields p e r ∧ s = .expression p.current e ∧
      q = if r.next.kind = .semicolon then r.advance else r
  := by
  have hreported (r : Parser) :
      (if r.next.kind = .semicolon then r.advance else r).reported = r.reported := by
    split <;> rfl
  rcases hxp : inner .lowest p with ⟨_ | e, r⟩
  · simp [Yields, expressionStatement, hxp]
  · simp only [Yields, expressionStatement, hxp, Option.map_some, Parser.nextIs_iff,
      Prod.mk.injEq, Option.some.injEq]
    constructor
    · rintro ⟨⟨rfl, rfl⟩, hq⟩
      rw [hreported] at hq
      exact ⟨e, r, ⟨⟨rfl, rfl⟩, hq⟩, rfl, rfl⟩
    · rintro ⟨e, r, ⟨⟨rfl, rfl⟩, hr⟩, rfl, rfl⟩
      rw [hreported]
      exact ⟨⟨rfl, rfl⟩, hr⟩

/-- A statement runs quietly as the sort of statement that its first token tells. -/
theorem yields_statement (inner : Inner) (p : Parser) (s : Stmt) (q : Parser) :
  (statement inner).Yields p s q ↔
    ∃ r, q = r.countKept ∧
      if p.current.kind = .letWord then (letStatement inner).Yields p s r
      else if p.current.kind = .returnWord then (returnStatement inner).Yields p s r
      else (expressionStatement inner).Yields p s r
  := by
  rw [statement]
  apply (yields_accounted _ p s q).trans
  apply exists_congr
  intro r
  rw [and_comm, and_congr_right_iff]
  intro _
  by_cases hlet : p.current.kind = .letWord
  · rw [if_pos hlet]
    apply yields_congr
    simp [hlet]
  · by_cases hreturn : p.current.kind = .returnWord
    · rw [if_neg hlet, if_pos hreturn]
      apply yields_congr
      simp [hreturn]
    · rw [if_neg hlet, if_neg hreturn]
      apply yields_congr
      simp

section Statements

variable {inner : Inner} [∀ strength, (inner strength).Orderly]

theorem yields_letStatement (p : Parser) (s : Stmt) (q : Parser) :
  (letStatement inner).Yields p s q ↔
    p.next.kind = .identifier ∧ p.advance.next.kind = .assign ∧
      ∃ e r, (inner .lowest).Yields p.advance.advance.advance e r ∧ r.next.kind = .semicolon ∧
        s = .binding p.current ⟨p.next, p.next.text⟩ e ∧ q = r.advance
  := by
  simp [letStatement, and_assoc]

theorem yields_returnStatement (p : Parser) (s : Stmt) (q : Parser) :
  (returnStatement inner).Yields p s q ↔
    if p.next.kind = .semicolon then
      s = .returning p.current none ∧ q = p.advance
    else
      ∃ e r, (inner .lowest).Yields p.advance e r ∧ r.next.kind = .semicolon ∧
        s = .returning p.current (some e) ∧ q = r.advance
  := by
  simp [returnStatement, and_assoc]

end Statements

/-! ### Expressions -/

theorem yields_integer (p : Parser) (e : Expr) (q : Parser) :
  integer.Yields p e q ↔
    ∃ value, integerValue? p.current.text = some value ∧ e = .integer p.current value ∧ q = p
  := by
  rcases hvalue : integerValue? p.current.text with _ | value
  · simp [Yields, integer, hvalue]
  · rw [yields_congr (y := pure (.integer p.current value)) (by simp [integer, hvalue, pure_apply])]
    simp

theorem yields_parameters (p : Parser) (ids : List Ident) (q : Parser) :
  parameters.Yields p ids q ↔
    if p.next.kind = .rightParen then
      ids = [] ∧ q = p.advance
    else
      p.next.kind = .identifier ∧ ∃ r,
        (parametersAfter p.advance.stream.tokens [⟨p.next, p.next.text⟩]).Yields p.advance ids r ∧
          r.next.kind = .rightParen ∧ q = r.advance
  := by
  simp [parameters]

/-- A parenthesis extends an expression to a call, and any other token to a binary expression. -/
theorem yields_extension (inner : Inner) (left : Expr) (p : Parser) (e : Expr) (q : Parser) :
  (extension inner left).Yields p e q ↔
    if p.current.kind = .leftParen then (call inner left).Yields p e q
    else (binary inner left).Yields p e q
  := by
  by_cases h : p.current.kind = .leftParen
  · rw [if_pos h, yields_congr]
    simp [extension, h]
  · rw [if_neg h, yields_congr]
    simp [extension, h]

section Expressions

variable {inner : Inner} [∀ strength, (inner strength).Orderly]

theorem yields_unary (p : Parser) (e : Expr) (q : Parser) :
  (unary inner).Yields p e q ↔
    ∃ right, (inner .unary).Yields p.advance right q ∧
      e = .unary p.current p.current.text right
  := by
  simp [unary]

theorem yields_group (p : Parser) (e : Expr) (q : Parser) :
  (group inner).Yields p e q ↔
    ∃ r, (inner .lowest).Yields p.advance e r ∧ r.next.kind = .rightParen ∧ q = r.advance
  := by
  simp [group]

theorem yields_alternative (p : Parser) (b : Option Block) (q : Parser) :
  (alternative inner).Yields p b q ↔
    if p.next.kind = .elseWord then
      p.advance.next.kind = .leftBrace ∧
        ∃ b', (block inner).Yields p.advance.advance b' q ∧ b = some b'
    else
      b = none ∧ q = p
  := by
  simp [alternative]

set_option synthInstance.maxSize 512 in
theorem yields_conditional (p : Parser) (e : Expr) (q : Parser) :
  (conditional inner).Yields p e q ↔
    p.next.kind = .leftParen ∧ ∃ condition r,
      (inner .lowest).Yields p.advance.advance condition r ∧ r.next.kind = .rightParen ∧
        r.advance.next.kind = .leftBrace ∧ ∃ consequence r',
          (block inner).Yields r.advance.advance consequence r' ∧ ∃ alternative,
            (Parse.alternative inner).Yields r' alternative q ∧
              e = .conditional p.current condition consequence alternative
  := by
  simp [conditional]

theorem yields_function (p : Parser) (e : Expr) (q : Parser) :
  (function inner).Yields p e q ↔
    p.next.kind = .leftParen ∧ ∃ ids r, parameters.Yields p.advance ids r ∧
      r.next.kind = .leftBrace ∧ ∃ body, (block inner).Yields r.advance body q ∧
        e = .function p.current ids body
  := by
  simp [function]

theorem yields_expressionList (closing : Kind) (p : Parser) (es : List Expr) (q : Parser) :
  (expressionList inner closing).Yields p es q ↔
    if p.next.kind = closing then
      es = [] ∧ q = p.advance
    else
      ∃ e r, (inner .lowest).Yields p.advance e r ∧ ∃ r',
        (expressionsAfter inner r.stream.tokens [e]).Yields r es r' ∧
          r'.next.kind = closing ∧ q = r'.advance
  := by
  simp [expressionList]

omit [∀ strength, (inner strength).Orderly] in
/-- An operand runs quietly as the sort of operand that its first token tells. -/
theorem yields_operand (p : Parser) (e : Expr) (q : Parser) :
  (operand inner).Yields p e q ↔
    match p.current.kind with
    | .identifier => e = .name ⟨p.current, p.current.text⟩ ∧ q = p
    | .integer => integer.Yields p e q
    | .trueWord | .falseWord => e = .boolean p.current (p.currentIs .trueWord) ∧ q = p
    | .bang | .minus => (unary inner).Yields p e q
    | .leftParen => (group inner).Yields p e q
    | .ifWord => (conditional inner).Yields p e q
    | .functionWord => (function inner).Yields p e q
    | _ => False
  := by
  rcases hkind : p.current.kind
  case identifier =>
    rw [yields_congr (y := pure (.name ⟨p.current, p.current.text⟩))]
    · apply yields_pure
    · simp [operand, hkind, pure_apply]
  case trueWord | falseWord =>
    rw [yields_congr (y := boolean)]
    · apply yields_boolean
    · simp [operand, hkind]
  case integer | bang | minus | leftParen | ifWord | functionWord =>
    apply yields_congr
    simp [operand, hkind]
  all_goals simp [Yields, operand, hkind]

theorem yields_binary (left : Expr) (p : Parser) (e : Expr) (q : Parser) :
  (binary inner left).Yields p e q ↔
    ∃ right, (inner p.current.kind.precedence).Yields p.advance right q ∧
      e = .binary p.current left p.current.text right
  := by
  simp [binary]

theorem yields_call (function : Expr) (p : Parser) (e : Expr) (q : Parser) :
  (call inner function).Yields p e q ↔
    ∃ es, (expressionList inner .rightParen).Yields p es q ∧ e = .call p.current function es
  := by
  simp [call]

/-! ### Loops -/

/-- One round of the loop of names reads a comma and a name, or nothing. -/
theorem yields_parametersAfter (ahead : List Token) (read : List Ident) (p : Parser)
    (h : p.stream.tokens.length ≤ ahead.length) (ids : List Ident) (q : Parser) :
  (parametersAfter ahead read).Yields p ids q ↔
    if p.next.kind = .comma then
      p.advance.next.kind = .identifier ∧
        (parametersAfter ahead.tail (⟨p.advance.next, p.advance.next.text⟩ :: read)).Yields
          p.advance.advance ids q
    else
      ids = read.reverse ∧ q = p
  := by
  cases ahead with
  | nil =>
    have hnext := Parser.kind_next_of_tokens (List.length_eq_zero_iff.mp (Nat.le_zero.mp h))
    simp [parametersAfter, hnext]
  | cons t ahead => simp [parametersAfter]

/-- One round of the loop of expressions reads a comma and an expression, or nothing. -/
theorem yields_expressionsAfter (ahead : List Token) (read : List Expr) (p : Parser)
    (h : p.stream.tokens.length ≤ ahead.length) (es : List Expr) (q : Parser) :
  (expressionsAfter inner ahead read).Yields p es q ↔
    if p.next.kind = .comma then
      ∃ e r, (inner .lowest).Yields p.advance.advance e r ∧
        (expressionsAfter inner ahead.tail (e :: read)).Yields r es q
    else
      es = read.reverse ∧ q = p
  := by
  cases ahead with
  | nil =>
    have hnext := Parser.kind_next_of_tokens (List.length_eq_zero_iff.mp (Nat.le_zero.mp h))
    simp [expressionsAfter, hnext]
  | cons t ahead => simp [expressionsAfter]

/-- An expression, with the parser at its last token, is extended by the operator or the call
that comes next, which binds more strongly than a strength. -/
def Extends (inner : Inner) (strength : Precedence) (x y : Expr × Parser) : Prop :=
  strength < x.2.next.kind.precedence ∧ (extension inner x.1).Yields x.2.advance y.1 y.2

/-- An extension passes a token. -/
theorem Extends.length_tokens_lt {strength : Precedence} {x y : Expr × Parser}
    (h : Extends inner strength x y) :
  y.2.stream.tokens.length < x.2.stream.tokens.length
  := by
  have hle := h.2.reaches.length_tokens_le
  rw [Parser.length_tokens_advance] at hle
  have hpos := Parser.length_tokens_pos_of_next (Kind.ne_endOfInput_of_lt h.1)
  omega

/-- A round of the loop of extensions runs quietly when the extension and the rest of the loop
do. -/
theorem yields_extensions_cons {strength : Precedence} (t : Token) (ahead : List Token)
    (left : Expr) {p : Parser} (h : strength < p.next.kind.precedence) (e : Expr) (q : Parser) :
  Yields (extensions inner strength (t :: ahead) left) p e q ↔
    ∃ e' r, (extension inner left).Yields p.advance e' r ∧
      Yields (extensions inner strength ahead e') r e q
  := by
  constructor
  · rintro ⟨heq, hq⟩
    rw [extensions, if_pos h] at heq
    rcases hxp : extension inner left p.advance with ⟨_ | e', r⟩
    · simp [hxp] at heq
    · rw [hxp] at heq
      have hfirst := Orderly.reaches (x := extension inner left) p.advance
      have hrest := Orderly.reaches (x := extensions inner strength ahead e') r
      dsimp only at heq
      rw [hxp] at hfirst
      rw [heq] at hrest
      have hr := hfirst.reported_eq hrest hq
      exact ⟨e', r, ⟨hxp, hr⟩, heq, hq.trans hr.symm⟩
  · rintro ⟨e', r, ⟨hxp, hr⟩, heq, hq⟩
    constructor
    · rw [extensions, if_pos h, hxp]
      apply heq
    · rw [hq, hr]
      rfl

omit [∀ strength, (inner strength).Orderly] in
/-- Before a token that does not bind more strongly there is no extension. -/
theorem yields_extensions_of_stop {strength : Precedence} (ahead : List Token) (left : Expr)
    {p : Parser} (h : ¬ strength < p.next.kind.precedence) {e : Expr} {q : Parser} :
  Yields (extensions inner strength ahead left) p e q ↔
    Relation.ReflTransGen (Extends inner strength) (left, p) (e, q) ∧
      ¬ strength < q.next.kind.precedence
  := by
  have hpure : extensions inner strength ahead left p = (pure left : Parse Expr) p :=
    extensions_of_next h
  rw [yields_congr hpure, yields_pure, Relation.ReflTransGen.cases_head_iff]
  constructor
  · rintro ⟨rfl, rfl⟩
    exact ⟨.inl rfl, h⟩
  · rintro ⟨heq | ⟨x, hx, -⟩, -⟩
    · cases heq
      exact ⟨rfl, rfl⟩
    · cases h hx.1

/-- The loop of extensions runs quietly as a chain of extensions, up to a token that does not bind
more strongly.  After the first extension the chain goes on with fewer tokens ahead. -/
theorem yields_extensions (strength : Precedence) (ahead : List Token) (left : Expr)
    (p : Parser) (h : p.stream.tokens.length ≤ ahead.length) (e : Expr) (q : Parser) :
  Yields (extensions inner strength ahead left) p e q ↔
    Relation.ReflTransGen (Extends inner strength) (left, p) (e, q) ∧
      ¬ strength < q.next.kind.precedence
  := by
  induction ahead generalizing left p with
  | nil =>
    have hnil : p.stream.tokens = [] := List.length_eq_zero_iff.mp (Nat.le_zero.mp h)
    have hstop : ¬ strength < p.next.kind.precedence := by
      rw [Parser.kind_next_of_tokens hnil]
      apply Precedence.not_lt_lowest
    apply yields_extensions_of_stop [] left hstop
  | cons t ahead ih =>
    by_cases hlt : strength < p.next.kind.precedence
    · rw [yields_extensions_cons t ahead left hlt, Relation.ReflTransGen.cases_head_iff]
      have hrest (e' : Expr) (r : Parser) (hx : Extends inner strength (left, p) (e', r)) :=
        ih e' r (Nat.le_of_lt_succ (Nat.lt_of_lt_of_le hx.length_tokens_lt h))
      constructor
      · rintro ⟨e', r, hext, hloop⟩
        obtain ⟨hchain, hstop⟩ := (hrest e' r ⟨hlt, hext⟩).mp hloop
        exact ⟨.inr ⟨(e', r), ⟨hlt, hext⟩, hchain⟩, hstop⟩
      · rintro ⟨heq | ⟨⟨e', r⟩, hx, hchain⟩, hstop⟩
        · cases heq
          cases hstop hlt
        · exact ⟨e', r, hx.2, (hrest e' r hx).mpr ⟨hchain, hstop⟩⟩
    · apply yields_extensions_of_stop (t :: ahead) left hlt

/-- An operand, followed by a chain of extensions. -/
def Climbs (inner : Inner) (strength : Precedence) (p : Parser) (e : Expr) (q : Parser) : Prop :=
  ∃ left r, (operand inner).Yields p left r ∧
    Relation.ReflTransGen (Extends inner strength) (left, r) (e, q)

omit [∀ strength, (inner strength).Orderly] in
/-- A climb goes on by an extension that binds more strongly than asked for. -/
theorem Climbs.extend {strength : Precedence} {p q r : Parser} {e e' : Expr}
    (h : Climbs inner strength p e q) (hlt : strength < q.next.kind.precedence)
    (hext : (extension inner e).Yields q.advance e' r) :
  Climbs inner strength p e' r
  := by
  obtain ⟨left, p', hleft, hchain⟩ := h
  exact ⟨left, p', hleft, hchain.tail ⟨hlt, hext⟩⟩

/-- The loops of a climb stop before a token that does not bind more strongly. -/
theorem yields_climb (strength : Precedence) (p : Parser) (e : Expr) (q : Parser) :
  (climb inner strength).Yields p e q ↔
    Climbs inner strength p e q ∧ ¬ strength < q.next.kind.precedence
  := by
  have horderly (left : Expr) :
      Orderly (fun p : Parser => extensions inner strength p.stream.tokens left p) :=
    .of_agrees (fun p => ⟨extensions inner strength p.stream.tokens left, inferInstance, rfl⟩)
  have hclimb : climb inner strength =
      operand inner >>= fun left p => extensions inner strength p.stream.tokens left p := rfl
  rw [hclimb, @yields_bind _ _ _ _ _ horderly]
  constructor
  · rintro ⟨left, r, hleft, hrest⟩
    obtain ⟨hchain, hstop⟩ :=
      (yields_extensions strength r.stream.tokens left r le_rfl e q).mp hrest
    exact ⟨⟨left, r, hleft, hchain⟩, hstop⟩
  · rintro ⟨⟨left, r, hleft, hchain⟩, hstop⟩
    have hrest := (yields_extensions strength r.stream.tokens left r le_rfl e q).mpr
      ⟨hchain, hstop⟩
    exact ⟨left, r, hleft, hrest⟩

end Expressions

/-- An expression runs quietly one level deeper than it stands. -/
theorem yields_expressionWithin {levels : Nat} {strength : Precedence} {p q : Parser} {e : Expr}
    (h : Climbs (expressionWithin levels) strength p.descend e q)
    (hstop : ¬ strength < q.next.kind.precedence) :
  (expressionWithin (levels + 1) strength).Yields p e q.ascend
  := by
  rw [expressionWithin, yields_nested]
  use q
  rw [yields_climb]
  exact ⟨⟨h, hstop⟩, rfl⟩

end Parse

end MonkeySyntax
