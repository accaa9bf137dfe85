import MonkeySyntax.Parser.Statement
import MonkeySyntax.Numeral

/-!
# Parsing expressions

An expression starts with an operand, and is extended by binary operators and by calls for
as long as the next token binds more strongly than a given strength.  The operand may be an
operator with its own operand, a group in parentheses, a choice, or a function.

The actions are given the parser `inner` of the expressions within, which are one level
deeper.  `expressionWithin n` is the parser of expressions with `n` levels left, and gives
up when there is none: it then skips to the end of the statement.
-/

namespace MonkeySyntax

namespace Parse

/-- The greatest value of an integer, which is one less than two to the power of `63`. -/
def maxInteger : Int :=
  9223372036854775807

/-- Whether a value is neither too small nor too great for an integer. -/
def isInRange (value : Int) : Bool :=
  -maxInteger - 1 ≤ value && value ≤ maxInteger

/-- The value of the text of an integer token. -/
def integerValue? (text : String) : Option Int :=
  (Numeral.value? text).filter isInRange

/-- The current token as an integer. -/
def integer : Parse Expr :=
  fun p =>
    match integerValue? p.current.text with
    | some value => (some (.integer p.current value), p)
    | none => (none, p.report (.badInteger p.current.text))

/-- The current token as a truth value. -/
def boolean : Parse Expr :=
  fun p => (some (.boolean p.current (p.currentIs .trueWord)), p)

/-- An operator and its operand. -/
def unary (inner : Inner) : Parse Expr := do
  let operator ← current
  advance
  let right ← inner .unary
  return .unary operator operator.text right

/-- An expression in parentheses. -/
def group (inner : Inner) : Parse Expr := do
  advance
  let e ← inner .lowest
  expectNext .rightParen
  return e

/-- The second block of a choice, if the next token is `else`. -/
def alternative (inner : Inner) : Parse (Option Block) := do
  if ← nextIs .elseWord then
    advance
    expectNext .leftBrace
    let b ← block inner
    return some b
  else
    return none

/-- A choice between two blocks. -/
def conditional (inner : Inner) : Parse Expr := do
  let word ← current
  expectNext .leftParen
  advance
  let condition ← inner .lowest
  expectNext .rightParen
  expectNext .leftBrace
  let consequence ← block inner
  let alternative ← alternative inner
  return .conditional word condition consequence alternative

/-- Names after commas, put behind names read before, which come newest first.  Each of
them passes two tokens, so there are no more rounds than tokens `ahead`. -/
def parametersAfter (ahead : List Token) (read : List Ident) : Parse (List Ident) :=
  match ahead with
  | [] => return read.reverse
  | _ :: ahead => do
    if ← nextIs .comma then
      advance
      expectNext .identifier
      let id ← identifier
      parametersAfter ahead (id :: read)
    else
      return read.reverse

/-- The parameters of a function, from the opening parenthesis to the closing one. -/
def parameters : Parse (List Ident) := do
  if ← nextIs .rightParen then
    advance
    return []
  else
    expectNext .identifier
    let first ← identifier
    let ids ← parametersAfter (← ahead) [first]
    expectNext .rightParen
    return ids

/-- A function, with its parameters and its body. -/
def function (inner : Inner) : Parse Expr := do
  let word ← current
  expectNext .leftParen
  let parameters ← parameters
  expectNext .leftBrace
  let body ← block inner
  return .function word parameters body

/-- Expressions after commas, put behind expressions read before, which come newest first.
Each of them passes two tokens, so there are no more rounds than tokens `ahead`. -/
def expressionsAfter (inner : Inner) (ahead : List Token) (read : List Expr) :
    Parse (List Expr) :=
  match ahead with
  | [] => return read.reverse
  | _ :: ahead => do
    if ← nextIs .comma then
      advance
      advance
      let e ← inner .lowest
      expressionsAfter inner ahead (e :: read)
    else
      return read.reverse

/-- Expressions with commas between them, from an opening token to a closing one. -/
def expressionList (inner : Inner) (closing : Kind) : Parse (List Expr) := do
  if ← nextIs closing then
    advance
    return []
  else
    advance
    let first ← inner .lowest
    let es ← expressionsAfter inner (← ahead) [first]
    expectNext closing
    return es

/-- The operand that starts with the current token. -/
def operand (inner : Inner) : Parse Expr :=
  fun p =>
    match p.current.kind with
    | .identifier => (some (.name ⟨p.current, p.current.text⟩), p)
    | .integer => integer p
    | .trueWord | .falseWord => boolean p
    | .bang | .minus => unary inner p
    | .leftParen => group inner p
    | .ifWord => conditional inner p
    | .functionWord => function inner p
    | kind => (none, p.report (.noOperand kind))

/-- An expression extended by the operator that is the current token. -/
def binary (inner : Inner) (left : Expr) : Parse Expr := do
  let operator ← current
  advance
  let right ← inner operator.kind.precedence
  return .binary operator left operator.text right

/-- A call of an expression, with the arguments after the current token. -/
def call (inner : Inner) (function : Expr) : Parse Expr := do
  let parenthesis ← current
  let arguments ← expressionList inner .rightParen
  return .call parenthesis function arguments

/-- An expression extended by a call or by an operator, as the current token tells. -/
def extension (inner : Inner) (left : Expr) : Parse Expr :=
  fun p => if p.currentIs .leftParen then call inner left p else binary inner left p

/-- An expression extended for as long as the next token binds more strongly than a
strength.  Each extension passes a token, so there are no more rounds than tokens
`ahead`. -/
def extensions (inner : Inner) (strength : Precedence) (ahead : List Token) (left : Expr)
    (p : Parser) : Option Expr × Parser :=
  match ahead with
  | [] => (some left, p)
  | _ :: ahead =>
    if strength < p.next.kind.precedence then
      match extension inner left p.advance with
      | (some e, q) => extensions inner strength ahead e q
      | (none, q) => (none, q)
    else
      (some left, p)

/-- An operand with all the extensions that bind more strongly than a strength. -/
def climb (inner : Inner) (strength : Precedence) : Parse Expr := do
  let left ← operand inner
  let ahead ← ahead
  extensions inner strength ahead left

/-- Give up for want of levels, and skip to the end of the statement. -/
def refuseDepth : Parse Expr :=
  recovering (giveUp .tooDeep)

/-- An expression, with a number of levels left for it and the expressions within it. -/
def expressionWithin : Nat → Inner
  | 0, _ => refuseDepth
  | levels + 1, strength => nested (climb (expressionWithin levels) strength)

/-- An expression, with the levels that the depth of the parser leaves. -/
def expression : Inner :=
  fun strength p => expressionWithin (maxNesting - p.depth) strength p

end Parse

end MonkeySyntax
