import MonkeySyntax.Parser.Action
import MonkeySyntax.Tree.Basic

/-!
# Parsing statements

Each action here is given the parser `inner` of the expressions in the statement.  A
statement is a `let` binding, a `return`, or else an expression.  Bindings and returns need
their semicolon, and when one is given up the rest of it is skipped.  After an expression a
semicolon is passed if there is one, whether or not the expression was given up.

A block goes on to its closing brace, or to the end of the input.  A statement that is
given up is left out of it, and the block goes on.
-/

namespace MonkeySyntax

namespace Parse

/-- A parser of expressions, given the strength beyond which operators extend them. -/
abbrev Inner : Type :=
  Precedence → Parse Expr

/-- The current token as a name. -/
def identifier : Parse Ident :=
  fun p => (some ⟨p.current, p.current.text⟩, p)

/-- The binding of a name, from `let` to the semicolon. -/
def letStatement (inner : Inner) : Parse Stmt :=
  recovering do
    let word ← current
    expectNext .identifier
    let name ← identifier
    expectNext .assign
    advance
    let value ← inner .lowest
    expectNext .semicolon
    return .binding word name value

/-- A return with its value, if it has one, up to the semicolon. -/
def returnStatement (inner : Inner) : Parse Stmt :=
  recovering do
    let word ← current
    if ← nextIs .semicolon then
      advance
      return .returning word none
    else
      advance
      let value ← inner .lowest
      expectNext .semicolon
      return .returning word (some value)

/-- An expression as a statement, with the semicolon after it if there is one. -/
def expressionStatement (inner : Inner) : Parse Stmt :=
  fun p =>
    match inner .lowest p with
    | (value, q) =>
      (value.map (.expression p.current), if q.nextIs .semicolon then q.advance else q)

/-- A statement, of the sort that the current token tells. -/
def statement (inner : Inner) : Parse Stmt :=
  accounted fun p =>
    match p.current.kind with
    | .letWord => letStatement inner p
    | .returnWord => returnStatement inner p
    | _ => expressionStatement inner p

/-- Statements up to a token of a closing kind, put behind statements read before, which
come newest first.  A statement passes at least one token, so there are no more rounds than
tokens `ahead`. -/
def statementsAfter (inner : Inner) (closes : Kind → Bool) (ahead : List Token)
    (read : List Stmt) (p : Parser) : List Stmt × Parser :=
  match ahead with
  | [] => (read.reverse, p)
  | _ :: ahead =>
    if closes p.current.kind then
      (read.reverse, p)
    else match statement inner p with
      | (some s, q) => statementsAfter inner closes ahead (s :: read) q.advance
      | (none, q) => statementsAfter inner closes ahead read q.advance

/-- Statements up to a token of a closing kind. -/
def statements (inner : Inner) (closes : Kind → Bool) (p : Parser) : List Stmt × Parser :=
  statementsAfter inner closes p.stream.tokens [] p

/-- Whether a kind closes a block. -/
def closesBlock (kind : Kind) : Bool :=
  kind == .rightBrace || kind == .endOfInput

/-- Whether a kind closes a program. -/
def closesProgram (kind : Kind) : Bool :=
  kind == .endOfInput

/-- A block, whose opening brace is the current token. -/
def block (inner : Inner) : Parse Block :=
  fun p =>
    match statements inner closesBlock p.advance with
    | (ss, q) => (some (.mk p.current ss), q)

end Parse

end MonkeySyntax
