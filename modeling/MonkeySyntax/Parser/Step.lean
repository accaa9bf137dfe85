import MonkeySyntax.Parser.Program

/-!
# Stepping a parser

A parser may also be driven by hand, one `Step` at a time: each parsing action can be run on
whatever the current token is, and the window can be moved and asked about.  `Step.run`
gives the answer of a step and the parser after it, and `runAll` runs steps one after the
other.
-/

namespace MonkeySyntax

/-- Something to do with a parser. -/
inductive Step where
  | advance
  | skipToTerminator
  | currentIs (kind : Kind)
  | nextIs (kind : Kind)
  | expectNext (kind : Kind)
  | reportUnexpected (kind : Kind)
  | reportNoOperand (kind : Kind)
  | nextPrecedence
  | currentPrecedence
  | diagnostics
  | program
  | statement
  | letStatement
  | returnStatement
  | expressionStatement
  | block
  | expression (strength : Precedence)
  | operand
  | identifier
  | integer
  | boolean
  | unary
  | group
  | conditional
  | function
  | parameters
  | expressionList (closing : Kind)
  | extension (left : Expr)
  | binary (left : Expr)
  | call (left : Expr)
deriving Repr

/-- The answer to a step. -/
inductive Answer where
  /-- The step asks for nothing. -/
  | done
  | truth (value : Bool)
  | precedence (value : Precedence)
  | diagnostics (ds : List Diagnostic)
  | node (node : Node)
  | nodes (nodes : List Node)
  /-- The step asks for a tree, or for several, and was given up. -/
  | givenUp
deriving Repr, DecidableEq

namespace Answer

/-- The answer of an action, which is given up or gives an answer. -/
def ofAction {α : Type} (answer : α → Answer) (r : Option α × Parser) : Answer × Parser :=
  match r with
  | (some a, p) => (answer a, p)
  | (none, p) => (givenUp, p)

/-- The answer of an action on a statement. -/
def ofStmt : Option Stmt × Parser → Answer × Parser :=
  ofAction (fun s => .node (.statement s))

/-- The answer of an action on an expression. -/
def ofExpr : Option Expr × Parser → Answer × Parser :=
  ofAction (fun e => .node (.expression e))

end Answer

namespace Step

/-- The answer to a step, and the parser after it. -/
def run (p : Parser) : Step → Answer × Parser
  | advance => (.done, p.advance)
  | skipToTerminator => (.done, p.skipToTerminator)
  | currentIs kind => (.truth (p.currentIs kind), p)
  | nextIs kind => (.truth (p.nextIs kind), p)
  | expectNext kind =>
    match Parse.expectNext kind p with
    | (r, q) => (.truth r.isSome, q)
  | reportUnexpected kind => (.done, p.report (.unexpected kind p.next.kind))
  | reportNoOperand kind => (.done, p.report (.noOperand kind))
  | nextPrecedence => (.precedence p.next.kind.precedence, p)
  | currentPrecedence => (.precedence p.current.kind.precedence, p)
  | diagnostics => (.diagnostics p.diagnostics, p)
  | program =>
    match p.program with
    | (tree, q) => (.node (.program tree), q)
  | statement => Answer.ofStmt (Parse.statement Parse.expression p)
  | letStatement => Answer.ofStmt (Parse.letStatement Parse.expression p)
  | returnStatement => Answer.ofStmt (Parse.returnStatement Parse.expression p)
  | expressionStatement => Answer.ofStmt (Parse.expressionStatement Parse.expression p)
  | block =>
    Answer.ofAction (fun b => .node (.statement (.block b))) (Parse.block Parse.expression p)
  | expression strength => Answer.ofExpr (Parse.expression strength p)
  | operand => Answer.ofExpr (Parse.operand Parse.expression p)
  | identifier => Answer.ofAction (fun id => .node (.expression (.name id))) (Parse.identifier p)
  | integer => Answer.ofExpr (Parse.integer p)
  | boolean => Answer.ofExpr (Parse.boolean p)
  | unary => Answer.ofExpr (Parse.unary Parse.expression p)
  | group => Answer.ofExpr (Parse.group Parse.expression p)
  | conditional => Answer.ofExpr (Parse.conditional Parse.expression p)
  | function => Answer.ofExpr (Parse.function Parse.expression p)
  | parameters =>
    Answer.ofAction (fun ids => .nodes (ids.map (fun id => .expression (.name id))))
      (Parse.parameters p)
  | expressionList closing =>
    Answer.ofAction (fun es => .nodes (es.map .expression))
      (Parse.expressionList Parse.expression closing p)
  | extension left => Answer.ofExpr (Parse.extension Parse.expression left p)
  | binary left => Answer.ofExpr (Parse.binary Parse.expression left p)
  | call left => Answer.ofExpr (Parse.call Parse.expression left p)

/-- The parser after several steps. -/
def runAll (p : Parser) (steps : List Step) : Parser :=
  steps.foldl (fun p s => (s.run p).2) p

end Step

/-- The diagnostics that have been reported since an earlier state of the parser. -/
def Parser.diagnosticsSince (p earlier : Parser) : List Diagnostic :=
  p.diagnostics.drop earlier.reported.length

end MonkeySyntax
