import MonkeySyntax.Tree.Basic

/-!
# Canonical text

`render` writes a tree as source text.  Every unary and binary expression has parentheses
of its own, so no precedence is left to be read off.  A binding and a return end with a
semicolon; an expression statement gets one only before another statement.  A name is
written by its value, a number and a truth value by the text of their token, an operator by
itself.

Chains of binary expressions and calls grow to the left, and may be as long as the source.
They are therefore unwound: `Expr.renderChain` goes down the left side, keeping what each
link adds, and then adds it from the innermost link on.
-/

namespace MonkeySyntax

/-- What an expression on the left is extended by: an operator with a right operand, or the
arguments of a call, both as text. -/
inductive Link where
  | operator (operator : String) (right : String)
  | arguments (texts : List String)
deriving DecidableEq, Repr

/-- A text extended by a link. -/
def Link.extend (left : String) : Link → String
  | operator op right => "(" ++ left ++ " " ++ op ++ " " ++ right ++ ")"
  | arguments texts => left ++ "(" ++ String.intercalate ", " texts ++ ")"

/-- The text of a name. -/
def Ident.render (id : Ident) : String :=
  id.value

mutual

/-- The text of an expression, extended by links, the first of them first. -/
def Expr.renderChain (e : Expr) (links : List Link) : String :=
  match e with
  | .name id => links.foldl Link.extend id.render
  | .integer token _ => links.foldl Link.extend token.text
  | .boolean token _ => links.foldl Link.extend token.text
  | .unary _ operator right =>
    links.foldl Link.extend ("(" ++ operator ++ right.renderChain [] ++ ")")
  | .binary _ left operator right =>
    left.renderChain (.operator operator (right.renderChain []) :: links)
  | .conditional _ condition consequence alternative =>
    links.foldl Link.extend
      ("if (" ++ condition.renderChain [] ++ ") " ++ consequence.render
        ++ Block.renderElse alternative)
  | .function token parameters body =>
    links.foldl Link.extend
      (token.text ++ "(" ++ String.intercalate ", " (parameters.map Ident.render) ++ ") "
        ++ body.render)
  | .call _ function arguments =>
    function.renderChain (.arguments (Expr.renderEach arguments) :: links)

/-- The texts of expressions, one by one. -/
def Expr.renderEach : List Expr → List String
  | [] => []
  | e :: es => e.renderChain [] :: Expr.renderEach es

/-- The text of a statement. -/
def Stmt.render : Stmt → String
  | .binding token name value =>
    token.text ++ " " ++ name.render ++ " = " ++ value.renderChain [] ++ ";"
  | .returning token none => token.text ++ ";"
  | .returning token (some value) => token.text ++ " " ++ value.renderChain [] ++ ";"
  | .expression _ value => value.renderChain []
  | .block body => body.render

/-- The texts of statements, one by one.  An expression that is not the last statement is
followed by a semicolon, so that the statement after it does not extend it. -/
def Stmt.renderEach : List Stmt → List String
  | [] => []
  | s :: ss =>
    (if s.isExpression && !ss.isEmpty then s.render ++ ";" else s.render) :: Stmt.renderEach ss

/-- The text of a block. -/
def Block.render : Block → String
  | .mk _ statements =>
    if statements.isEmpty then
      "\x7b \x7d"
    else
      "\x7b " ++ String.join (Stmt.renderEach statements) ++ " \x7d"

/-- The text of the second block of a choice, empty if the block is missing. -/
def Block.renderElse : Option Block → String
  | none => ""
  | some b => " else " ++ b.render

end

/-- The text of an expression. -/
def Expr.render (e : Expr) : String :=
  e.renderChain []

/-- The text of a program. -/
def Program.render (p : Program) : String :=
  String.join (Stmt.renderEach p.statements)

/-- The text of a node. -/
def Node.render : Node → String
  | .program p => p.render
  | .statement s => s.render
  | .expression e => e.render

end MonkeySyntax
