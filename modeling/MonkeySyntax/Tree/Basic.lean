import MonkeySyntax.Token.Basic

/-!
# Syntax trees

Expressions, statements and blocks are mutually recursive, and a program is a list of
statements.  Every construct but the program keeps the token that it starts with, or that
makes it what it is: the operator of a unary or binary expression, the opening
parenthesis of a call.  Leaves and operators keep their value beside their token.

The parser makes the two agree, but a tree may also be made by hand, and then a value, an
operator and the text of a token are independent of each other.  A `Node` is any of these.
-/

namespace MonkeySyntax

/-- A name, as it is bound or used. -/
structure Ident where
  token : Token
  value : String
deriving DecidableEq, Repr, Inhabited

mutual

/-- An expression. -/
inductive Expr where
  | name (id : Ident)
  | integer (token : Token) (value : Int)
  | boolean (token : Token) (value : Bool)
  /-- An operator before its operand. -/
  | unary (token : Token) (operator : String) (right : Expr)
  /-- An operator between its operands. -/
  | binary (token : Token) (left : Expr) (operator : String) (right : Expr)
  /-- A choice between two blocks, of which the second may be missing. -/
  | conditional (token : Token) (condition : Expr) (consequence : Block)
      (alternative : Option Block)
  | function (token : Token) (parameters : List Ident) (body : Block)
  /-- A call, whose token is the opening parenthesis. -/
  | call (token : Token) (function : Expr) (arguments : List Expr)

/-- A statement. -/
inductive Stmt where
  /-- The binding of a name. -/
  | binding (token : Token) (name : Ident) (value : Expr)
  /-- The return from a function, with or without a value. -/
  | returning (token : Token) (value : Option Expr)
  | expression (token : Token) (value : Expr)
  /-- A block that stands as a statement.  The parser makes none. -/
  | block (body : Block)

/-- Statements between braces, with the opening brace as the token. -/
inductive Block where
  | mk (token : Token) (statements : List Stmt)

end

deriving instance Repr for Expr, Stmt, Block

/-- A program: the statements of one source. -/
structure Program where
  statements : List Stmt
deriving Repr

/-- Any part of a syntax tree. -/
inductive Node where
  | program (p : Program)
  | statement (s : Stmt)
  | expression (e : Expr)
deriving Repr

namespace Block

/-- The opening brace. -/
def token : Block → Token
  | mk token _ => token

/-- The statements between the braces. -/
def statements : Block → List Stmt
  | mk _ statements => statements

end Block

namespace Expr

/-- The token that an expression keeps. -/
def token : Expr → Token
  | name id => id.token
  | integer token _ => token
  | boolean token _ => token
  | unary token _ _ => token
  | binary token _ _ _ => token
  | conditional token _ _ _ => token
  | function token _ _ => token
  | call token _ _ => token

/-- The name of the construct. -/
def construct : Expr → String
  | name _ => "Identifier"
  | integer _ _ => "IntegerLiteral"
  | boolean _ _ => "Boolean"
  | unary _ _ _ => "PrefixExpression"
  | binary _ _ _ _ => "InfixExpression"
  | conditional _ _ _ _ => "IfExpression"
  | function _ _ _ => "FunctionLiteral"
  | call _ _ _ => "CallExpression"

end Expr

namespace Stmt

/-- The token that a statement keeps. -/
def token : Stmt → Token
  | binding token _ _ => token
  | returning token _ => token
  | expression token _ => token
  | block body => body.token

/-- The name of the construct. -/
def construct : Stmt → String
  | binding _ _ _ => "LetStatement"
  | returning _ _ => "ReturnStatement"
  | expression _ _ => "ExpressionStatement"
  | block _ => "BlockStatement"

/-- Whether a statement is an expression. -/
def isExpression : Stmt → Bool
  | expression _ _ => true
  | _ => false

end Stmt

/-- The text of the token of the first statement, empty for a program without any. -/
def Program.literal (p : Program) : String :=
  (p.statements.head?.map (fun s => s.token.text)).getD ""

namespace Node

/-- The text of the token that a node starts with. -/
def literal : Node → String
  | program p => p.literal
  | statement s => s.token.text
  | expression e => e.token.text

end Node

end MonkeySyntax
