import MonkeySyntax.Tree.Basic
import MonkeySyntax.Json.Basic

/-!
# Trees as JSON

`toJson` turns a syntax tree into a record that names the construct, the text of its token
and its parts, in a fixed order.  A program has no token.  A part that may be missing is
`null` when it is.  Of a token only the text is kept.
-/

namespace MonkeySyntax

/-- The record of a construct: its name, the text of its token, and its parts. -/
def Json.ofConstruct (construct : String) (token : Token) (parts : List (String × Json)) : Json :=
  .record (("kind", .text construct) :: ("token", .text token.text) :: parts)

/-- A name as JSON. -/
def Ident.toJson (id : Ident) : Json :=
  .ofConstruct "Identifier" id.token [("value", .text id.value)]

mutual

/-- An expression as JSON. -/
def Expr.toJson : Expr → Json
  | .name id => id.toJson
  | .integer token value => .ofConstruct "IntegerLiteral" token [("value", .integer value)]
  | .boolean token value => .ofConstruct "Boolean" token [("value", .boolean value)]
  | .unary token operator right =>
    .ofConstruct "PrefixExpression" token
      [("operator", .text operator), ("right", right.toJson)]
  | .binary token left operator right =>
    .ofConstruct "InfixExpression" token
      [("left", left.toJson), ("operator", .text operator), ("right", right.toJson)]
  | .conditional token condition consequence alternative =>
    .ofConstruct "IfExpression" token
      [("condition", condition.toJson), ("consequence", consequence.toJson),
        ("alternative", Block.optionToJson alternative)]
  | .function token parameters body =>
    .ofConstruct "FunctionLiteral" token
      [("parameters", .list (parameters.map Ident.toJson)), ("body", body.toJson)]
  | .call token function arguments =>
    .ofConstruct "CallExpression" token
      [("function", function.toJson), ("arguments", .list (Expr.listToJson arguments))]

/-- Expressions as JSON, one by one. -/
def Expr.listToJson : List Expr → List Json
  | [] => []
  | e :: es => e.toJson :: Expr.listToJson es

/-- An expression that may be missing. -/
def Expr.optionToJson : Option Expr → Json
  | none => .null
  | some e => e.toJson

/-- A statement as JSON. -/
def Stmt.toJson : Stmt → Json
  | .binding token name value =>
    .ofConstruct "LetStatement" token [("name", name.toJson), ("value", value.toJson)]
  | .returning token value =>
    .ofConstruct "ReturnStatement" token [("return_value", Expr.optionToJson value)]
  | .expression token value =>
    .ofConstruct "ExpressionStatement" token [("expression", value.toJson)]
  | .block body => body.toJson

/-- Statements as JSON, one by one. -/
def Stmt.listToJson : List Stmt → List Json
  | [] => []
  | s :: ss => s.toJson :: Stmt.listToJson ss

/-- A block as JSON. -/
def Block.toJson : Block → Json
  | .mk token statements =>
    .ofConstruct "BlockStatement" token [("statements", .list (Stmt.listToJson statements))]

/-- A block that may be missing. -/
def Block.optionToJson : Option Block → Json
  | none => .null
  | some b => b.toJson

end

/-- A program as JSON. -/
def Program.toJson (p : Program) : Json :=
  .record [("kind", .text "Program"), ("statements", .list (Stmt.listToJson p.statements))]

/-- A node as JSON. -/
def Node.toJson : Node → Json
  | .program p => p.toJson
  | .statement s => s.toJson
  | .expression e => e.toJson

end MonkeySyntax
