import MonkeySyntax.Tree.Basic

/-!
# Outlines

The outline of a tree lists its nodes from the root on, each node before its parts and the
parts in the order in which they are written.  An entry holds the depth of the node, the
name of its construct, the token it keeps, and the text it starts with.  A program keeps no
token.
-/

namespace MonkeySyntax

/-- A node in an outline. -/
structure OutlineEntry where
  depth : Nat
  construct : String
  token : Option Token
  literal : String
deriving DecidableEq, Repr

namespace OutlineEntry

/-- The entry of a node that keeps a token. -/
def ofToken (depth : Nat) (construct : String) (token : Token) : OutlineEntry :=
  ⟨depth, construct, some token, token.text⟩

/-- The entry of a name. -/
def ofIdent (depth : Nat) (id : Ident) : OutlineEntry :=
  ofToken depth "Identifier" id.token

end OutlineEntry

mutual

/-- The outline of an expression at a depth, put before the entries that follow. -/
def Expr.outlineBefore (depth : Nat) (e : Expr) (following : List OutlineEntry) :
    List OutlineEntry :=
  .ofToken depth e.construct e.token :: match e with
    | .name _ => following
    | .integer _ _ => following
    | .boolean _ _ => following
    | .unary _ _ right => right.outlineBefore (depth + 1) following
    | .binary _ left _ right =>
      left.outlineBefore (depth + 1) (right.outlineBefore (depth + 1) following)
    | .conditional _ condition consequence alternative =>
      condition.outlineBefore (depth + 1)
        (consequence.outlineBefore (depth + 1)
          (Block.optionOutlineBefore (depth + 1) alternative following))
    | .function _ parameters body =>
      parameters.map (OutlineEntry.ofIdent (depth + 1))
        ++ body.outlineBefore (depth + 1) following
    | .call _ function arguments =>
      function.outlineBefore (depth + 1)
        (Expr.listOutlineBefore (depth + 1) arguments following)

/-- The outlines of expressions at a depth, put before the entries that follow. -/
def Expr.listOutlineBefore (depth : Nat) (es : List Expr) (following : List OutlineEntry) :
    List OutlineEntry :=
  match es with
  | [] => following
  | e :: es => e.outlineBefore depth (Expr.listOutlineBefore depth es following)

/-- The outline of a statement at a depth, put before the entries that follow. -/
def Stmt.outlineBefore (depth : Nat) (s : Stmt) (following : List OutlineEntry) :
    List OutlineEntry :=
  match s with
  | .binding token name value =>
    .ofToken depth "LetStatement" token
      :: .ofIdent (depth + 1) name :: value.outlineBefore (depth + 1) following
  | .returning token none => .ofToken depth "ReturnStatement" token :: following
  | .returning token (some value) =>
    .ofToken depth "ReturnStatement" token :: value.outlineBefore (depth + 1) following
  | .expression token value =>
    .ofToken depth "ExpressionStatement" token :: value.outlineBefore (depth + 1) following
  | .block body => body.outlineBefore depth following

/-- The outlines of statements at a depth, put before the entries that follow. -/
def Stmt.listOutlineBefore (depth : Nat) (ss : List Stmt) (following : List OutlineEntry) :
    List OutlineEntry :=
  match ss with
  | [] => following
  | s :: ss => s.outlineBefore depth (Stmt.listOutlineBefore depth ss following)

/-- The outline of a block at a depth, put before the entries that follow. -/
def Block.outlineBefore (depth : Nat) (b : Block) (following : List OutlineEntry) :
    List OutlineEntry :=
  match b with
  | .mk token statements =>
    .ofToken depth "BlockStatement" token
      :: Stmt.listOutlineBefore (depth + 1) statements following

/-- The outline of a block that may be missing, put before the entries that follow. -/
def Block.optionOutlineBefore (depth : Nat) (b : Option Block)
    (following : List OutlineEntry) : List OutlineEntry :=
  match b with
  | none => following
  | some b => b.outlineBefore depth following

end

/-- The outline of a program. -/
def Program.outline (p : Program) : List OutlineEntry :=
  ⟨0, "Program", none, p.literal⟩ :: Stmt.listOutlineBefore 1 p.statements []

end MonkeySyntax
