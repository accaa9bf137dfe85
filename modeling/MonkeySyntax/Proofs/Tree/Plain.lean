import MonkeySyntax.Proofs.Tree.Rendered

/-!
# Canonical text by recursion

`plain` writes a tree as the canonical text is specified: each construct by itself, from the texts
of its parts, and each list of statements by putting their texts together.  There are no chains in
it.  So it shows what the text of a tree is, but it needs as many steps within steps as a chain has
links.

Rendering, which unwinds chains, writes the same text for every tree, whatever operators, values
and texts of tokens it has, and in whatever order the links of its chains are operators and calls.
-/

namespace MonkeySyntax

/-- What is written after a statement if another one follows. -/
def Stmt.separator : Stmt → String
  | .expression _ _ => ";"
  | _ => ""

mutual

/-- The text of an expression, from the texts of its parts. -/
def Expr.plain : Expr → String
  | .name id => id.value
  | .integer token _ => token.text
  | .boolean token _ => token.text
  | .unary _ operator right => "(" ++ operator ++ right.plain ++ ")"
  | .binary _ left operator right =>
    "(" ++ left.plain ++ " " ++ operator ++ " " ++ right.plain ++ ")"
  | .conditional _ condition consequence alternative =>
    "if (" ++ condition.plain ++ ") " ++ consequence.plain ++ Block.plainElse alternative
  | .function token parameters body =>
    token.text ++ "(" ++ String.intercalate ", " (parameters.map Ident.value) ++ ") " ++ body.plain
  | .call _ function arguments =>
    function.plain ++ "(" ++ String.intercalate ", " (Expr.plainEach arguments) ++ ")"

/-- The texts of expressions, one by one. -/
def Expr.plainEach : List Expr → List String
  | [] => []
  | e :: es => e.plain :: Expr.plainEach es

/-- The text of a statement, from the texts of its parts. -/
def Stmt.plain : Stmt → String
  | .binding token name value => token.text ++ " " ++ name.value ++ " = " ++ value.plain ++ ";"
  | .returning token none => token.text ++ ";"
  | .returning token (some value) => token.text ++ " " ++ value.plain ++ ";"
  | .expression _ value => value.plain
  | .block body => body.plain

/-- The text of statements, with separators between them. -/
def Stmt.plainJoined : List Stmt → String
  | [] => ""
  | [s] => s.plain
  | s :: t :: ss => s.plain ++ s.separator ++ Stmt.plainJoined (t :: ss)

/-- The text of a block. -/
def Block.plain : Block → String
  | .mk _ [] => "\x7b \x7d"
  | .mk _ (s :: ss) => "\x7b " ++ Stmt.plainJoined (s :: ss) ++ " \x7d"

/-- The text of the second block of a choice, if there is one. -/
def Block.plainElse : Option Block → String
  | none => ""
  | some b => " else " ++ b.plain

end

/-- The text of a node, from the texts of its parts. -/
def Node.plain : Node → String
  | .program p => Stmt.plainJoined p.statements
  | .statement s => s.plain
  | .expression e => e.plain

/-- An expression has a semicolon between it and the next statement, and other statements have none.
-/
theorem Stmt.append_separator (s : Stmt) (text : String) :
  text ++ s.separator = if s.isExpression = true then text ++ ";" else text
  := by
  cases s with
  | expression => simp [separator, isExpression]
  | _ => simp [separator, isExpression]

mutual

/-- The loop that renders an expression prints it part by part. -/
theorem Expr.render_eq_plain : ∀ e : Expr, e.render = e.plain
  | .name _ => rfl
  | .integer _ _ => rfl
  | .boolean _ _ => rfl
  | .unary _ _ right => by rw [Expr.render_unary, Expr.plain, Expr.render_eq_plain right]
  | .binary _ left _ right => by
    rw [Expr.render_binary, Expr.plain, Expr.render_eq_plain left, Expr.render_eq_plain right]
  | .conditional _ condition consequence alternative => by
    rw [Expr.render_conditional, Expr.plain, Expr.render_eq_plain condition,
      Block.render_eq_plain consequence, Block.renderElse_eq_plainElse alternative]
  | .function _ parameters body => by
    rw [Expr.render_function, Expr.plain, Block.render_eq_plain body]
    rfl
  | .call _ callee arguments => by
    rw [Expr.render_call, Expr.plain, Expr.render_eq_plain callee,
      Expr.renderEach_eq_plainEach arguments]

theorem Expr.renderEach_eq_plainEach : ∀ es : List Expr, Expr.renderEach es = Expr.plainEach es
  | [] => rfl
  | e :: es => by
    have hfirst : e.renderChain [] = e.plain := Expr.render_eq_plain e
    rw [Expr.renderEach, Expr.plainEach, hfirst, Expr.renderEach_eq_plainEach es]

/-- A statement is rendered part by part. -/
theorem Stmt.render_eq_plain : ∀ s : Stmt, s.render = s.plain
  | .binding _ _ value => by
    have hvalue : value.renderChain [] = value.plain := Expr.render_eq_plain value
    rw [Stmt.render, Stmt.plain, hvalue]
    rfl
  | .returning _ none => rfl
  | .returning _ (some value) => by
    have hvalue : value.renderChain [] = value.plain := Expr.render_eq_plain value
    rw [Stmt.render, Stmt.plain, hvalue]
  | .expression _ value => Expr.render_eq_plain value
  | .block body => Block.render_eq_plain body

/-- Statements are rendered one after the other, with the separators between them. -/
theorem Stmt.join_renderEach_eq_plainJoined : ∀ ss : List Stmt,
    String.join (Stmt.renderEach ss) = Stmt.plainJoined ss
  | [] => rfl
  | [s] => by
    rw [Stmt.renderEach, Stmt.renderEach, Stmt.plainJoined, ← Stmt.render_eq_plain s]
    simp
  | s :: t :: ss => by
    rw [Stmt.renderEach, String.join_cons, Stmt.join_renderEach_eq_plainJoined (t :: ss),
      Stmt.render_eq_plain s, Stmt.plainJoined, Stmt.append_separator]
    simp only [List.isEmpty_cons, Bool.not_false, Bool.and_true]

/-- A block is rendered part by part. -/
theorem Block.render_eq_plain : ∀ b : Block, b.render = b.plain
  | .mk _ [] => rfl
  | .mk _ (s :: ss) => by
    rw [Block.render, Block.plain, Stmt.join_renderEach_eq_plainJoined (s :: ss)]
    rfl

/-- A second block is rendered part by part, and a missing one as nothing. -/
theorem Block.renderElse_eq_plainElse : ∀ b : Option Block,
    Block.renderElse b = Block.plainElse b
  | none => rfl
  | some b => by rw [Block.renderElse, Block.plainElse, Block.render_eq_plain b]

end

/-- Separators stand after the expressions among the statements, but not after the last
statement. -/
theorem Stmt.plainJoined_eq_join : ∀ ss : List Stmt,
    Stmt.plainJoined ss =
      String.join (ss.mapIdx (fun i s =>
        if s.isExpression = true ∧ i + 1 < ss.length then s.plain ++ ";" else s.plain))
  | [] => rfl
  | [s] => by simp [Stmt.plainJoined]
  | s :: t :: ss => by
    rw [Stmt.plainJoined, Stmt.plainJoined_eq_join (t :: ss), List.mapIdx_cons (a := s),
      String.join_cons, Stmt.append_separator]
    simp only [List.length_cons, Nat.add_lt_add_iff_right, Nat.succ_pos, and_true]

/-- Rendering writes every tree as the recursion does, in which the statements of a program or a
block follow one another with a semicolon after each expression that is not the last of them. -/
theorem Node.render_eq_plain_join :
  (∀ n : Node, n.render = n.plain) ∧
    ∀ ss : List Stmt, Stmt.plainJoined ss =
      String.join (ss.mapIdx (fun i s =>
        if s.isExpression = true ∧ i + 1 < ss.length then s.plain ++ ";" else s.plain))
  := by
  constructor
  · intro n
    cases n with
    | program p => apply Stmt.join_renderEach_eq_plainJoined
    | statement s => apply Stmt.render_eq_plain
    | expression e => apply Expr.render_eq_plain
  · apply Stmt.plainJoined_eq_join

/-- A chain that starts with a call and goes on with an operator and another call. -/
example :
    (Expr.call (.ofKind .leftParen)
      (.binary (.ofKind .plus)
        (.call (.ofKind .leftParen) (.name ⟨.ofKind .identifier, "f"⟩) [])
        "+" (.name ⟨.ofKind .identifier, "a"⟩))
      [.name ⟨.ofKind .identifier, "b"⟩]).render = "(f() + a)(b)"
  := by decide +kernel

end MonkeySyntax
