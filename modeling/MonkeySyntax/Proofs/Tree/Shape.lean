import MonkeySyntax.Proofs.Source.Integer
import MonkeySyntax.Proofs.Tree.Tokens

/-!
# Trees of the shape of sources

A tree is source-shaped when its tokens are such as are read from a source and its values agree
with them.  For such a tree `unparse` lists the tokens of its canonical text: a unary or binary
expression stands in parentheses, and punctuation goes where the grammar needs it.  `need` is
the nesting of this list, where the parentheses count.
-/

namespace MonkeySyntax

/-! ### Shape -/

/-- The kinds of the operators between operands. -/
def Kind.isBinary : Kind → Bool
  | .equal | .notEqual | .less | .greater | .plus | .minus | .asterisk | .slash => true
  | _ => false

namespace Token

/-- A lexeme of a kind. -/
def IsLexemeOf (t : Token) (kind : Kind) : Prop :=
  t.kind = kind ∧ t.IsLexeme

instance (t : Token) (kind : Kind) : Decidable (t.IsLexemeOf kind) :=
  inferInstanceAs (Decidable (_ ∧ _))

end Token

/-- A lexeme of a kind with one spelling is that spelling. -/
theorem Token.IsLexemeOf.unplaced_eq {t : Token} {kind : Kind} (h : t.IsLexemeOf kind)
    {text : String} (htext : kind.spelling? = some text) :
  t.unplaced = .ofKind kind
  := by
  have heq := h.2.text_eq h.1 htext
  rw [Token.ofKind, htext, Token.unplaced, h.1, heq]
  rfl

/-- A name with a word as its token, whose text is its value. -/
def Ident.IsSourceShaped (id : Ident) : Prop :=
  id.token.IsLexemeOf .identifier ∧ id.value = id.token.text

mutual

/-- An expression whose tokens are lexemes and whose values agree with them. -/
def Expr.IsSourceShaped : Expr → Prop
  | .name id => id.IsSourceShaped
  | .integer token value =>
    token.IsLexemeOf .integer ∧ token.text.toList.length ≤ Numeral.maxDigits ∧
      value = Numeral.ofAscii token.text.toList ∧ value ≤ Parse.maxInteger
  | .boolean token value =>
    token.IsLexemeOf .trueWord ∧ value = true ∨ token.IsLexemeOf .falseWord ∧ value = false
  | .unary token operator right =>
    (token.kind = .bang ∨ token.kind = .minus) ∧ token.IsLexeme ∧ operator = token.text ∧
      right.IsSourceShaped
  | .binary token left operator right =>
    token.kind.isBinary = true ∧ token.IsLexeme ∧ operator = token.text ∧ left.IsSourceShaped ∧
      right.IsSourceShaped
  | .conditional token condition consequence alternative =>
    token.IsLexemeOf .ifWord ∧ condition.IsSourceShaped ∧ consequence.IsSourceShaped ∧
      Block.IsSourceShapedElse alternative
  | .function token parameters body =>
    token.IsLexemeOf .functionWord ∧ (∀ id ∈ parameters, id.IsSourceShaped) ∧ body.IsSourceShaped
  | .call token function arguments =>
    token.IsLexemeOf .leftParen ∧ function.IsSourceShaped ∧ Expr.AreSourceShaped arguments

/-- Expressions that are all source-shaped. -/
def Expr.AreSourceShaped : List Expr → Prop
  | [] => True
  | e :: es => e.IsSourceShaped ∧ Expr.AreSourceShaped es

/-- A statement whose tokens are lexemes and whose values agree with them.  A block does not
stand as a statement. -/
def Stmt.IsSourceShaped : Stmt → Prop
  | .binding token name value =>
    token.IsLexemeOf .letWord ∧ name.IsSourceShaped ∧ value.IsSourceShaped
  | .returning token none => token.IsLexemeOf .returnWord
  | .returning token (some value) => token.IsLexemeOf .returnWord ∧ value.IsSourceShaped
  | .expression token value => token.IsLexeme ∧ value.IsSourceShaped
  | .block _ => False

/-- Statements that are all source-shaped. -/
def Stmt.AreSourceShaped : List Stmt → Prop
  | [] => True
  | s :: ss => s.IsSourceShaped ∧ Stmt.AreSourceShaped ss

/-- A block of source-shaped statements, with a brace as its token. -/
def Block.IsSourceShaped : Block → Prop
  | .mk token statements => token.IsLexemeOf .leftBrace ∧ Stmt.AreSourceShaped statements

/-- A second block of a choice that is source-shaped, or missing. -/
def Block.IsSourceShapedElse : Option Block → Prop
  | none => True
  | some b => b.IsSourceShaped

end

/-- A program of source-shaped statements. -/
def Program.IsSourceShaped (p : Program) : Prop :=
  Stmt.AreSourceShaped p.statements

/-- A node that is source-shaped.  A block is so by itself, though not as a statement. -/
def Node.IsSourceShaped : Node → Prop
  | .program p => p.IsSourceShaped
  | .statement (.block body) => body.IsSourceShaped
  | .statement s => s.IsSourceShaped
  | .expression e => e.IsSourceShaped

/-! ### Nesting of the canonical text -/

mutual

/-- The levels that an expression needs when it is written with all its parentheses. -/
def Expr.need : Expr → Nat
  | .name _ | .integer _ _ | .boolean _ _ => 1
  | .unary _ _ right => right.need + 2
  | .binary _ left _ right => max (left.need + 1) (right.need + 2)
  | .conditional _ condition consequence alternative =>
    max condition.need (max consequence.need (Block.needElse alternative)) + 1
  | .function _ _ body => body.need + 1
  | .call _ function arguments => max function.need (Expr.needArguments arguments)

/-- The levels that arguments need, counted from where the call stands. -/
def Expr.needArguments : List Expr → Nat
  | [] => 0
  | e :: es => max (e.need + 1) (Expr.needArguments es)

/-- The levels that the expression of a statement needs. -/
def Stmt.need : Stmt → Nat
  | .binding _ _ value => value.need
  | .returning _ none => 0
  | .returning _ (some value) => value.need
  | .expression _ value => value.need
  | .block body => body.need

/-- The levels that one of several statements needs. -/
def Stmt.needEach : List Stmt → Nat
  | [] => 0
  | s :: ss => max s.need (Stmt.needEach ss)

/-- The levels that the statements of a block need. -/
def Block.need : Block → Nat
  | .mk _ statements => Stmt.needEach statements

/-- The levels that the second block of a choice needs. -/
def Block.needElse : Option Block → Nat
  | none => 0
  | some b => b.need

end

/-- Statements need the levels that each of them needs. -/
theorem Stmt.needEach_le_iff (ss : List Stmt) (n : Nat) :
  Stmt.needEach ss ≤ n ↔ ∀ s ∈ ss, s.need ≤ n
  := by
  induction ss with
  | nil => simp [Stmt.needEach]
  | cons s ss ih => rw [Stmt.needEach, Nat.max_le, ih, List.forall_mem_cons]

section

variable (f g : Token → Token)

mutual

/-- A change of tokens does not change the levels that an expression needs. -/
theorem Expr.need_mapTokens : ∀ e : Expr, (e.mapTokens f g).need = e.need
  | .name _ => rfl
  | .integer _ _ => rfl
  | .boolean _ _ => rfl
  | .unary _ _ right => by rw [Expr.mapTokens, Expr.need, Expr.need, Expr.need_mapTokens right]
  | .binary _ left _ right => by
    rw [Expr.mapTokens, Expr.need, Expr.need, Expr.need_mapTokens left, Expr.need_mapTokens right]
  | .conditional _ condition consequence alternative => by
    rw [Expr.mapTokens, Expr.need, Expr.need, Expr.need_mapTokens condition,
      Block.need_mapTokens consequence, Block.needElse_mapTokensElse alternative]
  | .function _ _ body => by rw [Expr.mapTokens, Expr.need, Expr.need, Block.need_mapTokens body]
  | .call _ callee arguments => by
    rw [Expr.mapTokens, Expr.need, Expr.need, Expr.need_mapTokens callee,
      Expr.needArguments_mapTokensEach arguments]

theorem Expr.needArguments_mapTokensEach : ∀ es : List Expr,
    Expr.needArguments (Expr.mapTokensEach f g es) = Expr.needArguments es
  | [] => rfl
  | e :: es => by
    rw [Expr.mapTokensEach, Expr.needArguments, Expr.needArguments, Expr.need_mapTokens e,
      Expr.needArguments_mapTokensEach es]

theorem Stmt.need_mapTokens : ∀ s : Stmt, (s.mapTokens f g).need = s.need
  | .binding _ _ value => Expr.need_mapTokens value
  | .returning _ none => rfl
  | .returning _ (some value) => Expr.need_mapTokens value
  | .expression _ value => Expr.need_mapTokens value
  | .block body => Block.need_mapTokens body

theorem Stmt.needEach_mapTokensEach : ∀ ss : List Stmt,
    Stmt.needEach (Stmt.mapTokensEach f g ss) = Stmt.needEach ss
  | [] => rfl
  | s :: ss => by
    rw [Stmt.mapTokensEach, Stmt.needEach, Stmt.needEach, Stmt.need_mapTokens s,
      Stmt.needEach_mapTokensEach ss]

theorem Block.need_mapTokens : ∀ b : Block, (b.mapTokens f g).need = b.need
  | .mk _ statements => Stmt.needEach_mapTokensEach statements

theorem Block.needElse_mapTokensElse : ∀ b : Option Block,
    Block.needElse (Block.mapTokensElse f g b) = Block.needElse b
  | none => rfl
  | some b => Block.need_mapTokens b

end

end

/-- The levels that a program needs do not depend on the places of its tokens. -/
theorem Program.needEach_unplaced (p : Program) :
  Stmt.needEach p.unplaced.statements = Stmt.needEach p.statements
  := Stmt.needEach_mapTokensEach _ _ p.statements

/-! ### Tokens of the canonical text -/

/-- A separated list is its first part, and every further part after a separator. -/
theorem intercalate_cons_eq {α : Type} (sep x : List α) (xs : List (List α)) :
  sep.intercalate (x :: xs) = x ++ xs.flatMap (fun y => sep ++ y)
  := by
  induction xs generalizing x with
  | nil => simp
  | cons y xs ih => simp only [List.intercalate_cons_cons, ih, List.flatMap_cons, List.append_assoc]

mutual

/-- The tokens of an expression. -/
def Expr.unparse : Expr → List Token
  | .name id => [id.token.unplaced]
  | .integer token _ => [token.unplaced]
  | .boolean token _ => [token.unplaced]
  | .unary token _ right =>
    .ofKind .leftParen :: token.unplaced :: (right.unparse ++ [.ofKind .rightParen])
  | .binary token left _ right =>
    .ofKind .leftParen ::
      (left.unparse ++ token.unplaced :: (right.unparse ++ [.ofKind .rightParen]))
  | .conditional token condition consequence alternative =>
    token.unplaced :: .ofKind .leftParen :: (condition.unparse ++
      .ofKind .rightParen :: (consequence.unparse ++ Block.unparseElse alternative))
  | .function token parameters body =>
    token.unplaced :: .ofKind .leftParen ::
      ([Token.ofKind .comma].intercalate (parameters.map (fun id => [id.token.unplaced])) ++
        .ofKind .rightParen :: body.unparse)
  | .call token function arguments =>
    function.unparse ++ token.unplaced ::
      ([Token.ofKind .comma].intercalate (Expr.unparseEach arguments) ++ [.ofKind .rightParen])

/-- The tokens of expressions, one by one. -/
def Expr.unparseEach : List Expr → List (List Token)
  | [] => []
  | e :: es => e.unparse :: Expr.unparseEach es

/-- The tokens of a statement. -/
def Stmt.unparse : Stmt → List Token
  | .binding token name value =>
    token.unplaced :: name.token.unplaced :: .ofKind .assign ::
      (value.unparse ++ [.ofKind .semicolon])
  | .returning token none => [token.unplaced, .ofKind .semicolon]
  | .returning token (some value) => token.unplaced :: (value.unparse ++ [.ofKind .semicolon])
  | .expression _ value => value.unparse
  | .block body => body.unparse

/-- The tokens of statements.  An expression that is not the last statement is followed by a
semicolon. -/
def Stmt.unparseEach : List Stmt → List Token
  | [] => []
  | s :: ss =>
    (if s.isExpression && !ss.isEmpty then s.unparse ++ [.ofKind .semicolon] else s.unparse) ++
      Stmt.unparseEach ss

/-- The tokens of a block. -/
def Block.unparse : Block → List Token
  | .mk token statements =>
    token.unplaced :: (Stmt.unparseEach statements ++ [.ofKind .rightBrace])

/-- The tokens of the second block of a choice. -/
def Block.unparseElse : Option Block → List Token
  | none => []
  | some b => .ofKind .elseWord :: b.unparse

end

/-- The tokens of a program. -/
def Program.unparse (p : Program) : List Token :=
  Stmt.unparseEach p.statements

/-- The tokens of a node. -/
def Node.unparse : Node → List Token
  | .program p => p.unparse
  | .statement s => s.unparse
  | .expression e => e.unparse

end MonkeySyntax
