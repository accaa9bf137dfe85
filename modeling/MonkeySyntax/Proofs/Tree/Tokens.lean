import MonkeySyntax.Tree.Basic
import MonkeySyntax.Proofs.Source.Spelling

/-!
# The tokens of a tree

`mapTokens f g` changes the tokens that a tree keeps: those of the expression statements by
`g`, all others by `f`.  A tree is compared with others up to the places of its tokens as
`unplaced`, and up to the tokens of its expression statements as well as `erased`: such a token
is the first one of the expression, which may be a parenthesis that the tree does not keep.
-/

namespace MonkeySyntax

/-- A name with its token changed. -/
def Ident.mapToken (f : Token → Token) (id : Ident) : Ident :=
  { id with token := f id.token }

mutual

/-- An expression with its tokens changed. -/
def Expr.mapTokens (f g : Token → Token) : Expr → Expr
  | .name id => .name (id.mapToken f)
  | .integer token value => .integer (f token) value
  | .boolean token value => .boolean (f token) value
  | .unary token operator right => .unary (f token) operator (right.mapTokens f g)
  | .binary token left operator right =>
    .binary (f token) (left.mapTokens f g) operator (right.mapTokens f g)
  | .conditional token condition consequence alternative =>
    .conditional (f token) (condition.mapTokens f g) (consequence.mapTokens f g)
      (Block.mapTokensElse f g alternative)
  | .function token parameters body =>
    .function (f token) (parameters.map (Ident.mapToken f)) (body.mapTokens f g)
  | .call token function arguments =>
    .call (f token) (function.mapTokens f g) (Expr.mapTokensEach f g arguments)

/-- Expressions with their tokens changed. -/
def Expr.mapTokensEach (f g : Token → Token) : List Expr → List Expr
  | [] => []
  | e :: es => e.mapTokens f g :: Expr.mapTokensEach f g es

/-- A statement with its tokens changed. -/
def Stmt.mapTokens (f g : Token → Token) : Stmt → Stmt
  | .binding token name value => .binding (f token) (name.mapToken f) (value.mapTokens f g)
  | .returning token none => .returning (f token) none
  | .returning token (some value) => .returning (f token) (some (value.mapTokens f g))
  | .expression token value => .expression (g token) (value.mapTokens f g)
  | .block body => .block (body.mapTokens f g)

/-- Statements with their tokens changed. -/
def Stmt.mapTokensEach (f g : Token → Token) : List Stmt → List Stmt
  | [] => []
  | s :: ss => s.mapTokens f g :: Stmt.mapTokensEach f g ss

/-- A block with its tokens changed. -/
def Block.mapTokens (f g : Token → Token) : Block → Block
  | .mk token statements => .mk (f token) (Stmt.mapTokensEach f g statements)

/-- The second block of a choice with its tokens changed. -/
def Block.mapTokensElse (f g : Token → Token) : Option Block → Option Block
  | none => none
  | some b => some (b.mapTokens f g)

end

/-- An expression up to the places of its tokens and the tokens of its expression statements. -/
def Expr.erased (e : Expr) : Expr :=
  e.mapTokens Token.unplaced (fun _ => default)

/-- A statement up to the places of its tokens and the tokens of its expression statements. -/
def Stmt.erased (s : Stmt) : Stmt :=
  s.mapTokens Token.unplaced (fun _ => default)

/-- A block up to the places of its tokens and the tokens of its expression statements. -/
def Block.erased (b : Block) : Block :=
  b.mapTokens Token.unplaced (fun _ => default)

/-- A program with its tokens changed. -/
def Program.mapTokens (f g : Token → Token) (p : Program) : Program :=
  ⟨Stmt.mapTokensEach f g p.statements⟩

/-- A program up to the places of its tokens. -/
def Program.unplaced (p : Program) : Program :=
  p.mapTokens Token.unplaced Token.unplaced

/-- A program up to the places of its tokens and the tokens of its expression statements. -/
def Program.erased (p : Program) : Program :=
  p.mapTokens Token.unplaced (fun _ => default)

section

variable (f g : Token → Token)

/-- Expressions are changed one by one. -/
theorem Expr.mapTokensEach_eq_map (es : List Expr) :
  Expr.mapTokensEach f g es = es.map (Expr.mapTokens f g)
  := by
  induction es with
  | nil => rfl
  | cons e es ih => rw [Expr.mapTokensEach, List.map_cons, ih]

theorem Stmt.mapTokensEach_eq_map (ss : List Stmt) :
  Stmt.mapTokensEach f g ss = ss.map (Stmt.mapTokens f g)
  := by
  induction ss with
  | nil => rfl
  | cons s ss ih => rw [Stmt.mapTokensEach, List.map_cons, ih]

/-! ### Changing tokens twice -/

variable (f' g' : Token → Token)

/-- Two changes of a name make up one. -/
theorem Ident.mapToken_mapToken (id : Ident) :
  (id.mapToken f).mapToken f' = id.mapToken (f' ∘ f)
  := rfl

mutual

/-- Two changes of an expression make up one. -/
theorem Expr.mapTokens_mapTokens : ∀ e : Expr,
    (e.mapTokens f g).mapTokens f' g' = e.mapTokens (f' ∘ f) (g' ∘ g)
  | .name _ => rfl
  | .integer _ _ => rfl
  | .boolean _ _ => rfl
  | .unary _ _ right => by
    simp only [Expr.mapTokens, Expr.mapTokens_mapTokens right, Function.comp]
  | .binary _ left _ right => by
    simp only [Expr.mapTokens, Expr.mapTokens_mapTokens left, Expr.mapTokens_mapTokens right,
      Function.comp]
  | .conditional _ condition consequence alternative => by
    simp only [Expr.mapTokens, Expr.mapTokens_mapTokens condition,
      Block.mapTokens_mapTokens consequence, Block.mapTokensElse_mapTokensElse alternative,
      Function.comp]
  | .function _ parameters body => by
    simp only [Expr.mapTokens, Block.mapTokens_mapTokens body, List.map_map, Function.comp_def,
      Ident.mapToken_mapToken]
  | .call _ function arguments => by
    simp only [Expr.mapTokens, Expr.mapTokens_mapTokens function,
      Expr.mapTokensEach_mapTokensEach arguments, Function.comp]

theorem Expr.mapTokensEach_mapTokensEach : ∀ es : List Expr,
    Expr.mapTokensEach f' g' (Expr.mapTokensEach f g es) =
      Expr.mapTokensEach (f' ∘ f) (g' ∘ g) es
  | [] => rfl
  | e :: es => by
    simp only [Expr.mapTokensEach, Expr.mapTokens_mapTokens e,
      Expr.mapTokensEach_mapTokensEach es]

theorem Stmt.mapTokens_mapTokens : ∀ s : Stmt,
    (s.mapTokens f g).mapTokens f' g' = s.mapTokens (f' ∘ f) (g' ∘ g)
  | .binding _ name value => by
    simp only [Stmt.mapTokens, Expr.mapTokens_mapTokens value, Ident.mapToken_mapToken,
      Function.comp]
  | .returning _ none => rfl
  | .returning _ (some value) => by
    simp only [Stmt.mapTokens, Expr.mapTokens_mapTokens value, Function.comp]
  | .expression _ value => by
    simp only [Stmt.mapTokens, Expr.mapTokens_mapTokens value, Function.comp]
  | .block body => by simp only [Stmt.mapTokens, Block.mapTokens_mapTokens body]

theorem Stmt.mapTokensEach_mapTokensEach : ∀ ss : List Stmt,
    Stmt.mapTokensEach f' g' (Stmt.mapTokensEach f g ss) =
      Stmt.mapTokensEach (f' ∘ f) (g' ∘ g) ss
  | [] => rfl
  | s :: ss => by
    simp only [Stmt.mapTokensEach, Stmt.mapTokens_mapTokens s,
      Stmt.mapTokensEach_mapTokensEach ss]

theorem Block.mapTokens_mapTokens : ∀ b : Block,
    (b.mapTokens f g).mapTokens f' g' = b.mapTokens (f' ∘ f) (g' ∘ g)
  | .mk _ statements => by
    simp only [Block.mapTokens, Stmt.mapTokensEach_mapTokensEach statements, Function.comp]

theorem Block.mapTokensElse_mapTokensElse : ∀ b : Option Block,
    Block.mapTokensElse f' g' (Block.mapTokensElse f g b) =
      Block.mapTokensElse (f' ∘ f) (g' ∘ g) b
  | none => rfl
  | some b => by simp only [Block.mapTokensElse, Block.mapTokens_mapTokens b]

end

end

/-! ### Changing no token -/

mutual

/-- Tokens that are left as they are leave an expression as it is. -/
theorem Expr.mapTokens_id : ∀ e : Expr, e.mapTokens id id = e
  | .name _ => rfl
  | .integer _ _ => rfl
  | .boolean _ _ => rfl
  | .unary _ _ right => by rw [Expr.mapTokens, Expr.mapTokens_id right, id]
  | .binary _ left _ right => by
    rw [Expr.mapTokens, Expr.mapTokens_id left, Expr.mapTokens_id right, id]
  | .conditional _ condition consequence alternative => by
    rw [Expr.mapTokens, Expr.mapTokens_id condition, Block.mapTokens_id consequence,
      Block.mapTokensElse_id alternative, id]
  | .function _ parameters body => by
    have hparameters : parameters.map (Ident.mapToken id) = parameters := List.map_id _
    rw [Expr.mapTokens, Block.mapTokens_id body, hparameters, id]
  | .call _ function arguments => by
    rw [Expr.mapTokens, Expr.mapTokens_id function, Expr.mapTokensEach_id arguments, id]

theorem Expr.mapTokensEach_id : ∀ es : List Expr, Expr.mapTokensEach id id es = es
  | [] => rfl
  | e :: es => by rw [Expr.mapTokensEach, Expr.mapTokens_id e, Expr.mapTokensEach_id es]

theorem Stmt.mapTokens_id : ∀ s : Stmt, s.mapTokens id id = s
  | .binding _ _ value => by
    rw [Stmt.mapTokens, Expr.mapTokens_id value]
    rfl
  | .returning _ none => rfl
  | .returning _ (some value) => by rw [Stmt.mapTokens, Expr.mapTokens_id value, id]
  | .expression _ value => by rw [Stmt.mapTokens, Expr.mapTokens_id value, id]
  | .block body => by rw [Stmt.mapTokens, Block.mapTokens_id body]

theorem Stmt.mapTokensEach_id : ∀ ss : List Stmt, Stmt.mapTokensEach id id ss = ss
  | [] => rfl
  | s :: ss => by rw [Stmt.mapTokensEach, Stmt.mapTokens_id s, Stmt.mapTokensEach_id ss]

theorem Block.mapTokens_id : ∀ b : Block, b.mapTokens id id = b
  | .mk _ statements => by rw [Block.mapTokens, Stmt.mapTokensEach_id statements, id]

theorem Block.mapTokensElse_id : ∀ b : Option Block, Block.mapTokensElse id id b = b
  | none => rfl
  | some b => by rw [Block.mapTokensElse, Block.mapTokens_id b]

end

theorem Program.mapTokens_id (p : Program) :
  p.mapTokens id id = p
  := by
  rw [Program.mapTokens, Stmt.mapTokensEach_id]

/-- Programs that are equal up to what is erased have as many statements. -/
theorem Program.length_statements_of_erased {p q : Program} (h : p.erased = q.erased) :
  p.statements.length = q.statements.length
  := by
  have hlength := congrArg (fun r : Program => r.statements.length) h
  simpa [Program.erased, Program.mapTokens, Stmt.mapTokensEach_eq_map] using hlength

/-- The places of tokens are among what is erased. -/
theorem Program.erased_unplaced (p : Program) :
  p.unplaced.erased = p.erased
  := by
  simp only [Program.erased, Program.unplaced, Program.mapTokens,
    Stmt.mapTokensEach_mapTokensEach]
  rfl

end MonkeySyntax
