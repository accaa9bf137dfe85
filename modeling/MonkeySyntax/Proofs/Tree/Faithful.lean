import MonkeySyntax.Proofs.Tree.Json
import MonkeySyntax.Proofs.Tree.Rendered
import MonkeySyntax.Tree.Equality

/-!
# What JSON tells of a tree

JSON keeps everything of a tree but the kinds and the places of its tokens: two trees are the same
as JSON exactly when they are equal once their tokens are reduced to their texts.  This holds of any
trees, also where the values do not agree with the tokens.

Two JSON values are the same here when they are equal as the values of a program that reads them:
the fields of a record may be in any order, and a truth value is the same as the number `0` or `1`.
That makes nothing of two trees the same, since a record names its construct.

Since rendering looks at no more of a token than its text, trees that are the same as JSON have the
same canonical text at every node.
-/

namespace MonkeySyntax

/-! ### The same JSON -/

mutual

/-- Whether two values are the same, whatever the order of the fields in their records. -/
@[simp]
def Json.same : Json → Json → Bool
  | .null, .null => true
  | .boolean a, .boolean b => a == b
  | .boolean a, .integer n => a.toInt == n
  | .integer m, .boolean b => m == b.toInt
  | .integer m, .integer n => m == n
  | .text s, .text t => s == t
  | .list items, .list others => Json.sameItems items others
  | .record fields, .record others =>
    fields.length == others.length && Json.sameFields fields others
  | _, _ => false

/-- Whether two lists have the same items. -/
@[simp]
def Json.sameItems : List Json → List Json → Bool
  | [], [] => true
  | item :: items, other :: others => item.same other && Json.sameItems items others
  | _, _ => false

/-- Whether every field of a record has the same value in another one. -/
@[simp]
def Json.sameFields : List (String × Json) → List (String × Json) → Bool
  | [], _ => true
  | (key, value) :: fields, others =>
    (match others.lookup key with
      | some other => value.same other
      | none => false) && Json.sameFields fields others

end

/-! ### Tokens without kinds and places -/

namespace Token

/-- A token reduced to its text. -/
def textOnly (t : Token) : Token :=
  ⟨.illegal, t.text, 0⟩

theorem text_textOnly (t : Token) :
  t.textOnly.text = t.text
  := rfl

/-- Tokens are equal when reduced to their texts exactly when their texts are. -/
@[simp]
theorem textOnly_eq_iff {t u : Token} :
  t.textOnly = u.textOnly ↔ t.text = u.text
  := by
  simp [textOnly]

end Token

/-- An expression with its tokens reduced to their texts. -/
def Expr.textOnly (e : Expr) : Expr :=
  e.mapTokens Token.textOnly Token.textOnly

/-- A statement with its tokens reduced to their texts. -/
def Stmt.textOnly (s : Stmt) : Stmt :=
  s.mapTokens Token.textOnly Token.textOnly

/-- A block with its tokens reduced to their texts. -/
def Block.textOnly (b : Block) : Block :=
  b.mapTokens Token.textOnly Token.textOnly

/-- A node with its tokens changed. -/
def Node.mapTokens (f : Token → Token) : Node → Node
  | program p => program (p.mapTokens f f)
  | statement s => statement (s.mapTokens f f)
  | expression e => expression (e.mapTokens f f)

/-- A node with its tokens reduced to their texts. -/
def Node.textOnly (n : Node) : Node :=
  n.mapTokens Token.textOnly

/-! ### Telling trees apart -/

/-- The records of constructs are the same if they have the same name, token text and parts. -/
@[simp]
theorem Json.same_ofConstruct {construct construct' : String} {t t' : Token}
    {parts parts' : List (String × Json)} :
  (Json.ofConstruct construct t parts).same (Json.ofConstruct construct' t' parts') = true ↔
    parts.length = parts'.length ∧ construct = construct' ∧ t.text = t'.text ∧
      Json.sameFields parts
        (("kind", .text construct') :: ("token", .text t'.text) :: parts') = true
  := by
  simp [Json.ofConstruct, List.lookup_cons]

/-- Names are the same as JSON if they are equal with their tokens reduced to their texts. -/
theorem Ident.same_toJson (id id' : Ident) :
  id.toJson.same id'.toJson = true ↔ id.mapToken Token.textOnly = id'.mapToken Token.textOnly
  := by
  simp [Ident.toJson, Ident.mapToken, List.lookup_cons]

/-- Lists of names are the same as JSON if they are equal with their tokens reduced to their texts.
-/
theorem Ident.sameItems_map_toJson (ids ids' : List Ident) :
  Json.sameItems (ids.map Ident.toJson) (ids'.map Ident.toJson) = true ↔
    ids.map (Ident.mapToken Token.textOnly) = ids'.map (Ident.mapToken Token.textOnly)
  := by
  induction ids generalizing ids' with
  | nil => cases ids' <;> simp
  | cons id ids ih => cases ids' <;> simp [Ident.same_toJson, ih]

/-- An expression is never the same as a missing one. -/
theorem Expr.toJson_same_null (e : Expr) :
  e.toJson.same .null = false
  := by
  cases e <;> simp [Expr.toJson, Ident.toJson, Json.ofConstruct]

/-- A missing expression is never the same as one that is there. -/
theorem Expr.null_same_toJson (e : Expr) :
  Json.null.same e.toJson = false
  := by
  cases e <;> simp [Expr.toJson, Ident.toJson, Json.ofConstruct]

/-- A block has its token and its statements as JSON. -/
theorem Block.toJson_eq (b : Block) :
  b.toJson =
    .ofConstruct "BlockStatement" b.token [("statements", .list (Stmt.listToJson b.statements))]
  := by
  cases b
  rfl

@[simp]
theorem Stmt.textOnly_binding (token : Token) (name : Ident) (value : Expr) :
  (Stmt.binding token name value).textOnly =
    .binding token.textOnly (name.mapToken Token.textOnly) value.textOnly
  := rfl

@[simp]
theorem Stmt.textOnly_returning (token : Token) (value : Option Expr) :
  (Stmt.returning token value).textOnly = .returning token.textOnly (value.map Expr.textOnly)
  := by
  cases value <;> rfl

@[simp]
theorem Stmt.textOnly_expression (token : Token) (value : Expr) :
  (Stmt.expression token value).textOnly = .expression token.textOnly value.textOnly
  := rfl

@[simp]
theorem Stmt.textOnly_block (body : Block) :
  (Stmt.block body).textOnly = .block body.textOnly
  := rfl

mutual

/-- Expressions are the same as JSON if they are equal with their tokens reduced to their texts. -/
theorem Expr.same_toJson : ∀ a b : Expr, a.toJson.same b.toJson = true ↔ a.textOnly = b.textOnly
  | .name id, b => by
    cases b with
    | name id' => simp [Expr.toJson, Expr.textOnly, Expr.mapTokens, Ident.same_toJson]
    | _ => simp [Expr.toJson, Expr.textOnly, Expr.mapTokens, Ident.toJson]
  | .integer _ _, b => by
    cases b <;> simp [Expr.toJson, Ident.toJson, Expr.textOnly, Expr.mapTokens, List.lookup_cons]
  | .boolean _ _, b => by
    cases b <;> simp [Expr.toJson, Ident.toJson, Expr.textOnly, Expr.mapTokens, List.lookup_cons]
  | .unary _ _ right, b => by
    cases b <;>
      simp [Expr.toJson, Ident.toJson, Expr.textOnly, Expr.mapTokens, List.lookup_cons,
        Expr.same_toJson right]
  | .binary _ left _ right, b => by
    cases b <;>
      simp [Expr.toJson, Ident.toJson, Expr.textOnly, Expr.mapTokens, List.lookup_cons,
        Expr.same_toJson left, Expr.same_toJson right]
  | .conditional _ condition consequence alternative, b => by
    cases b <;>
      simp [Expr.toJson, Ident.toJson, Expr.textOnly, Expr.mapTokens, List.lookup_cons,
        Expr.same_toJson condition, Block.same_toJson consequence,
        Block.same_optionToJson alternative, Block.textOnly]
  | .function _ parameters body, b => by
    cases b <;>
      simp [Expr.toJson, Ident.toJson, Expr.textOnly, Expr.mapTokens, List.lookup_cons,
        Ident.sameItems_map_toJson, Block.same_toJson body, Block.textOnly]
  | .call _ callee arguments, b => by
    cases b <;>
      simp [Expr.toJson, Ident.toJson, Expr.textOnly, Expr.mapTokens, List.lookup_cons,
        Expr.same_toJson callee, Expr.sameItems_listToJson arguments]

/-- Lists of expressions are the same as JSON if they are equal with their tokens reduced to their
texts. -/
theorem Expr.sameItems_listToJson : ∀ as bs : List Expr,
    Json.sameItems (Expr.listToJson as) (Expr.listToJson bs) = true ↔
      Expr.mapTokensEach Token.textOnly Token.textOnly as =
        Expr.mapTokensEach Token.textOnly Token.textOnly bs
  | [], bs => by cases bs <;> simp [Expr.listToJson, Expr.mapTokensEach]
  | a :: as, bs => by
    cases bs <;>
      simp [Expr.listToJson, Expr.mapTokensEach, Expr.same_toJson a, Expr.sameItems_listToJson as,
        Expr.textOnly]

/-- Expressions that may be missing are the same as JSON if they are equal with their tokens reduced
to their texts. -/
theorem Expr.same_optionToJson : ∀ a b : Option Expr,
    (Expr.optionToJson a).same (Expr.optionToJson b) = true ↔
      a.map Expr.textOnly = b.map Expr.textOnly
  | none, none => by simp [Expr.optionToJson]
  | none, some b => by simp [Expr.optionToJson, Expr.null_same_toJson]
  | some a, none => by simp [Expr.optionToJson, Expr.toJson_same_null]
  | some a, some b => by simp [Expr.optionToJson, Expr.same_toJson a b]

/-- Statements are the same as JSON if they are equal with their tokens reduced to their texts. -/
theorem Stmt.same_toJson : ∀ a b : Stmt, a.toJson.same b.toJson = true ↔ a.textOnly = b.textOnly
  | .binding _ _ value, b => by
    cases b <;>
      simp [Stmt.toJson, Block.toJson_eq, List.lookup_cons, Ident.same_toJson,
        Expr.same_toJson value]
  | .returning _ value, b => by
    cases b <;> simp [Stmt.toJson, Block.toJson_eq, List.lookup_cons, Expr.same_optionToJson value]
  | .expression _ value, b => by
    cases b <;> simp [Stmt.toJson, Block.toJson_eq, List.lookup_cons, Expr.same_toJson value]
  | .block body, b => by
    cases b with
    | block body' => simp [Stmt.toJson, Block.same_toJson body]
    | _ => simp [Stmt.toJson, Block.toJson_eq]

/-- Lists of statements are the same as JSON if they are equal with their tokens reduced to their
texts. -/
theorem Stmt.sameItems_listToJson : ∀ as bs : List Stmt,
    Json.sameItems (Stmt.listToJson as) (Stmt.listToJson bs) = true ↔
      Stmt.mapTokensEach Token.textOnly Token.textOnly as =
        Stmt.mapTokensEach Token.textOnly Token.textOnly bs
  | [], bs => by cases bs <;> simp [Stmt.listToJson, Stmt.mapTokensEach]
  | a :: as, bs => by
    cases bs <;>
      simp [Stmt.listToJson, Stmt.mapTokensEach, Stmt.same_toJson a, Stmt.sameItems_listToJson as,
        Stmt.textOnly]

/-- Blocks are the same as JSON if they are equal with their tokens reduced to their texts. -/
theorem Block.same_toJson : ∀ a b : Block, a.toJson.same b.toJson = true ↔ a.textOnly = b.textOnly
  | .mk _ ss, .mk _ _ => by
    simp [Block.toJson, Block.textOnly, Block.mapTokens, List.lookup_cons,
      Stmt.sameItems_listToJson ss]

/-- Blocks that may be missing are the same as JSON if they are equal with their tokens reduced to
their texts. -/
theorem Block.same_optionToJson : ∀ a b : Option Block,
    (Block.optionToJson a).same (Block.optionToJson b) = true ↔
      Block.mapTokensElse Token.textOnly Token.textOnly a =
        Block.mapTokensElse Token.textOnly Token.textOnly b
  | none, none => by simp [Block.optionToJson, Block.mapTokensElse]
  | none, some (.mk _ _) => by
    simp [Block.optionToJson, Block.mapTokensElse, Block.toJson, Json.ofConstruct]
  | some (.mk _ _), none => by
    simp [Block.optionToJson, Block.mapTokensElse, Block.toJson, Json.ofConstruct]
  | some a, some b => by
    simp [Block.optionToJson, Block.mapTokensElse, Block.same_toJson a b, Block.textOnly]

end

/-- The name of the construct. -/
def Node.construct : Node → String
  | program _ => "Program"
  | statement s => s.construct
  | expression e => e.construct

/-- A change of tokens does not change what construct a node is. -/
theorem Node.construct_mapTokens (f : Token → Token) (n : Node) :
  (n.mapTokens f).construct = n.construct
  := by
  rcases n with p | s | e
  · rfl
  · cases s with
    | returning token value => cases value <;> rfl
    | _ => rfl
  · cases e <;> rfl

/-- The record of a node starts with the name of the construct. -/
theorem Node.exists_toJson_eq (n : Node) :
  ∃ fields, n.toJson = .record (("kind", .text n.construct) :: fields)
  := by
  rcases n with p | s | e
  · exact ⟨_, rfl⟩
  · cases s with
    | block body => exact ⟨_, body.toJson_eq⟩
    | _ => exact ⟨_, rfl⟩
  · cases e <;> exact ⟨_, rfl⟩

/-- Nodes that are the same as JSON are of the same construct. -/
theorem Node.construct_eq_of_same {a b : Node} (h : a.toJson.same b.toJson = true) :
  a.construct = b.construct
  := by
  obtain ⟨fields, ha⟩ := a.exists_toJson_eq
  obtain ⟨fields', hb⟩ := b.exists_toJson_eq
  simp only [ha, hb, Json.same, Json.sameFields, List.lookup_cons, beq_self_eq_true,
    Bool.and_eq_true, beq_iff_eq] at h
  exact h.2.1

/-- Nodes are the same as JSON if they are equal with their tokens reduced to their texts.  Nodes of
different sorts are of different constructs, which their JSON shows. -/
theorem Node.same_toJson (a b : Node) :
  a.toJson.same b.toJson = true ↔ a.textOnly = b.textOnly
  := by
  have hstmt (s : Stmt) : (Node.statement s).textOnly = .statement s.textOnly := rfl
  have hexpr (e : Expr) : (Node.expression e).textOnly = .expression e.textOnly := rfl
  have hsorts {c d : Node} (h : c.construct ≠ d.construct) :
      c.toJson.same d.toJson = true ↔ c.textOnly = d.textOnly := by
    apply iff_of_false (mt construct_eq_of_same h)
    intro htext
    apply h
    rw [← construct_mapTokens Token.textOnly c, ← construct_mapTokens Token.textOnly d]
    apply congrArg construct htext
  have hps (p : Program) (s : Stmt) : (program p).construct ≠ (statement s).construct := by
    cases s <;> simp [construct, Stmt.construct]
  have hpe (p : Program) (e : Expr) : (program p).construct ≠ (expression e).construct := by
    cases e <;> simp [construct, Expr.construct]
  have hse (s : Stmt) (e : Expr) : (statement s).construct ≠ (expression e).construct := by
    cases s <;> cases e <;> simp [construct, Stmt.construct, Expr.construct]
  rcases a with p | s | e <;> rcases b with p' | s' | e'
  · simp [toJson, Program.toJson, List.lookup_cons, Stmt.sameItems_listToJson, textOnly,
      mapTokens, Program.mapTokens]
  · apply hsorts (hps p s')
  · apply hsorts (hpe p e')
  · apply hsorts (hps p' s).symm
  · simp [toJson, Stmt.same_toJson, hstmt]
  · apply hsorts (hse s e')
  · apply hsorts (hpe p' e).symm
  · apply hsorts (hse s' e).symm
  · simp [toJson, Expr.same_toJson, hexpr]

/-! ### Corresponding nodes -/

/-- The token of a changed statement is the changed token. -/
theorem Stmt.token_mapTokens (f : Token → Token) (s : Stmt) :
  (s.mapTokens f f).token = f s.token
  := by
  cases s with
  | returning token value => cases value <;> rfl
  | block body =>
    cases body
    rfl
  | _ => rfl

/-- The token of a changed expression is the changed token. -/
theorem Expr.token_mapTokens (f : Token → Token) (e : Expr) :
  (e.mapTokens f f).token = f e.token
  := by
  cases e <;> rfl

namespace Node

/-- The nodes that a node has as its parts, in the order in which JSON lists them. -/
def children : Node → List Node
  | program p => p.statements.map statement
  | statement (.binding _ name value) => [expression (.name name), expression value]
  | statement (.returning _ value) => value.toList.map expression
  | statement (.expression _ value) => [expression value]
  | statement (.block body) => body.statements.map statement
  | expression (.name _) | expression (.integer _ _) | expression (.boolean _ _) => []
  | expression (.unary _ _ right) => [expression right]
  | expression (.binary _ left _ right) => [expression left, expression right]
  | expression (.conditional _ condition consequence alternative) =>
    expression condition :: statement (.block consequence)
      :: alternative.toList.map (fun b => statement (.block b))
  | expression (.function _ parameters body) =>
    parameters.map (fun id => expression (.name id)) ++ [statement (.block body)]
  | expression (.call _ function arguments) => expression function :: arguments.map expression

/-- The node at the end of a path, which tells at each node the index of the part to go on to. -/
def at? : Node → List Nat → Option Node
  | n, [] => some n
  | n, i :: path => n.children[i]?.bind (fun child => child.at? path)

section

variable (f : Token → Token)

/-- The parts of a changed node are the changed parts. -/
theorem children_mapTokens (n : Node) :
  (n.mapTokens f).children = n.children.map (mapTokens f)
  := by
  rcases n with p | s | e
  · simp [mapTokens, children, Program.mapTokens, Stmt.mapTokensEach_eq_map]
  · cases s with
    | returning token value => cases value <;> rfl
    | block body =>
      cases body
      simp [mapTokens, children, Stmt.mapTokens, Block.mapTokens, Block.statements,
        Stmt.mapTokensEach_eq_map]
    | _ => rfl
  · cases e with
    | conditional token condition consequence alternative => cases alternative <;> rfl
    | function token parameters body =>
      simp [mapTokens, children, Expr.mapTokens, Stmt.mapTokens]
    | call token callee arguments =>
      simp [mapTokens, children, Expr.mapTokens, Expr.mapTokensEach_eq_map]
    | _ => rfl

/-- The node on a path of a changed node is the changed one on the path. -/
theorem at?_mapTokens (n : Node) (path : List Nat) :
  (n.mapTokens f).at? path = (n.at? path).map (mapTokens f)
  := by
  induction path generalizing n with
  | nil => rfl
  | cons i path ih =>
    simp only [at?, children_mapTokens, List.getElem?_map]
    cases n.children[i]? with
    | none => rfl
    | some child => apply ih

variable {f} (hf : ∀ t, (f t).text = t.text)

include hf

/-- The rendering of a node depends only on the texts of its tokens. -/
theorem render_mapTokens (n : Node) :
  (n.mapTokens f).render = n.render
  := by
  cases n with
  | program p => apply p.render_mapTokens f hf
  | statement s => apply s.render_mapTokens f hf
  | expression e => apply e.renderChain_mapTokens f hf

/-- The literal of a node depends only on the texts of its tokens. -/
theorem literal_mapTokens (n : Node) :
  (n.mapTokens f).literal = n.literal
  := by
  cases n with
  | program p =>
    simp [mapTokens, literal, Program.mapTokens, Program.literal, Stmt.mapTokensEach_eq_map,
      Function.comp_def, Stmt.token_mapTokens, hf]
  | statement s => simp [mapTokens, literal, Stmt.token_mapTokens, hf]
  | expression e => simp [mapTokens, literal, Expr.token_mapTokens, hf]

/-- The JSON of a node depends only on the texts of its tokens. -/
theorem toJson_mapTokens (n : Node) :
  (n.mapTokens f).toJson = n.toJson
  := by
  cases n with
  | program p => apply p.toJson_mapTokens hf
  | statement s => apply s.toJson_mapTokens hf
  | expression e => apply e.toJson_mapTokens hf

end

/-- Nodes that are equal with their tokens reduced to their texts have parts in the same places,
and look the same there in every view that does not depend on the rest of the tokens. -/
theorem map_at?_of_textOnly {α : Type} {a b : Node} (h : a.textOnly = b.textOnly)
    {view : Node → α} (hview : ∀ n : Node, view n.textOnly = view n) (path : List Nat) :
  (a.at? path).map view = (b.at? path).map view
  := by
  have hmap (n : Node) : (n.textOnly.at? path).map view = (n.at? path).map view := by
    rw [textOnly, at?_mapTokens, Option.map_map]
    congr 1
    funext m
    apply hview
  rw [← hmap a, h, hmap b]

/-- JSON tells two nodes apart exactly if they differ in more than the kinds and the places of their
tokens.  Nodes that are the same as JSON have the same constructs, canonical texts and literals in
all places, and equal nodes are the same as JSON. -/
theorem same_toJson_iff (a b : Node) :
  (a.toJson.same b.toJson = true ↔ a.textOnly = b.textOnly) ∧
    (a.toJson = b.toJson ↔ a.textOnly = b.textOnly) ∧
    (a.toJson.same b.toJson = true → ∀ path,
      (a.at? path).map construct = (b.at? path).map construct ∧
        (a.at? path).map render = (b.at? path).map render ∧
        (a.at? path).map literal = (b.at? path).map literal) ∧
    (a.same b = true → a.toJson.same b.toJson = true)
  := by
  have hiff := same_toJson a b
  have heq (h : a.textOnly = b.textOnly) : a.toJson = b.toJson := by
    rw [← toJson_mapTokens Token.text_textOnly a, ← toJson_mapTokens Token.text_textOnly b]
    apply congrArg toJson h
  refine ⟨hiff, ⟨?_, heq⟩, ?_, ?_⟩
  · intro h
    rw [← hiff, h, same_toJson]
  · intro h path
    have htext := hiff.mp h
    exact ⟨map_at?_of_textOnly htext (construct_mapTokens _) path,
      map_at?_of_textOnly htext (render_mapTokens Token.text_textOnly) path,
      map_at?_of_textOnly htext (literal_mapTokens Token.text_textOnly) path⟩
  · intro h
    rw [hiff, (Node.same_iff a b).mp h]

/-- The tree of `a + 1`, with all its tokens of one kind and in one place. -/
def sum (kind : Kind) (position : Int) : Node :=
  .expression (.binary ⟨kind, "+", position⟩ (.name ⟨⟨kind, "a", position⟩, "a"⟩) "+"
    (.integer ⟨kind, "1", position⟩ 1))

/-- Trees with other kinds and places are the same as JSON, and so are the texts of their second
operands.  A tree is the same as itself. -/
theorem same_toJson_sum :
  (sum .plus 0).toJson.same (sum .illegal 7).toJson = true ∧
    ((sum .plus 0).at? [1]).map render = ((sum .illegal 7).at? [1]).map render ∧
    (sum .plus 0).toJson.same (sum .plus 0).toJson = true
  := by
  obtain ⟨hiff, -, hviews, -⟩ := same_toJson_iff (sum .plus 0) (sum .illegal 7)
  have hsame := hiff.mpr rfl
  obtain ⟨-, -, -, hequal⟩ := same_toJson_iff (sum .plus 0) (sum .plus 0)
  have hself : (sum .plus 0).same (sum .plus 0) = true := (same_iff _ _).mpr rfl
  exact ⟨hsame, (hviews hsame [1]).2.1, hequal hself⟩

end Node

end MonkeySyntax
