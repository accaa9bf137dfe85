import MonkeySyntax.Proofs.Tree.Tokens
import MonkeySyntax.Tree.Json

/-!
# JSON without places

A tree as JSON has the texts of the tokens of the tree, and nothing else of them.  So trees whose
tokens have been changed, but for their texts, are the same as JSON.
-/

namespace MonkeySyntax

section

variable {f : Token → Token}

/-- The JSON of a construct depends only on the text of its token. -/
theorem Json.ofConstruct_token (hf : ∀ t, (f t).text = t.text) (construct : String) (t : Token)
    (parts : List (String × Json)) :
  Json.ofConstruct construct (f t) parts = Json.ofConstruct construct t parts
  := by
  rw [Json.ofConstruct, Json.ofConstruct, hf]

theorem Ident.toJson_mapToken (hf : ∀ t, (f t).text = t.text) (id : Ident) :
  (id.mapToken f).toJson = id.toJson
  := Json.ofConstruct_token hf "Identifier" id.token _

theorem Ident.map_toJson_mapToken (hf : ∀ t, (f t).text = t.text) (ids : List Ident) :
  (ids.map (Ident.mapToken f)).map Ident.toJson = ids.map Ident.toJson
  := by
  rw [List.map_map]
  apply List.map_congr_left
  intro id _
  apply id.toJson_mapToken hf

mutual

/-- The JSON of an expression depends only on the texts of its tokens. -/
theorem Expr.toJson_mapTokens (hf : ∀ t, (f t).text = t.text) :
    ∀ e : Expr, (e.mapTokens f f).toJson = e.toJson
  | .name id => id.toJson_mapToken hf
  | .integer _ _ => Json.ofConstruct_token hf _ _ _
  | .boolean _ _ => Json.ofConstruct_token hf _ _ _
  | .unary _ _ right => by
    rw [Expr.mapTokens, Expr.toJson, Expr.toJson, Json.ofConstruct_token hf,
      Expr.toJson_mapTokens hf right]
  | .binary _ left _ right => by
    rw [Expr.mapTokens, Expr.toJson, Expr.toJson, Json.ofConstruct_token hf,
      Expr.toJson_mapTokens hf left, Expr.toJson_mapTokens hf right]
  | .conditional _ condition consequence alternative => by
    rw [Expr.mapTokens, Expr.toJson, Expr.toJson, Json.ofConstruct_token hf,
      Expr.toJson_mapTokens hf condition, Block.toJson_mapTokens hf consequence,
      Block.optionToJson_mapTokensElse hf alternative]
  | .function _ parameters body => by
    rw [Expr.mapTokens, Expr.toJson, Expr.toJson, Json.ofConstruct_token hf,
      Ident.map_toJson_mapToken hf, Block.toJson_mapTokens hf body]
  | .call _ callee arguments => by
    rw [Expr.mapTokens, Expr.toJson, Expr.toJson, Json.ofConstruct_token hf,
      Expr.toJson_mapTokens hf callee, Expr.listToJson_mapTokensEach hf arguments]

theorem Expr.listToJson_mapTokensEach (hf : ∀ t, (f t).text = t.text) :
    ∀ es : List Expr, Expr.listToJson (Expr.mapTokensEach f f es) = Expr.listToJson es
  | [] => rfl
  | e :: es => by
    rw [Expr.mapTokensEach, Expr.listToJson, Expr.listToJson, Expr.toJson_mapTokens hf e,
      Expr.listToJson_mapTokensEach hf es]

theorem Stmt.toJson_mapTokens (hf : ∀ t, (f t).text = t.text) :
    ∀ s : Stmt, (s.mapTokens f f).toJson = s.toJson
  | .binding _ name value => by
    rw [Stmt.mapTokens, Stmt.toJson, Stmt.toJson, Json.ofConstruct_token hf,
      name.toJson_mapToken hf, Expr.toJson_mapTokens hf value]
  | .returning _ none => Json.ofConstruct_token hf _ _ _
  | .returning _ (some value) => by
    rw [Stmt.mapTokens, Stmt.toJson, Stmt.toJson, Json.ofConstruct_token hf, Expr.optionToJson,
      Expr.optionToJson, Expr.toJson_mapTokens hf value]
  | .expression _ value => by
    rw [Stmt.mapTokens, Stmt.toJson, Stmt.toJson, Json.ofConstruct_token hf,
      Expr.toJson_mapTokens hf value]
  | .block body => by rw [Stmt.mapTokens, Stmt.toJson, Stmt.toJson, Block.toJson_mapTokens hf body]

theorem Stmt.listToJson_mapTokensEach (hf : ∀ t, (f t).text = t.text) :
    ∀ ss : List Stmt, Stmt.listToJson (Stmt.mapTokensEach f f ss) = Stmt.listToJson ss
  | [] => rfl
  | s :: ss => by
    rw [Stmt.mapTokensEach, Stmt.listToJson, Stmt.listToJson, Stmt.toJson_mapTokens hf s,
      Stmt.listToJson_mapTokensEach hf ss]

theorem Block.toJson_mapTokens (hf : ∀ t, (f t).text = t.text) :
    ∀ b : Block, (b.mapTokens f f).toJson = b.toJson
  | .mk _ statements => by
    rw [Block.mapTokens, Block.toJson, Block.toJson, Json.ofConstruct_token hf,
      Stmt.listToJson_mapTokensEach hf statements]

theorem Block.optionToJson_mapTokensElse (hf : ∀ t, (f t).text = t.text) :
    ∀ b : Option Block, Block.optionToJson (Block.mapTokensElse f f b) = Block.optionToJson b
  | none => rfl
  | some b => by
    rw [Block.mapTokensElse, Block.optionToJson, Block.optionToJson, Block.toJson_mapTokens hf b]

end

/-- The JSON of a program depends only on the texts of its tokens. -/
theorem Program.toJson_mapTokens (hf : ∀ t, (f t).text = t.text) (p : Program) :
  (p.mapTokens f f).toJson = p.toJson
  := by
  rw [Program.mapTokens, Program.toJson, Program.toJson, Stmt.listToJson_mapTokensEach hf]

end

/-- The places of tokens do not show in JSON. -/
theorem Program.toJson_unplaced (p : Program) :
  p.unplaced.toJson = p.toJson
  := p.toJson_mapTokens Token.text_unplaced

end MonkeySyntax
