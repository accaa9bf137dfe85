import Mathlib.Data.List.Forall2
import MonkeySyntax.Tree.Render
import MonkeySyntax.Proofs.Tree.Shape
import MonkeySyntax.Proofs.Tree.Tokens

/-!
# The tokens of rendered trees

The tokens that are read from the canonical text of a source-shaped tree are those that
`unparse` lists.  No two of them run together: what follows an expression is never a letter or
a digit, and the operators and words are set apart by the text itself.

Rendering unwinds the chains of binary expressions and calls.  The lemmas `render_binary` and
`render_call` state what it comes to at one link.  It depends on the texts of tokens only, and
not at all on the tokens of expression statements.
-/

namespace MonkeySyntax

/-! ### Rendering link by link -/

/-- The loop along the left side of an expression adds the links that it has met to the rendering.
-/
theorem Expr.renderChain_eq : ∀ (e : Expr) (links : List Link),
    e.renderChain links = links.foldl Link.extend e.render
  | .name _, _ => rfl
  | .integer _ _, _ => rfl
  | .boolean _ _, _ => rfl
  | .unary _ _ _, _ => rfl
  | .conditional _ _ _ _, _ => rfl
  | .function _ _ _, _ => rfl
  | .binary _ left _ _, _ => by
    rw [Expr.render, Expr.renderChain, Expr.renderChain, Expr.renderChain_eq left,
      Expr.renderChain_eq left]
    rfl
  | .call _ callee _, _ => by
    rw [Expr.render, Expr.renderChain, Expr.renderChain, Expr.renderChain_eq callee,
      Expr.renderChain_eq callee]
    rfl

theorem Expr.render_unary (token : Token) (operator : String) (right : Expr) :
  (Expr.unary token operator right).render = "(" ++ operator ++ right.render ++ ")"
  := rfl

theorem Expr.render_binary (token : Token) (left : Expr) (operator : String) (right : Expr) :
  (Expr.binary token left operator right).render =
    "(" ++ left.render ++ " " ++ operator ++ " " ++ right.render ++ ")"
  := by
  rw [Expr.render, Expr.renderChain, Expr.renderChain_eq]
  rfl

theorem Expr.render_conditional (token : Token) (condition : Expr) (consequence : Block)
    (alternative : Option Block) :
  (Expr.conditional token condition consequence alternative).render =
    "if (" ++ condition.render ++ ") " ++ consequence.render ++ Block.renderElse alternative
  := rfl

theorem Expr.render_function (token : Token) (parameters : List Ident) (body : Block) :
  (Expr.function token parameters body).render =
    token.text ++ "(" ++ String.intercalate ", " (parameters.map Ident.render) ++ ") "
      ++ body.render
  := rfl

theorem Expr.render_call (token : Token) (callee : Expr) (arguments : List Expr) :
  (Expr.call token callee arguments).render =
    callee.render ++ "(" ++ String.intercalate ", " (Expr.renderEach arguments) ++ ")"
  := by
  rw [Expr.render, Expr.renderChain, Expr.renderChain_eq]
  rfl

/-! ### Rendering with other tokens -/

theorem Ident.map_render_mapToken (f : Token → Token) (ids : List Ident) :
  (ids.map (Ident.mapToken f)).map Ident.render = ids.map Ident.render
  := by
  rw [List.map_map]
  rfl

theorem Stmt.isExpression_mapTokens (f g : Token → Token) (s : Stmt) :
  (s.mapTokens f g).isExpression = s.isExpression
  := by
  cases s with
  | returning token value => cases value <;> rfl
  | _ => rfl

theorem Stmt.isEmpty_mapTokensEach (f g : Token → Token) (ss : List Stmt) :
  (Stmt.mapTokensEach f g ss).isEmpty = ss.isEmpty
  := by
  cases ss with
  | nil => rfl
  | cons => rfl

mutual

/-- The loop along the left side of an expression depends only on the texts of its tokens. -/
theorem Expr.renderChain_mapTokens {f : Token → Token} (g : Token → Token)
    (hf : ∀ t, (f t).text = t.text) :
    ∀ (e : Expr) (links : List Link), (e.mapTokens f g).renderChain links = e.renderChain links
  | .name _, _ => rfl
  | .integer _ _, _ => by rw [Expr.mapTokens, Expr.renderChain, Expr.renderChain, hf]
  | .boolean _ _, _ => by rw [Expr.mapTokens, Expr.renderChain, Expr.renderChain, hf]
  | .unary _ _ right, _ => by
    rw [Expr.mapTokens, Expr.renderChain, Expr.renderChain, Expr.renderChain_mapTokens g hf right]
  | .binary _ left _ right, _ => by
    rw [Expr.mapTokens, Expr.renderChain, Expr.renderChain, Expr.renderChain_mapTokens g hf right,
      Expr.renderChain_mapTokens g hf left]
  | .conditional _ condition consequence alternative, _ => by
    rw [Expr.mapTokens, Expr.renderChain, Expr.renderChain,
      Expr.renderChain_mapTokens g hf condition, Block.render_mapTokens g hf consequence,
      Block.renderElse_mapTokens g hf alternative]
  | .function _ parameters body, _ => by
    rw [Expr.mapTokens, Expr.renderChain, Expr.renderChain, Block.render_mapTokens g hf body, hf,
      Ident.map_render_mapToken f]
  | .call _ callee arguments, _ => by
    rw [Expr.mapTokens, Expr.renderChain, Expr.renderChain,
      Expr.renderEach_mapTokens g hf arguments, Expr.renderChain_mapTokens g hf callee]

theorem Expr.renderEach_mapTokens {f : Token → Token} (g : Token → Token)
    (hf : ∀ t, (f t).text = t.text) :
    ∀ es : List Expr, Expr.renderEach (Expr.mapTokensEach f g es) = Expr.renderEach es
  | [] => rfl
  | e :: es => by
    rw [Expr.mapTokensEach, Expr.renderEach, Expr.renderEach, Expr.renderChain_mapTokens g hf e,
      Expr.renderEach_mapTokens g hf es]

theorem Stmt.render_mapTokens {f : Token → Token} (g : Token → Token)
    (hf : ∀ t, (f t).text = t.text) :
    ∀ s : Stmt, (s.mapTokens f g).render = s.render
  | .binding _ _ value => by
    rw [Stmt.mapTokens, Stmt.render, Stmt.render, Expr.renderChain_mapTokens g hf value, hf]
    rfl
  | .returning _ none => by rw [Stmt.mapTokens, Stmt.render, Stmt.render, hf]
  | .returning _ (some value) => by
    rw [Stmt.mapTokens, Stmt.render, Stmt.render, Expr.renderChain_mapTokens g hf value, hf]
  | .expression _ value => by
    rw [Stmt.mapTokens, Stmt.render, Stmt.render, Expr.renderChain_mapTokens g hf value]
  | .block body => by
    rw [Stmt.mapTokens, Stmt.render, Stmt.render, Block.render_mapTokens g hf body]

theorem Stmt.renderEach_mapTokens {f : Token → Token} (g : Token → Token)
    (hf : ∀ t, (f t).text = t.text) :
    ∀ ss : List Stmt, Stmt.renderEach (Stmt.mapTokensEach f g ss) = Stmt.renderEach ss
  | [] => rfl
  | s :: ss => by
    rw [Stmt.mapTokensEach, Stmt.renderEach, Stmt.renderEach, Stmt.render_mapTokens g hf s,
      Stmt.renderEach_mapTokens g hf ss, Stmt.isExpression_mapTokens f g,
      Stmt.isEmpty_mapTokensEach f g]

theorem Block.render_mapTokens {f : Token → Token} (g : Token → Token)
    (hf : ∀ t, (f t).text = t.text) :
    ∀ b : Block, (b.mapTokens f g).render = b.render
  | .mk _ statements => by
    rw [Block.mapTokens, Block.render, Block.render, Stmt.renderEach_mapTokens g hf statements,
      Stmt.isEmpty_mapTokensEach f g]

theorem Block.renderElse_mapTokens {f : Token → Token} (g : Token → Token)
    (hf : ∀ t, (f t).text = t.text) :
    ∀ b : Option Block, Block.renderElse (Block.mapTokensElse f g b) = Block.renderElse b
  | none => rfl
  | some b => by
    rw [Block.mapTokensElse, Block.renderElse, Block.renderElse, Block.render_mapTokens g hf b]

end

/-- The rendering of a program depends only on the texts of its tokens. -/
theorem Program.render_mapTokens {f : Token → Token} (g : Token → Token)
    (hf : ∀ t, (f t).text = t.text) (p : Program) :
  (p.mapTokens f g).render = p.render
  := by
  rw [Program.render, Program.mapTokens, Stmt.renderEach_mapTokens g hf, Program.render]

/-- What is erased does not show in the text. -/
theorem Program.render_erased (p : Program) :
  p.erased.render = p.render
  := p.render_mapTokens _ Token.text_unplaced

/-- The places of tokens do not show in the text. -/
theorem Program.render_unplaced (p : Program) :
  p.unplaced.render = p.render
  := p.render_mapTokens _ Token.text_unplaced

/-! ### What follows an expression -/

/-- Characters that do not start with a letter or a digit. -/
def Breaks (cs : List Char) : Prop :=
  ∀ c ∈ cs.head?, isLetter c = false ∧ isDigit c = false

theorem breaks_nil :
  Breaks []
  := by simp [Breaks]

/-- A character that is neither a letter nor a digit breaks words and numbers. -/
theorem breaks_cons {c : Char} (cs : List Char) (hletter : isLetter c = false)
    (hdigit : isDigit c = false) :
  Breaks (c :: cs)
  := by simp [Breaks, hletter, hdigit]

/-- The kinds of texts that are made of letters or of digits. -/
def Kind.isAlphanumeric : Kind → Bool
  | .identifier | .integer | .functionWord | .letWord | .trueWord | .falseWord => true
  | .ifWord | .elseWord | .returnWord => true
  | _ => false

/-- Such characters do not lengthen a word or a number. -/
theorem Breaks.isLengthenedBy {cs : List Char} (h : Breaks cs) {kind : Kind}
    (hkind : kind.isAlphanumeric = true) :
  ∀ c ∈ cs.head?, kind.isLengthenedBy c = false
  := by
  intro c hc
  obtain ⟨hletter, hdigit⟩ := h c hc
  cases kind <;> first | apply hletter | apply hdigit | cases hkind

/-- Nothing lengthens an operator between operands. -/
theorem Kind.isLengthenedBy_of_isBinary {kind : Kind} (h : kind.isBinary = true) (c : Char) :
  kind.isLengthenedBy c = false
  := by
  cases kind <;> first | rfl | cases h

/-- A word or a number has a first character, which is no equals sign. -/
theorem Token.IsLexemeOf.exists_first {t : Token} {kind : Kind} (ht : t.IsLexemeOf kind)
    (hkind : kind.isAlphanumeric = true) :
  ∃ c cs, t.text.toList = c :: cs ∧ c ≠ '='
  := by
  obtain ⟨rfl, hlexeme⟩ := ht
  have hne (other : Kind) (hother : other.isAlphanumeric = false) : t.kind ≠ other := by
    rintro rfl
    rw [hkind] at hother
    cases hother
  obtain ⟨c, cs, htext, hc⟩ :=
    ((Token.isLexeme_iff (hne .endOfInput rfl)).mp hlexeme).exists_first
  exact ⟨c, cs, htext, hc (hne .assign rfl) (hne .equal rfl)⟩

/-- No expression starts with an equals sign, which would lengthen an operator before it. -/
theorem Expr.exists_first_render : ∀ e : Expr, e.IsSourceShaped →
    ∃ c cs, e.render.toList = c :: cs ∧ c ≠ '='
  | .name id, ⟨hname, hvalue⟩ => by
    have hrender : (Expr.name id).render = id.token.text := hvalue
    rw [hrender]
    apply hname.exists_first rfl
  | .integer _ _, ⟨hinteger, _⟩ => hinteger.exists_first rfl
  | .boolean _ _, h => by
    rcases h with ⟨htrue, -⟩ | ⟨hfalse, -⟩
    · apply htrue.exists_first rfl
    · apply hfalse.exists_first rfl
  | .unary token operator right, _ => by
    rw [Expr.render_unary]
    simp
  | .binary token left operator right, _ => by
    rw [Expr.render_binary]
    simp
  | .conditional token condition consequence alternative, _ => by
    rw [Expr.render_conditional]
    simp
  | .function token parameters body, ⟨hword, _⟩ => by
    obtain ⟨c, cs, htext, hc⟩ := hword.exists_first rfl
    rw [Expr.render_function]
    simp [htext, hc]
  | .call token callee arguments, ⟨_, hcallee, _⟩ => by
    obtain ⟨c, cs, htext, hc⟩ := Expr.exists_first_render callee hcallee
    rw [Expr.render_call]
    simp [htext, hc]

/-! ### Parts of a text

A text is put together from words and operators by a few joints: a space, parentheses, commas,
braces.  None of them lets the parts run together. -/

/-- Characters that are read as the tokens, before whatever does not run on from them. -/
def LexesAs (cs : List Char) (us : List Token) : Prop :=
  ∀ ⦃rest : List Char⦄ ⦃ts : List Token⦄, Breaks rest → Lexes rest ts →
    Lexes (cs ++ rest) (us ++ ts)

/-- A word or a number is read as its token. -/
theorem Token.IsLexemeOf.lexes {t : Token} {kind : Kind} (ht : t.IsLexemeOf kind)
    (hkind : kind.isAlphanumeric = true) :
  LexesAs t.text.toList [t.unplaced]
  := by
  intro rest ts hrest h
  obtain ⟨rfl, hlexeme⟩ := ht
  apply h.lexeme hlexeme _ (hrest.isLengthenedBy hkind)
  rintro hend
  rw [hend] at hkind
  cases hkind

theorem lexes_else :
  LexesAs "else".toList [.ofKind .elseWord]
  := by
  have helse : (Token.ofKind .elseWord).IsLexemeOf .elseWord := by decide
  apply helse.lexes rfl

namespace LexesAs

variable {cs cs' : List Char} {us us' : List Token}

/-- Nothing lengthens an operator that stands between operands. -/
theorem operator {op : Token} (hop : op.kind.isBinary = true) (hlexeme : op.IsLexeme) :
  LexesAs op.text.toList [op.unplaced]
  := by
  intro rest ts _ h
  apply h.lexeme hlexeme _ (fun d _ => Kind.isLengthenedBy_of_isBinary hop d)
  rintro hend
  rw [hend] at hop
  cases hop

/-- An operator before its operand, which must not start with the second half of a symbol. -/
theorem unary {op : Token} (hop : op.kind = .bang ∨ op.kind = .minus) (hlexeme : op.IsLexeme)
    (hfirst : ∃ c cs', cs = c :: cs' ∧ c ≠ '=') (hright : LexesAs cs us) :
  LexesAs (op.text.toList ++ cs) (op.unplaced :: us)
  := by
  intro rest ts hrest h
  obtain ⟨c, cs', rfl, hc⟩ := hfirst
  rw [List.append_assoc]
  apply (hright hrest h).lexeme hlexeme
  · rcases hop with hkind | hkind <;> simp [hkind]
  · rcases hop with hkind | hkind <;> simp [hkind, Kind.isLengthenedBy, hc]

/-- Parts with a space between them. -/
theorem spaced (hleft : LexesAs cs us) (hright : LexesAs cs' us') :
  LexesAs (cs ++ ' ' :: cs') (us ++ us')
  := by
  intro rest ts hrest h
  rw [List.append_assoc, List.append_assoc]
  apply hleft (breaks_cons _ rfl rfl) ((hright hrest h).layout rfl)

/-- A part in parentheses after another. -/
theorem call (hleft : LexesAs cs us) (hright : LexesAs cs' us') :
  LexesAs (cs ++ '(' :: (cs' ++ [')']))
    (us ++ .ofKind .leftParen :: (us' ++ [.ofKind .rightParen]))
  := by
  intro rest ts _ h
  simp only [List.append_assoc, List.cons_append, List.nil_append]
  have hclose := hright (breaks_cons rest rfl rfl) (h.punctuation (c := ')') (by decide))
  apply hleft (breaks_cons _ rfl rfl) (hclose.punctuation (by decide))

/-- What is in parentheses has the tokens in parentheses. -/
theorem group (h : LexesAs cs us) :
  LexesAs ('(' :: (cs ++ [')'])) (.ofKind .leftParen :: (us ++ [.ofKind .rightParen]))
  := by
  have hempty : LexesAs [] [] := fun _ _ _ h => h
  apply hempty.call h

/-- A part before a semicolon, which ends it. -/
theorem terminated (h : LexesAs cs us) {rest : List Char} {ts : List Token}
    (hlexes : Lexes rest ts) :
  Lexes (cs ++ ';' :: rest) (us ++ .ofKind .semicolon :: ts)
  := h (breaks_cons rest rfl rfl) (hlexes.punctuation (c := ';') (by decide))

/-- What is in braces has the tokens in braces. -/
theorem braced (h : LexesAs cs us) :
  LexesAs ('\x7b' :: ' ' :: (cs ++ [' ', '\x7d']))
    (.ofKind .leftBrace :: (us ++ [.ofKind .rightBrace]))
  := by
  intro rest ts _ hlexes
  simp only [List.append_assoc, List.cons_append, List.nil_append]
  have hclose := (hlexes.punctuation (c := '\x7d') (by decide)).layout (c := ' ') rfl
  have hopen := (h (breaks_cons _ rfl rfl) hclose).layout (c := ' ') rfl
  apply hopen.punctuation (by decide)

/-! ### Separated parts -/

/-- A comma breaks words and numbers, and so does what comes after the last part if there is none.
-/
theorem breaks_flatMap {rest : List Char} (css : List (List Char)) (hrest : Breaks rest) :
  Breaks (css.flatMap (fun cs => [',', ' '] ++ cs) ++ rest)
  := by
  cases css with
  | nil => apply hrest
  | cons cs css => exact breaks_cons _ rfl rfl

variable {css : List (List Char)} {uss : List (List Token)}

/-- Parts with a comma before each of them are read one by one. -/
theorem more (h : List.Forall₂ LexesAs css uss) :
  LexesAs (css.flatMap (fun cs => [',', ' '] ++ cs))
    (uss.flatMap (fun us => [Token.ofKind .comma] ++ us))
  := by
  induction h with
  | nil => exact fun _ _ _ h => h
  | @cons cs us css uss hpart _ ih =>
    intro rest ts hrest hlexes
    simp only [List.flatMap_cons, List.append_assoc, List.cons_append, List.nil_append]
    have hparts := hpart (breaks_flatMap css hrest) (ih hrest hlexes)
    apply (hparts.layout rfl).punctuation (by decide)

/-- Parts with commas between them are read one by one. -/
theorem separated (h : List.Forall₂ LexesAs css uss) :
  LexesAs ([',', ' '].intercalate css) ([Token.ofKind .comma].intercalate uss)
  := by
  cases h with
  | nil => exact fun _ _ _ h => h
  | @cons cs us css uss hpart hparts =>
    intro rest ts hrest hlexes
    rw [intercalate_cons_eq, intercalate_cons_eq, List.append_assoc, List.append_assoc]
    apply hpart (breaks_flatMap css hrest) (more hparts hrest hlexes)

end LexesAs

/-! ### Trees -/

/-- Each parameter has its own token. -/
theorem forall₂_lexes_parameters {ids : List Ident} (h : ∀ id ∈ ids, id.IsSourceShaped) :
  List.Forall₂ LexesAs ((ids.map Ident.render).map String.toList)
    (ids.map (fun id => [id.token.unplaced]))
  := by
  rw [List.map_map, List.forall₂_map_left_iff, List.forall₂_map_right_iff, List.forall₂_same]
  intro id hid
  obtain ⟨hname, hvalue⟩ := h id hid
  rw [Function.comp_apply, Ident.render, hvalue]
  apply hname.lexes rfl

mutual

/-- The text of an expression is read as the tokens of the expression. -/
theorem Expr.lexes_render : ∀ e : Expr, e.IsSourceShaped → LexesAs e.render.toList e.unparse
  | .name id, ⟨hname, hvalue⟩ => by
    have hrender : (Expr.name id).render = id.token.text := hvalue
    rw [hrender]
    apply hname.lexes rfl
  | .integer _ _, ⟨hinteger, _⟩ => hinteger.lexes rfl
  | .boolean _ _, hboolean => by
    rcases hboolean with ⟨htrue, -⟩ | ⟨hfalse, -⟩
    · apply htrue.lexes rfl
    · apply hfalse.lexes rfl
  | .unary token operator right, ⟨hop, hlexeme, hoperator, hright⟩ => by
    have hoperand := Expr.lexes_render right hright
    have hgroup := (hoperand.unary hop hlexeme (Expr.exists_first_render right hright)).group
    rw [Expr.render_unary, hoperator]
    simp only [Expr.unparse, String.toList_append, List.append_assoc, List.cons_append] at hgroup ⊢
    apply hgroup
  | .binary token left operator right, ⟨hop, hlexeme, hoperator, hleft, hright⟩ => by
    have hoperation := (Expr.lexes_render left hleft).spaced (.operator hop hlexeme)
    have hgroup := (hoperation.spaced (Expr.lexes_render right hright)).group
    rw [Expr.render_binary, hoperator]
    simp only [Expr.unparse, String.toList_append, List.append_assoc, List.cons_append,
      List.nil_append] at hgroup ⊢
    apply hgroup
  | .conditional token condition consequence none, ⟨hword, hcondition, hconsequence, _⟩ => by
    have hhead := (hword.lexes rfl).spaced (Expr.lexes_render condition hcondition).group
    have hchoice := hhead.spaced (Block.lexes_render consequence hconsequence)
    rw [hword.2.text_eq hword.1 rfl] at hchoice
    rw [Expr.render_conditional]
    simp only [Expr.unparse, Block.unparseElse, Block.renderElse, String.append_empty,
      String.toList_append, List.append_assoc, List.cons_append, List.nil_append,
      List.append_nil] at hchoice ⊢
    apply hchoice
  | .conditional token condition consequence (some alternative),
    ⟨hword, hcondition, hconsequence, halternative⟩ => by
    have hhead := (hword.lexes rfl).spaced (Expr.lexes_render condition hcondition).group
    have hblock := hhead.spaced (Block.lexes_render consequence hconsequence)
    have hchoice :=
      (hblock.spaced lexes_else).spaced (Block.lexes_render alternative halternative)
    rw [hword.2.text_eq hword.1 rfl] at hchoice
    rw [Expr.render_conditional]
    simp only [Expr.unparse, Block.unparseElse, Block.renderElse, String.toList_append,
      List.append_assoc, List.cons_append, List.nil_append] at hchoice ⊢
    apply hchoice
  | .function token parameters body, ⟨hword, hparameters, hbody⟩ => by
    have hhead := (hword.lexes rfl).call (.separated (forall₂_lexes_parameters hparameters))
    have hfunction := hhead.spaced (Block.lexes_render body hbody)
    rw [Expr.render_function]
    simp only [Expr.unparse, String.toList_append, String.toList_intercalate, List.append_assoc,
      List.cons_append, List.nil_append] at hfunction ⊢
    apply hfunction
  | .call token callee arguments, ⟨hparen, hcallee, harguments⟩ => by
    have hcall :=
      (Expr.lexes_render callee hcallee).call (.separated (Expr.lexes_each arguments harguments))
    rw [Expr.render_call]
    simp only [Expr.unparse, hparen.unplaced_eq rfl, String.toList_append,
      String.toList_intercalate, List.append_assoc] at hcall ⊢
    apply hcall

/-- Each rendered expression has the tokens of the expression. -/
theorem Expr.lexes_each : ∀ es : List Expr, Expr.AreSourceShaped es →
    List.Forall₂ LexesAs ((Expr.renderEach es).map String.toList) (Expr.unparseEach es)
  | [], _ => .nil
  | e :: es, ⟨he, hes⟩ => .cons (Expr.lexes_render e he) (Expr.lexes_each es hes)

/-- The text of a statement is read as the tokens of the statement.  Only an expression may run
on. -/
theorem Stmt.lexes_render : ∀ s : Stmt, s.IsSourceShaped → ∀ (rest : List Char) (ts : List Token),
    (s.isExpression = true → Breaks rest) → Lexes rest ts →
      Lexes (s.render.toList ++ rest) (s.unparse ++ ts)
  | .binding token name value, ⟨hword, ⟨hname, hnameValue⟩, hvalue⟩, rest, ts, _, h => by
    have hexpr := (Expr.lexes_render value hvalue).terminated h
    have hspells : Kind.assign.Spells "=".toList := .symbol (c := '=') rfl rfl rfl
    have hassign := (hexpr.layout (c := ' ') rfl).ofKind rfl hspells
      (by simp [Kind.isLengthenedBy])
    have hhead := (hword.lexes rfl).spaced (hname.lexes rfl)
    have hlet := hhead (breaks_cons _ rfl rfl) (hassign.layout (c := ' ') rfl)
    rw [Stmt.render, Ident.render, hnameValue]
    simp only [Stmt.unparse, String.toList_append, List.append_assoc, List.cons_append,
      List.nil_append] at hlet ⊢
    apply hlet
  | .returning token none, hword, rest, ts, _, h => by
    have hreturn := (Token.IsLexemeOf.lexes hword rfl).terminated h
    rw [Stmt.render]
    simp only [Stmt.unparse, String.toList_append, List.append_assoc, List.cons_append,
      List.nil_append] at hreturn ⊢
    apply hreturn
  | .returning token (some value), ⟨hword, hvalue⟩, rest, ts, _, h => by
    have hreturn := ((hword.lexes rfl).spaced (Expr.lexes_render value hvalue)).terminated h
    rw [Stmt.render]
    simp only [Stmt.unparse, String.toList_append, List.append_assoc, List.cons_append,
      List.nil_append] at hreturn ⊢
    apply hreturn
  | .expression _ value, ⟨_, hvalue⟩, rest, ts, hrest, h =>
    Expr.lexes_render value hvalue (hrest rfl) h
  | .block _, hblock, _, _, _, _ => hblock.elim

/-- The text of statements is read as their tokens. -/
theorem Stmt.lexes_renderEach : ∀ ss : List Stmt, Stmt.AreSourceShaped ss →
    LexesAs (String.join (Stmt.renderEach ss)).toList (Stmt.unparseEach ss)
  | [], _ => fun _ _ _ h => h
  | s :: ss, ⟨hs, hss⟩ => by
    intro rest ts hrest h
    have hmore := Stmt.lexes_renderEach ss hss hrest h
    rw [Stmt.renderEach, Stmt.unparseEach, String.join_cons, String.toList_append,
      List.append_assoc, List.append_assoc]
    split
    next =>
      have hclose := hmore.punctuation (c := ';') (by decide)
      have hstmt := Stmt.lexes_render s hs _ _ (fun _ => breaks_cons _ rfl rfl) hclose
      simp only [String.toList_append, List.append_assoc]
      apply hstmt
    next hlast =>
      apply Stmt.lexes_render s hs _ _ _ hmore
      intro hexpression
      obtain rfl : ss = [] := by simpa [hexpression] using hlast
      apply hrest

/-- The text of a block is read as its tokens. -/
theorem Block.lexes_render : ∀ b : Block, b.IsSourceShaped → LexesAs b.render.toList b.unparse
  | .mk token statements, ⟨hbrace, hstatements⟩ => by
    rw [Block.render, Block.unparse, hbrace.unplaced_eq rfl]
    split
    next hempty =>
      obtain rfl := List.isEmpty_iff.mp hempty
      intro rest ts _ h
      have hclose := (h.punctuation (c := '\x7d') (by decide)).layout (c := ' ') rfl
      apply hclose.punctuation (c := '\x7b') (by decide)
    next =>
      have hbraced := (Stmt.lexes_renderEach statements hstatements).braced
      simp only [String.toList_append, List.append_assoc]
      apply hbraced

end

/-- The text of a program is read as its tokens, up to the end. -/
theorem Program.lexes_render {p : Program} (h : p.IsSourceShaped) :
  Lexes p.render.toList (p.unparse ++ [.endAt 0])
  := by
  have hlexes := Stmt.lexes_renderEach p.statements h breaks_nil .nil
  rwa [List.append_nil] at hlexes

/-- The tokens that are read from the canonical text of a source-shaped node have the kinds and
the texts that `unparse` lists, up to the end of the input. -/
theorem Node.tokenize_render {n : Node} (h : n.IsSourceShaped) :
  (tokenize n.render).map Token.unplaced = n.unparse ++ [.endAt 0]
  := by
  have hlexes : Lexes (n.render.toList ++ []) (n.unparse ++ [.endAt 0]) := by
    cases n with
    | program p => apply Stmt.lexes_renderEach p.statements h breaks_nil .nil
    | statement s =>
      cases s with
      | block body => apply Block.lexes_render body h breaks_nil .nil
      | _ => apply Stmt.lexes_render _ h [] _ (fun _ => breaks_nil) .nil
    | expression e => apply Expr.lexes_render e h breaks_nil .nil
  rw [List.append_nil] at hlexes
  apply hlexes

namespace Node

/-- The tree of `if ((a == (!b))) { f(1, (-2));return; } else { };let g = function() { c };`. -/
def choice : Node :=
  let name (word : String) : Ident := ⟨⟨.identifier, word, 0⟩, word⟩
  let condition : Expr :=
    .binary (.ofKind .equal) (.name (name "a")) "=="
      (.unary (.ofKind .bang) "!" (.name (name "b")))
  let arguments : List Expr :=
    [.integer ⟨.integer, "1", 0⟩ 1,
      .unary (.ofKind .minus) "-" (.integer ⟨.integer, "2", 0⟩ 2)]
  .program ⟨[
    .expression (.ofKind .ifWord)
      (.conditional (.ofKind .ifWord) condition
        (.mk (.ofKind .leftBrace)
          [.expression ⟨.identifier, "f", 0⟩
              (.call (.ofKind .leftParen) (.name (name "f")) arguments),
            .returning (.ofKind .returnWord) none])
        (some (.mk (.ofKind .leftBrace) []))),
    .binding (.ofKind .letWord) (name "g")
      (.function (.ofKind .functionWord) []
        (.mk (.ofKind .leftBrace)
          [.expression ⟨.identifier, "c", 0⟩ (.name (name "c"))]))]⟩

/-- The example has the shape of source text. -/
theorem isSourceShaped_choice :
  choice.IsSourceShaped
  := by
  simp only [choice, IsSourceShaped, Program.IsSourceShaped, Stmt.AreSourceShaped,
    Stmt.IsSourceShaped, Expr.IsSourceShaped, Expr.AreSourceShaped, Block.IsSourceShaped,
    Block.IsSourceShapedElse, Ident.IsSourceShaped]
  decide

/-- Operators, words and semicolons in a row are read one by one. -/
theorem tokenize_render_choice :
  choice.IsSourceShaped ∧
    (tokenize choice.render).map Token.unplaced = choice.unparse ++ [.endAt 0] ∧
    (tokenize choice.render).map Token.text =
      ["if", "(", "(", "a", "==", "(", "!", "b", ")", ")", ")", "\x7b", "f", "(", "1", ",", "(",
        "-", "2", ")", ")", ";", "return", ";", "\x7d", "else", "\x7b", "\x7d", ";",
        "let", "g", "=", "function", "(", ")", "\x7b", "c", "\x7d", ";", ""]
  := by
  have htokens := tokenize_render isSourceShaped_choice
  have htexts := congrArg (List.map Token.text) htokens
  rw [List.map_map] at htexts
  exact ⟨isSourceShaped_choice, htokens, htexts⟩

end Node

end MonkeySyntax
