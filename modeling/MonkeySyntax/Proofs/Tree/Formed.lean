import MonkeySyntax.Proofs.Grammar.Basic
import MonkeySyntax.Proofs.Tree.Shape

/-!
# Fully formed trees

A tree is fully formed when each of its tokens is of the kind that its construct asks for, and
the values and operators agree with the texts of the tokens.  The tokens are moreover such that
`T` holds of them.

Nothing is asked of the texts themselves.  When the tokens are lexemes, a fully formed tree is
source-shaped.
-/

namespace MonkeySyntax

variable (T : Token → Prop)

/-- A name with an identifier as its token, whose text is its value. -/
def Ident.IsFormed (id : Ident) : Prop :=
  T id.token ∧ id.token.kind = .identifier ∧ id.value = id.token.text

mutual

/-- An expression with tokens of the right kinds, whose values agree with them.  The value of an
integer token is the one that its text converts to, and in range. -/
def Expr.IsFormed : Expr → Prop
  | .name id => id.IsFormed T
  | .integer token value =>
    T token ∧ token.kind = .integer ∧ Numeral.value? token.text = some value ∧
      -Parse.maxInteger - 1 ≤ value ∧ value ≤ Parse.maxInteger
  | .boolean token value =>
    T token ∧ (token.kind = .trueWord ∨ token.kind = .falseWord) ∧
      value = (token.kind == .trueWord)
  | .unary token operator right =>
    T token ∧ (token.kind = .bang ∨ token.kind = .minus) ∧ operator = token.text ∧
      right.IsFormed
  | .binary token left operator right =>
    T token ∧ token.kind.isBinary = true ∧ operator = token.text ∧ left.IsFormed ∧
      right.IsFormed
  | .conditional token condition consequence alternative =>
    T token ∧ token.kind = .ifWord ∧ condition.IsFormed ∧ consequence.IsFormed ∧
      Block.IsFormedElse alternative
  | .function token parameters body =>
    T token ∧ token.kind = .functionWord ∧ (∀ id ∈ parameters, id.IsFormed T) ∧ body.IsFormed
  | .call token function arguments =>
    T token ∧ token.kind = .leftParen ∧ function.IsFormed ∧ Expr.AreFormed arguments

/-- Expressions that are all fully formed. -/
def Expr.AreFormed : List Expr → Prop
  | [] => True
  | e :: es => e.IsFormed ∧ Expr.AreFormed es

/-- A statement with tokens of the right kinds.  That of an expression statement is of a kind
that an expression starts with.  A block does not stand as a statement. -/
def Stmt.IsFormed : Stmt → Prop
  | .binding token name value =>
    T token ∧ token.kind = .letWord ∧ name.IsFormed T ∧ value.IsFormed
  | .returning token none => T token ∧ token.kind = .returnWord
  | .returning token (some value) => T token ∧ token.kind = .returnWord ∧ value.IsFormed
  | .expression token value => T token ∧ token.kind.startsExpr = true ∧ value.IsFormed
  | .block _ => False

/-- Statements that are all fully formed. -/
def Stmt.AreFormed : List Stmt → Prop
  | [] => True
  | s :: ss => s.IsFormed ∧ Stmt.AreFormed ss

/-- A block of fully formed statements, with a brace as its token. -/
def Block.IsFormed : Block → Prop
  | .mk token statements => T token ∧ token.kind = .leftBrace ∧ Stmt.AreFormed statements

/-- A second block of a choice that is fully formed, or missing. -/
def Block.IsFormedElse : Option Block → Prop
  | none => True
  | some b => b.IsFormed

end

/-- A program of fully formed statements. -/
def Program.IsFormed (p : Program) : Prop :=
  Stmt.AreFormed T p.statements

variable {T}

/-- Expressions are fully formed when each of them is. -/
theorem Expr.areFormed_iff {es : List Expr} :
  Expr.AreFormed T es ↔ ∀ e ∈ es, e.IsFormed T
  := by
  induction es with
  | nil => simp [Expr.AreFormed]
  | cons e es ih => rw [Expr.AreFormed, ih, List.forall_mem_cons]

theorem Stmt.areFormed_iff {ss : List Stmt} :
  Stmt.AreFormed T ss ↔ ∀ s ∈ ss, s.IsFormed T
  := by
  induction ss with
  | nil => simp [Stmt.AreFormed]
  | cons s ss ih => rw [Stmt.AreFormed, ih, List.forall_mem_cons]

/-- The value of an integer token is the one that its text converts to, if that is in range. -/
theorem Parse.integerValue_eq_some {text : String} {value : Int} :
  Parse.integerValue? text = some value ↔
    Numeral.value? text = some value ∧ -Parse.maxInteger - 1 ≤ value ∧ value ≤ Parse.maxInteger
  := by
  simp only [Parse.integerValue?, Option.filter_eq_some_iff, Parse.isInRange, Bool.and_eq_true,
    decide_eq_true_eq]

/-! ### Trees of lexemes -/

/-- A name that is formed from lexemes has the shape of source text. -/
theorem Ident.IsFormed.isSourceShaped {id : Ident} (h : id.IsFormed Token.IsLexeme) :
  id.IsSourceShaped
  := ⟨⟨h.2.1, h.1⟩, h.2.2⟩

mutual

/-- An expression that is formed from lexemes has the shape of source text. -/
theorem Expr.IsFormed.isSourceShaped : ∀ {e : Expr}, e.IsFormed Token.IsLexeme → e.IsSourceShaped
  | .name _, h => Ident.IsFormed.isSourceShaped h
  | .integer token value, ⟨ht, hkind, hvalue⟩ => by
    have hspells := (Token.isLexeme_iff (by simp [hkind])).mp ht
    obtain ⟨hne, hdigits⟩ := hspells.isDigit hkind
    exact ⟨⟨hkind, ht⟩,
      (integerValue_eq_some_iff hne hdigits _).mp (Parse.integerValue_eq_some.mpr hvalue)⟩
  | .boolean token value, ⟨ht, hkind, hvalue⟩ => by
    rcases hkind with hkind | hkind
    · exact .inl ⟨⟨hkind, ht⟩, by rw [hvalue, hkind, beq_self_eq_true]⟩
    · exact .inr ⟨⟨hkind, ht⟩, by rw [hvalue, hkind]; rfl⟩
  | .unary _ _ _, ⟨ht, hkind, hoperator, hright⟩ =>
    ⟨hkind, ht, hoperator, hright.isSourceShaped⟩
  | .binary _ _ _ _, ⟨ht, hkind, hoperator, hleft, hright⟩ =>
    ⟨hkind, ht, hoperator, hleft.isSourceShaped, hright.isSourceShaped⟩
  | .conditional _ _ _ _, ⟨ht, hkind, hcondition, hconsequence, halternative⟩ =>
    ⟨⟨hkind, ht⟩, hcondition.isSourceShaped, hconsequence.isSourceShaped,
      Block.IsFormedElse.isSourceShaped halternative⟩
  | .function _ _ _, ⟨ht, hkind, hparameters, hbody⟩ =>
    ⟨⟨hkind, ht⟩, fun id hid => (hparameters id hid).isSourceShaped, hbody.isSourceShaped⟩
  | .call _ _ _, ⟨ht, hkind, hfunction, harguments⟩ =>
    ⟨⟨hkind, ht⟩, hfunction.isSourceShaped, Expr.AreFormed.areSourceShaped harguments⟩

theorem Expr.AreFormed.areSourceShaped : ∀ {es : List Expr},
    Expr.AreFormed Token.IsLexeme es → Expr.AreSourceShaped es
  | [], _ => trivial
  | _ :: _, ⟨he, hes⟩ => ⟨he.isSourceShaped, Expr.AreFormed.areSourceShaped hes⟩

theorem Stmt.IsFormed.isSourceShaped : ∀ {s : Stmt}, s.IsFormed Token.IsLexeme → s.IsSourceShaped
  | .binding _ _ _, ⟨ht, hkind, hname, hvalue⟩ =>
    ⟨⟨hkind, ht⟩, hname.isSourceShaped, hvalue.isSourceShaped⟩
  | .returning _ none, ⟨ht, hkind⟩ => ⟨hkind, ht⟩
  | .returning _ (some _), ⟨ht, hkind, hvalue⟩ => ⟨⟨hkind, ht⟩, hvalue.isSourceShaped⟩
  | .expression _ _, ⟨ht, _, hvalue⟩ => ⟨ht, hvalue.isSourceShaped⟩

theorem Stmt.AreFormed.areSourceShaped : ∀ {ss : List Stmt},
    Stmt.AreFormed Token.IsLexeme ss → Stmt.AreSourceShaped ss
  | [], _ => trivial
  | _ :: _, ⟨hs, hss⟩ => ⟨hs.isSourceShaped, Stmt.AreFormed.areSourceShaped hss⟩

theorem Block.IsFormed.isSourceShaped : ∀ {b : Block},
    b.IsFormed Token.IsLexeme → b.IsSourceShaped
  | .mk _ _, ⟨ht, hkind, hss⟩ => ⟨⟨hkind, ht⟩, Stmt.AreFormed.areSourceShaped hss⟩

theorem Block.IsFormedElse.isSourceShaped : ∀ {b : Option Block},
    Block.IsFormedElse Token.IsLexeme b → Block.IsSourceShapedElse b
  | none, _ => trivial
  | some _, hb => Block.IsFormed.isSourceShaped hb

end

/-- A fully formed program of lexemes is source-shaped. -/
theorem Program.IsFormed.isSourceShaped {p : Program} (h : p.IsFormed Token.IsLexeme) :
  p.IsSourceShaped
  := Stmt.AreFormed.areSourceShaped h

end MonkeySyntax
