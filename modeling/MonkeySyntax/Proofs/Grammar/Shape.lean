import MonkeySyntax.Proofs.Tree.Shape
import MonkeySyntax.Proofs.Grammar.Basic

/-!
# The shape of derived trees

What follows a construct is the end of the list of its tokens, and a tree that is derived from
lexemes is source-shaped.
-/

namespace MonkeySyntax

namespace Grammar

/-! ### What follows -/

theorem IsMoreParameters.suffix {ts rest : List Token} {ids : List Ident}
    (h : IsMoreParameters ts ids rest) :
  rest <:+ ts
  := by
  induction h with
  | close => apply List.suffix_cons
  | cons _ _ _ ih => apply ih.trans ((List.suffix_cons _ _).trans (List.suffix_cons _ _))

theorem IsParameters.suffix {ts rest : List Token} {ids : List Ident}
    (h : IsParameters ts ids rest) :
  rest <:+ ts
  := by
  cases h with
  | close => apply List.suffix_cons
  | cons _ hids => apply hids.suffix.trans (List.suffix_cons _ _)

mutual

/-- An expression leaves an end of the tokens. -/
theorem IsExpr.suffix {tier : Tier} {ts rest : List Token} {e : Expr} {n : Nat} :
    IsExpr tier ts e n rest → rest <:+ ts
  | .tighter h => h.suffix
  | .binary hleft _ hright => (hright.suffix.trans (List.suffix_cons _ _)).trans hleft.suffix
  | .unary _ hright => hright.suffix.trans (List.suffix_cons _ _)
  | .call hfunction _ harguments =>
    (harguments.suffix.trans (List.suffix_cons _ _)).trans hfunction.suffix
  | .name _ => List.suffix_cons _ _
  | .integer _ _ => List.suffix_cons _ _
  | .boolean _ => List.suffix_cons _ _
  | .group _ he _ => ((List.suffix_cons _ _).trans he.suffix).trans (List.suffix_cons _ _)
  | .conditional _ _ hcondition _ hconsequence halternative =>
    have hblocks := halternative.suffix.trans hconsequence.suffix
    (hblocks.trans ((List.suffix_cons _ _).trans hcondition.suffix)).trans
      ((List.suffix_cons _ _).trans (List.suffix_cons _ _))
  | .function _ _ hids hbody =>
    (hbody.suffix.trans hids.suffix).trans ((List.suffix_cons _ _).trans (List.suffix_cons _ _))

/-- Arguments leave an end of the tokens. -/
theorem IsArguments.suffix {ts rest : List Token} {es : List Expr} {n : Nat} :
    IsArguments ts es n rest → rest <:+ ts
  | .close _ => List.suffix_cons _ _
  | .cons he hes => hes.suffix.trans he.suffix

theorem IsMoreArguments.suffix {ts rest : List Token} {es : List Expr} {n : Nat} :
    IsMoreArguments ts es n rest → rest <:+ ts
  | .close _ => List.suffix_cons _ _
  | .cons _ he hes => (hes.suffix.trans he.suffix).trans (List.suffix_cons _ _)

/-- A statement leaves an end of the tokens. -/
theorem IsStmt.suffix {ts rest : List Token} {s : Stmt} {n : Nat} :
    IsStmt ts s n rest → rest <:+ ts
  | .binding _ _ _ hvalue _ =>
    ((List.suffix_cons _ _).trans hvalue.suffix).trans
      ((List.suffix_cons _ _).trans ((List.suffix_cons _ _).trans (List.suffix_cons _ _)))
  | .returning _ _ => (List.suffix_cons _ _).trans (List.suffix_cons _ _)
  | .returningValue _ hvalue _ =>
    ((List.suffix_cons _ _).trans hvalue.suffix).trans (List.suffix_cons _ _)
  | .terminated hvalue _ => (List.suffix_cons _ _).trans hvalue.suffix
  | .expression hvalue _ _ => hvalue.suffix

theorem IsStmts.suffix {ts rest : List Token} {ss : List Stmt} {n : Nat} :
    IsStmts ts ss n rest → rest <:+ ts
  | .nil => List.suffix_refl _
  | .cons hs hss => hss.suffix.trans hs.suffix

theorem IsBlock.suffix {ts rest : List Token} {b : Block} {n : Nat} :
    IsBlock ts b n rest → rest <:+ ts
  | .closed _ hss _ => ((List.suffix_cons _ _).trans hss.suffix).trans (List.suffix_cons _ _)
  | .unclosed _ _ => List.nil_suffix

theorem IsAlternative.suffix {ts rest : List Token} {b : Option Block} {n : Nat} :
    IsAlternative ts b n rest → rest <:+ ts
  | .missing => List.suffix_refl _
  | .present _ hb => hb.suffix.trans (List.suffix_cons _ _)

end

/-! ### Shape -/

/-- All tokens of a list are lexemes. -/
def AreLexemes (ts : List Token) : Prop :=
  ∀ t ∈ ts, t.IsLexeme

theorem areLexemes_cons {t : Token} {ts : List Token} :
  AreLexemes (t :: ts) ↔ t.IsLexeme ∧ AreLexemes ts
  := List.forall_mem_cons

/-- The last of some lexemes are lexemes. -/
theorem AreLexemes.suffix {ts rest : List Token} (h : AreLexemes ts) (hrest : rest <:+ ts) :
  AreLexemes rest
  := fun t ht => h t (hrest.subset ht)

/-- The operator of a tier is a binary operator. -/
theorem Tier.isBinary_of_joins {tier : Tier} {kind : Kind} (h : tier.joins kind = true) :
  kind.isBinary = true
  := by
  cases tier <;> cases kind <;> first | rfl | cases h

/-- Parameters derived from lexemes have the texts of names. -/
theorem IsMoreParameters.isSourceShaped {ts rest : List Token} {ids : List Ident}
    (h : IsMoreParameters ts ids rest) (hts : AreLexemes ts) :
  ∀ id ∈ ids, id.IsSourceShaped
  := by
  induction h with
  | close => simp
  | cons _ hname _ ih =>
    rw [areLexemes_cons, areLexemes_cons] at hts
    obtain ⟨-, hlexeme, hts⟩ := hts
    exact List.forall_mem_cons.mpr ⟨⟨⟨hname, hlexeme⟩, rfl⟩, ih hts⟩

theorem IsParameters.isSourceShaped {ts rest : List Token} {ids : List Ident}
    (h : IsParameters ts ids rest) (hts : AreLexemes ts) :
  ∀ id ∈ ids, id.IsSourceShaped
  := by
  cases h with
  | close => simp
  | cons hname hids =>
    obtain ⟨hlexeme, hts⟩ := areLexemes_cons.mp hts
    exact List.forall_mem_cons.mpr ⟨⟨⟨hname, hlexeme⟩, rfl⟩, hids.isSourceShaped hts⟩

mutual

/-- An expression that is derived from lexemes is source-shaped. -/
theorem IsExpr.isSourceShaped {tier : Tier} {ts rest : List Token} {e : Expr} {n : Nat} :
    IsExpr tier ts e n rest → AreLexemes ts → e.IsSourceShaped
  | .tighter h, hts => h.isSourceShaped hts
  | .binary hleft hop hright, hts => by
    obtain ⟨hlexeme, hts'⟩ := areLexemes_cons.mp (hts.suffix hleft.suffix)
    exact ⟨Tier.isBinary_of_joins hop, hlexeme, rfl, hleft.isSourceShaped hts,
      hright.isSourceShaped hts'⟩
  | .unary hop hright, hts => by
    obtain ⟨hlexeme, hts'⟩ := areLexemes_cons.mp hts
    exact ⟨hop, hlexeme, rfl, hright.isSourceShaped hts'⟩
  | .call hfunction hparen harguments, hts => by
    obtain ⟨hlexeme, hts'⟩ := areLexemes_cons.mp (hts.suffix hfunction.suffix)
    exact ⟨⟨hparen, hlexeme⟩, hfunction.isSourceShaped hts, harguments.areSourceShaped hts'⟩
  | .name ht, hts => ⟨⟨ht, (areLexemes_cons.mp hts).1⟩, rfl⟩
  | .integer ht hvalue, hts => by
    have hlexeme := (areLexemes_cons.mp hts).1
    obtain ⟨hne, hdigits⟩ := ((Token.isLexeme_iff (by simp [ht])).mp hlexeme).isDigit ht
    exact ⟨⟨ht, hlexeme⟩, (integerValue_eq_some_iff hne hdigits _).mp hvalue⟩
  | .boolean ht, hts => by
    have hlexeme := (areLexemes_cons.mp hts).1
    rcases ht with hkind | hkind
    · exact .inl ⟨⟨hkind, hlexeme⟩, by simp [hkind]⟩
    · exact .inr ⟨⟨hkind, hlexeme⟩, by simp [hkind]⟩
  | .group _ he _, hts => he.isSourceShaped (areLexemes_cons.mp hts).2
  | .conditional hword _ hcondition _ hconsequence halternative, hts => by
    obtain ⟨hlexeme, hts'⟩ := areLexemes_cons.mp hts
    have hcondition' := (areLexemes_cons.mp hts').2
    have hconsequence' := (areLexemes_cons.mp (hcondition'.suffix hcondition.suffix)).2
    exact ⟨⟨hword, hlexeme⟩, hcondition.isSourceShaped hcondition',
      hconsequence.isSourceShaped hconsequence',
      halternative.isSourceShaped (hconsequence'.suffix hconsequence.suffix)⟩
  | .function hword _ hids hbody, hts => by
    obtain ⟨hlexeme, hts'⟩ := areLexemes_cons.mp hts
    have hids' := (areLexemes_cons.mp hts').2
    exact ⟨⟨hword, hlexeme⟩, hids.isSourceShaped hids',
      hbody.isSourceShaped (hids'.suffix hids.suffix)⟩

/-- Arguments derived from lexemes have the shape of source text. -/
theorem IsArguments.areSourceShaped {ts rest : List Token} {es : List Expr} {n : Nat} :
    IsArguments ts es n rest → AreLexemes ts → Expr.AreSourceShaped es
  | .close _, _ => trivial
  | .cons he hes, hts => ⟨he.isSourceShaped hts, hes.areSourceShaped (hts.suffix he.suffix)⟩

theorem IsMoreArguments.areSourceShaped {ts rest : List Token} {es : List Expr} {n : Nat} :
    IsMoreArguments ts es n rest → AreLexemes ts → Expr.AreSourceShaped es
  | .close _, _ => trivial
  | .cons _ he hes, hts => by
    have hts' := (areLexemes_cons.mp hts).2
    exact ⟨he.isSourceShaped hts', hes.areSourceShaped (hts'.suffix he.suffix)⟩

/-- A statement that is derived from lexemes is source-shaped. -/
theorem IsStmt.isSourceShaped {ts rest : List Token} {s : Stmt} {n : Nat} :
    IsStmt ts s n rest → AreLexemes ts → s.IsSourceShaped
  | .binding hword hname _ hvalue _, hts => by
    simp only [areLexemes_cons] at hts
    obtain ⟨hlexeme, hlexeme', -, hts'⟩ := hts
    exact ⟨⟨hword, hlexeme⟩, ⟨⟨hname, hlexeme'⟩, rfl⟩, hvalue.isSourceShaped hts'⟩
  | .returning hword _, hts => ⟨hword, (areLexemes_cons.mp hts).1⟩
  | .returningValue hword hvalue _, hts => by
    obtain ⟨hlexeme, hts'⟩ := areLexemes_cons.mp hts
    exact ⟨⟨hword, hlexeme⟩, hvalue.isSourceShaped hts'⟩
  | .terminated hvalue _, hts => ⟨(areLexemes_cons.mp hts).1, hvalue.isSourceShaped hts⟩
  | .expression hvalue _ _, hts => ⟨(areLexemes_cons.mp hts).1, hvalue.isSourceShaped hts⟩

/-- Statements that are derived from lexemes are source-shaped. -/
theorem IsStmts.areSourceShaped {ts rest : List Token} {ss : List Stmt} {n : Nat} :
    IsStmts ts ss n rest → AreLexemes ts → Stmt.AreSourceShaped ss
  | .nil, _ => trivial
  | .cons hs hss, hts => ⟨hs.isSourceShaped hts, hss.areSourceShaped (hts.suffix hs.suffix)⟩

/-- A block that is derived from lexemes is source-shaped. -/
theorem IsBlock.isSourceShaped {ts rest : List Token} {b : Block} {n : Nat} :
    IsBlock ts b n rest → AreLexemes ts → b.IsSourceShaped
  | .closed hbrace hss _, hts => by
    obtain ⟨hlexeme, hts'⟩ := areLexemes_cons.mp hts
    exact ⟨⟨hbrace, hlexeme⟩, hss.areSourceShaped hts'⟩
  | .unclosed hbrace hss, hts => by
    obtain ⟨hlexeme, hts'⟩ := areLexemes_cons.mp hts
    exact ⟨⟨hbrace, hlexeme⟩, hss.areSourceShaped hts'⟩

/-- A second block derived from lexemes has the shape of source text, if there is one. -/
theorem IsAlternative.isSourceShaped {ts rest : List Token} {b : Option Block} {n : Nat} :
    IsAlternative ts b n rest → AreLexemes ts → Block.IsSourceShapedElse b
  | .missing, _ => trivial
  | .present _ hb, hts => hb.isSourceShaped (areLexemes_cons.mp hts).2

end

end Grammar

end MonkeySyntax
