import MonkeySyntax.Proofs.Grammar.Brackets
import MonkeySyntax.Proofs.Grammar.Shape

/-!
# The last brace

A block that the end of the tokens closes may as well be closed by a brace at the end, and the
other way round: the brace makes no difference to the tree or to its nesting.

Two lists of tokens that differ by such a brace are related by `DiffersBy`.  Whatever is derived
from the one is derived from the other, and what follows it there is related in the same way: the
brace is either still to come, or has closed a block at the end of all tokens.  So the relation is
carried through a derivation from left to right, and every rule of the grammar is used for both
lists, but for the two rules of blocks, which change places when the brace is met.
-/

namespace MonkeySyntax

namespace Grammar

/-- Two lists of tokens that are the same but for a token at the end of one of them, or are both
empty. -/
inductive DiffersBy (close : Token) : List Token → List Token → Prop
  | nil : DiffersBy close [] []
  | longer {ts : List Token} : DiffersBy close ts (ts ++ [close])
  | shorter {ts : List Token} : DiffersBy close (ts ++ [close]) ts

namespace DiffersBy

variable {close : Token} {ts ts' : List Token}

/-- A first token is the first of both lists, or it is the one by which they differ, and the other
list is empty. -/
theorem cons_or {t : Token} (h : DiffersBy close (t :: ts) ts') :
  (∃ rest, ts' = t :: rest ∧ DiffersBy close ts rest) ∨ t = close ∧ ts = [] ∧ ts' = []
  := by
  generalize hts : t :: ts = us at h
  cases h with
  | nil => cases hts
  | longer =>
    subst hts
    exact .inl ⟨ts ++ [close], rfl, .longer⟩
  | shorter =>
    cases ts' with
    | nil =>
      obtain ⟨rfl, rfl⟩ := List.cons.inj hts
      exact .inr ⟨rfl, rfl, rfl⟩
    | cons t' ts' =>
      obtain ⟨rfl, rfl⟩ := List.cons.inj hts
      exact .inl ⟨ts', rfl, .shorter⟩

/-- A first token that is no closing brace is the first of both lists, if it is a brace by which
they differ. -/
theorem cons_of_kind {t : Token} {kind : Kind} (h : DiffersBy close (t :: ts) ts')
    (hclose : close.kind = .rightBrace) (ht : t.kind = kind) (hkind : kind ≠ .rightBrace) :
  ∃ rest, ts' = t :: rest ∧ DiffersBy close ts rest
  := by
  rcases h.cons_or with hrest | ⟨rfl, -⟩
  · apply hrest
  · cases hkind (ht.symm.trans hclose)

/-- A list that differs from the empty one is empty too, or is the token in question. -/
theorem eq_of_nil (h : DiffersBy close [] ts') :
  ts' = [] ∨ ts' = [close]
  := by
  generalize hts : [] = us at h
  cases h with
  | nil => exact .inl rfl
  | longer =>
    subst hts
    exact .inr rfl
  | shorter => cases List.append_ne_nil_of_right_ne_nil _ (List.cons_ne_nil close []) hts.symm

/-- Two lists start with tokens of the same kind, unless one starts with the token in question or
is empty. -/
theorem firstKind_eq_or (h : DiffersBy close ts ts') :
  firstKind ts' = firstKind ts ∨ firstKind ts' = close.kind ∨ firstKind ts' = .endOfInput
  := by
  cases h with
  | nil => exact .inl rfl
  | longer =>
    cases ts with
    | nil => exact .inr (.inl rfl)
    | cons t ts => exact .inl rfl
  | shorter =>
    cases ts' with
    | nil => exact .inr (.inr rfl)
    | cons t ts' => exact .inl rfl

/-- What does not extend an expression at the start of one list does not at the start of the
other. -/
theorem ends (h : DiffersBy close ts ts') (hclose : close.kind = .rightBrace)
    (hsemicolon : firstKind ts ≠ .semicolon) (hextends : (firstKind ts).extendsExpr = false) :
  firstKind ts' ≠ .semicolon ∧ (firstKind ts').extendsExpr = false
  := by
  rcases h.firstKind_eq_or with hfirst | hfirst | hfirst
  · rw [hfirst]
    exact ⟨hsemicolon, hextends⟩
  · rw [hfirst, hclose]
    decide
  · rw [hfirst]
    decide

end DiffersBy

/-! ### The constructs of the grammar -/

variable {close : Token}

theorem IsMoreParameters.exchange {ts ts' rest : List Token} {ids : List Ident}
    (h : IsMoreParameters ts ids rest) (hclose : close.kind = .rightBrace)
    (hts : DiffersBy close ts ts') :
  ∃ rest', DiffersBy close rest rest' ∧ IsMoreParameters ts' ids rest'
  := by
  induction h generalizing ts' with
  | close hparen =>
    obtain ⟨rest', rfl, hrest⟩ := hts.cons_of_kind hclose hparen (by decide)
    exact ⟨rest', hrest, .close hparen⟩
  | cons hcomma hname _ ih =>
    obtain ⟨_, rfl, hts₁⟩ := hts.cons_of_kind hclose hcomma (by decide)
    obtain ⟨_, rfl, hts₂⟩ := hts₁.cons_of_kind hclose hname (by decide)
    obtain ⟨rest', hrest, hids⟩ := ih hts₂
    exact ⟨rest', hrest, .cons hcomma hname hids⟩

/-- Parameters are derived from both of two lists that differ by a brace at the end. -/
theorem IsParameters.exchange {ts ts' rest : List Token} {ids : List Ident}
    (h : IsParameters ts ids rest) (hclose : close.kind = .rightBrace)
    (hts : DiffersBy close ts ts') :
  ∃ rest', DiffersBy close rest rest' ∧ IsParameters ts' ids rest'
  := by
  cases h with
  | close hparen =>
    obtain ⟨rest', rfl, hrest⟩ := hts.cons_of_kind hclose hparen (by decide)
    exact ⟨rest', hrest, .close hparen⟩
  | cons hname hids =>
    obtain ⟨_, rfl, hts₁⟩ := hts.cons_of_kind hclose hname (by decide)
    obtain ⟨rest', hrest, hids'⟩ := hids.exchange hclose hts₁
    exact ⟨rest', hrest, .cons hname hids'⟩

/-- A binary operator is no closing brace. -/
theorem Tier.ne_rightBrace_of_joins {tier : Tier} {kind : Kind} (h : tier.joins kind = true) :
  kind ≠ .rightBrace
  := by
  rintro rfl
  cases tier <;> cases h

/-- A token of one of two kinds that are no closing braces. -/
theorem ne_rightBrace_of_or {kind k k' : Kind} (h : kind = k ∨ kind = k') (hk : k ≠ .rightBrace)
    (hk' : k' ≠ .rightBrace) :
  kind ≠ .rightBrace
  := by
  rcases h with rfl | rfl
  · apply hk
  · apply hk'

/-- An expression starts with the first token of both lists. -/
theorem IsExpr.first_exchange {tier : Tier} {t : Token} {ts ts' rest : List Token} {e : Expr}
    {n : Nat} (h : IsExpr tier (t :: ts) e n rest) (hclose : close.kind = .rightBrace)
    (hts : DiffersBy close (t :: ts) ts') :
  ∃ us, ts' = t :: us
  := by
  rcases hts.cons_or with ⟨us, rfl, -⟩ | ⟨rfl, -⟩
  · exact ⟨us, rfl⟩
  · have hfirst : t.kind.startsExpr = true := h.firstKind_startsExpr
    rw [hclose] at hfirst
    cases hfirst

mutual

/-- An expression is derived from both of two lists that differ by a brace at the end of them. -/
theorem IsExpr.exchange {tier : Tier} {ts ts' rest : List Token} {e : Expr} {n : Nat}
    (hclose : close.kind = .rightBrace) (hts : DiffersBy close ts ts') :
    IsExpr tier ts e n rest → ∃ rest', DiffersBy close rest rest' ∧ IsExpr tier ts' e n rest'
  | .tighter h => by
    obtain ⟨rest', hrest, h'⟩ := h.exchange hclose hts
    exact ⟨rest', hrest, .tighter h'⟩
  | .binary hleft hop hright => by
    obtain ⟨_, hts₁, hleft'⟩ := hleft.exchange hclose hts
    obtain ⟨_, rfl, hts₂⟩ := hts₁.cons_of_kind hclose rfl (Tier.ne_rightBrace_of_joins hop)
    obtain ⟨rest', hrest, hright'⟩ := hright.exchange hclose hts₂
    exact ⟨rest', hrest, .binary hleft' hop hright'⟩
  | .unary hop hright => by
    have hkind := ne_rightBrace_of_or hop (by decide) (by decide)
    obtain ⟨_, rfl, hts₁⟩ := hts.cons_of_kind hclose rfl hkind
    obtain ⟨rest', hrest, hright'⟩ := hright.exchange hclose hts₁
    exact ⟨rest', hrest, .unary hop hright'⟩
  | .call hfunction hparen harguments => by
    obtain ⟨_, hts₁, hfunction'⟩ := hfunction.exchange hclose hts
    obtain ⟨_, rfl, hts₂⟩ := hts₁.cons_of_kind hclose hparen (by decide)
    obtain ⟨rest', hrest, harguments'⟩ := harguments.exchange hclose hts₂
    exact ⟨rest', hrest, .call hfunction' hparen harguments'⟩
  | .name ht => by
    obtain ⟨rest', rfl, hrest⟩ := hts.cons_of_kind hclose ht (by decide)
    exact ⟨rest', hrest, .name ht⟩
  | .integer ht hvalue => by
    obtain ⟨rest', rfl, hrest⟩ := hts.cons_of_kind hclose ht (by decide)
    exact ⟨rest', hrest, .integer ht hvalue⟩
  | .boolean ht => by
    have hkind := ne_rightBrace_of_or ht (by decide) (by decide)
    obtain ⟨rest', rfl, hrest⟩ := hts.cons_of_kind hclose rfl hkind
    exact ⟨rest', hrest, .boolean ht⟩
  | .group hparen he hend => by
    obtain ⟨_, rfl, hts₁⟩ := hts.cons_of_kind hclose hparen (by decide)
    obtain ⟨_, hts₂, he'⟩ := he.exchange hclose hts₁
    obtain ⟨rest', rfl, hrest⟩ := hts₂.cons_of_kind hclose hend (by decide)
    exact ⟨rest', hrest, .group hparen he' hend⟩
  | .conditional hword hparen hcondition hend hconsequence halternative => by
    obtain ⟨_, rfl, hts₁⟩ := hts.cons_of_kind hclose hword (by decide)
    obtain ⟨_, rfl, hts₂⟩ := hts₁.cons_of_kind hclose hparen (by decide)
    obtain ⟨_, hts₃, hcondition'⟩ := hcondition.exchange hclose hts₂
    obtain ⟨_, rfl, hts₄⟩ := hts₃.cons_of_kind hclose hend (by decide)
    obtain ⟨_, hts₅, hconsequence'⟩ := hconsequence.exchange hclose hts₄
    obtain ⟨rest', hrest, halternative'⟩ := halternative.exchange hclose hts₅
    exact ⟨rest', hrest, .conditional hword hparen hcondition' hend hconsequence' halternative'⟩
  | .function hword hparen hids hbody => by
    obtain ⟨_, rfl, hts₁⟩ := hts.cons_of_kind hclose hword (by decide)
    obtain ⟨_, rfl, hts₂⟩ := hts₁.cons_of_kind hclose hparen (by decide)
    obtain ⟨_, hts₃, hids'⟩ := hids.exchange hclose hts₂
    obtain ⟨rest', hrest, hbody'⟩ := hbody.exchange hclose hts₃
    exact ⟨rest', hrest, .function hword hparen hids' hbody'⟩

theorem IsArguments.exchange {ts ts' rest : List Token} {es : List Expr} {n : Nat}
    (hclose : close.kind = .rightBrace) (hts : DiffersBy close ts ts') :
    IsArguments ts es n rest → ∃ rest', DiffersBy close rest rest' ∧ IsArguments ts' es n rest'
  | .close hparen => by
    obtain ⟨rest', rfl, hrest⟩ := hts.cons_of_kind hclose hparen (by decide)
    exact ⟨rest', hrest, .close hparen⟩
  | .cons he hes => by
    obtain ⟨_, hts₁, he'⟩ := he.exchange hclose hts
    obtain ⟨rest', hrest, hes'⟩ := hes.exchange hclose hts₁
    exact ⟨rest', hrest, .cons he' hes'⟩

theorem IsMoreArguments.exchange {ts ts' rest : List Token} {es : List Expr} {n : Nat}
    (hclose : close.kind = .rightBrace) (hts : DiffersBy close ts ts') :
    IsMoreArguments ts es n rest →
      ∃ rest', DiffersBy close rest rest' ∧ IsMoreArguments ts' es n rest'
  | .close hparen => by
    obtain ⟨rest', rfl, hrest⟩ := hts.cons_of_kind hclose hparen (by decide)
    exact ⟨rest', hrest, .close hparen⟩
  | .cons hcomma he hes => by
    obtain ⟨_, rfl, hts₁⟩ := hts.cons_of_kind hclose hcomma (by decide)
    obtain ⟨_, hts₂, he'⟩ := he.exchange hclose hts₁
    obtain ⟨rest', hrest, hes'⟩ := hes.exchange hclose hts₂
    exact ⟨rest', hrest, .cons hcomma he' hes'⟩

/-- A statement is derived from both of two lists that differ by a brace at the end. -/
theorem IsStmt.exchange {ts ts' rest : List Token} {s : Stmt} {n : Nat}
    (hclose : close.kind = .rightBrace) (hts : DiffersBy close ts ts') :
    IsStmt ts s n rest → ∃ rest', DiffersBy close rest rest' ∧ IsStmt ts' s n rest'
  | .binding hword hname hassign hvalue hsemicolon => by
    obtain ⟨_, rfl, hts₁⟩ := hts.cons_of_kind hclose hword (by decide)
    obtain ⟨_, rfl, hts₂⟩ := hts₁.cons_of_kind hclose hname (by decide)
    obtain ⟨_, rfl, hts₃⟩ := hts₂.cons_of_kind hclose hassign (by decide)
    obtain ⟨_, hts₄, hvalue'⟩ := hvalue.exchange hclose hts₃
    obtain ⟨rest', rfl, hrest⟩ := hts₄.cons_of_kind hclose hsemicolon (by decide)
    exact ⟨rest', hrest, .binding hword hname hassign hvalue' hsemicolon⟩
  | .returning hword hsemicolon => by
    obtain ⟨_, rfl, hts₁⟩ := hts.cons_of_kind hclose hword (by decide)
    obtain ⟨rest', rfl, hrest⟩ := hts₁.cons_of_kind hclose hsemicolon (by decide)
    exact ⟨rest', hrest, .returning hword hsemicolon⟩
  | .returningValue hword hvalue hsemicolon => by
    obtain ⟨_, rfl, hts₁⟩ := hts.cons_of_kind hclose hword (by decide)
    obtain ⟨_, hts₂, hvalue'⟩ := hvalue.exchange hclose hts₁
    obtain ⟨rest', rfl, hrest⟩ := hts₂.cons_of_kind hclose hsemicolon (by decide)
    exact ⟨rest', hrest, .returningValue hword hvalue' hsemicolon⟩
  | .terminated hvalue hsemicolon => by
    obtain ⟨_, rfl⟩ := hvalue.first_exchange hclose hts
    obtain ⟨_, hts₁, hvalue'⟩ := hvalue.exchange hclose hts
    obtain ⟨rest', rfl, hrest⟩ := hts₁.cons_of_kind hclose hsemicolon (by decide)
    exact ⟨rest', hrest, .terminated hvalue' hsemicolon⟩
  | .expression hvalue hsemicolon hextends => by
    obtain ⟨_, rfl⟩ := hvalue.first_exchange hclose hts
    obtain ⟨rest', hrest, hvalue'⟩ := hvalue.exchange hclose hts
    obtain ⟨hsemicolon', hextends'⟩ := hrest.ends hclose hsemicolon hextends
    exact ⟨rest', hrest, .expression hvalue' hsemicolon' hextends'⟩

/-- Statements are derived from both of two lists that differ by a brace at the end, since they stop
before a closing brace as they do at the end. -/
theorem IsStmts.exchange {ts ts' rest : List Token} {ss : List Stmt} {n : Nat}
    (hclose : close.kind = .rightBrace) (hts : DiffersBy close ts ts') :
    IsStmts ts ss n rest → ∃ rest', DiffersBy close rest rest' ∧ IsStmts ts' ss n rest'
  | .nil => ⟨ts', hts, .nil⟩
  | .cons hs hss => by
    obtain ⟨_, hts₁, hs'⟩ := hs.exchange hclose hts
    obtain ⟨rest', hrest, hss'⟩ := hss.exchange hclose hts₁
    exact ⟨rest', hrest, .cons hs' hss'⟩

/-- A block is derived from both of two lists that differ by a brace at the end.  Its closing brace
is there in both, or it is the one by which they differ. -/
theorem IsBlock.exchange {ts ts' rest : List Token} {b : Block} {n : Nat}
    (hclose : close.kind = .rightBrace) (hts : DiffersBy close ts ts') :
    IsBlock ts b n rest → ∃ rest', DiffersBy close rest rest' ∧ IsBlock ts' b n rest'
  | .closed hbrace hss hend => by
    obtain ⟨_, rfl, hts₁⟩ := hts.cons_of_kind hclose hbrace (by decide)
    obtain ⟨_, hts₂, hss'⟩ := hss.exchange hclose hts₁
    rcases hts₂.cons_or with ⟨rest', rfl, hrest⟩ | ⟨-, rfl, rfl⟩
    · exact ⟨rest', hrest, .closed hbrace hss' hend⟩
    · exact ⟨[], .nil, .unclosed hbrace hss'⟩
  | .unclosed hbrace hss => by
    obtain ⟨_, rfl, hts₁⟩ := hts.cons_of_kind hclose hbrace (by decide)
    obtain ⟨_, hts₂, hss'⟩ := hss.exchange hclose hts₁
    rcases hts₂.eq_of_nil with rfl | rfl
    · exact ⟨[], .nil, .unclosed hbrace hss'⟩
    · exact ⟨[], .nil, .closed hbrace hss' hclose⟩

/-- A second block, or none, is derived from both of two lists that differ by a brace at the end. -/
theorem IsAlternative.exchange {ts ts' rest : List Token} {b : Option Block} {n : Nat}
    (hclose : close.kind = .rightBrace) (hts : DiffersBy close ts ts') :
    IsAlternative ts b n rest → ∃ rest', DiffersBy close rest rest' ∧ IsAlternative ts' b n rest'
  | .missing => ⟨ts', hts, .missing⟩
  | .present hword hb => by
    obtain ⟨_, rfl, hts₁⟩ := hts.cons_of_kind hclose hword (by decide)
    obtain ⟨rest', hrest, hb'⟩ := hb.exchange hclose hts₁
    exact ⟨rest', hrest, .present hword hb'⟩

end

/-! ### Programs -/

/-- Before a closing brace the tokens of statements leave no brace open. -/
theorem IsStmts.unclosed_eq_zero {ts rest : List Token} {ss : List Stmt} {n : Nat}
    (h : IsStmts (ts ++ close :: rest) ss n (close :: rest)) :
  unclosed ts = 0
  := h.nests.unclosed_eq_zero (List.cons_ne_nil close rest)

/-- Where a brace is open, tokens are those of a program exactly when they are with a closing brace
at the end, and the program is the same.  Left unread, the brace would close a block that is not
open. -/
theorem isProgram_closed_iff {ts : List Token} (hclose : close.kind = .rightBrace)
    (hopened : 0 < unclosed ts) (program : Program) (n : Nat) :
  IsProgram (ts ++ [close]) program n ↔ IsProgram ts program n
  := by
  constructor
  · intro h
    obtain ⟨rest, hrest, hss⟩ := IsStmts.exchange hclose .shorter h
    rcases hrest.eq_of_nil with rfl | rfl
    · apply hss
    · obtain ⟨before, rfl⟩ := hss.suffix
      have hzero := hss.unclosed_eq_zero
      rw [unclosed_append, unclosed_cons, hclose, hzero] at hopened
      cases hopened
  · intro h
    obtain ⟨rest, hrest, hss⟩ := IsStmts.exchange hclose .longer h
    rcases hrest.eq_of_nil with rfl | rfl
    · apply hss
    · rw [hss.unclosed_eq_zero] at hopened
      cases hopened

end Grammar

end MonkeySyntax
