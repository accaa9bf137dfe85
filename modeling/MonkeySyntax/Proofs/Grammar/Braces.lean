import MonkeySyntax.Proofs.Grammar.Basic

/-!
# Braces

The tokens of a construct close no more braces than they open.  They may close fewer, since the
end of the tokens closes every block.  When they close all that they open, the construct does not
depend on the end: it is the same before any other tokens, which is `Detaches`.  For a statement
these have to start like those that stood there, unless it ends with a semicolon, which is
`DetachesBefore`.
-/

namespace MonkeySyntax

/-- The kind of the last token of a list, and the end of the input for no token. -/
def lastKind (ts : List Token) : Kind :=
  (ts.getLast?.map Token.kind).getD .endOfInput

/-- Tokens end as those after them do, if there are any. -/
theorem lastKind_append_cons (ts : List Token) (t : Token) (ts' : List Token) :
  lastKind (ts ++ t :: ts') = lastKind (t :: ts')
  := by
  rw [lastKind, lastKind, List.getLast?_append_cons]

/-- Tokens do not end with a kind with which neither those before nor those after end. -/
theorem lastKind_append_ne {kind : Kind} {ts ts' : List Token} (h : lastKind ts ≠ kind)
    (h' : lastKind ts' ≠ kind) :
  lastKind (ts ++ ts') ≠ kind
  := by
  cases ts' with
  | nil => rwa [List.append_nil]
  | cons t ts' => rwa [lastKind_append_cons]

/-- Tokens before others start as they do, and as the others do when there are none. -/
theorem firstKind_append_congr {rest rest' : List Token} (ts : List Token)
    (h : ts = [] → firstKind rest = firstKind rest') :
  firstKind (ts ++ rest) = firstKind (ts ++ rest')
  := by
  cases ts with
  | nil => apply h rfl
  | cons t ts => rfl

/-- The braces that a token of a kind opens, less those that it closes. -/
def Kind.opened : Kind → Int
  | .leftBrace => 1
  | .rightBrace => -1
  | _ => 0

/-- A token of one of two kinds, which are neither braces nor semicolons. -/
theorem Kind.opened_of_or {kind k k' : Kind} (hk : k.opened = 0 ∧ k ≠ .semicolon)
    (hk' : k'.opened = 0 ∧ k' ≠ .semicolon) (h : kind = k ∨ kind = k') :
  kind.opened = 0 ∧ kind ≠ .semicolon
  := by
  rcases h with rfl | rfl
  · apply hk
  · apply hk'

/-- The braces that tokens open, less those that they close. -/
def unclosed : List Token → Int
  | [] => 0
  | t :: ts => t.kind.opened + unclosed ts

@[simp]
theorem unclosed_nil :
  unclosed [] = 0
  := rfl

@[simp]
theorem unclosed_cons (t : Token) (ts : List Token) :
  unclosed (t :: ts) = t.kind.opened + unclosed ts
  := rfl

/-- The braces left open add up. -/
@[simp]
theorem unclosed_append (ts ts' : List Token) :
  unclosed (ts ++ ts') = unclosed ts + unclosed ts'
  := by
  induction ts with
  | nil => simp
  | cons t ts ih => rw [List.cons_append, unclosed_cons, unclosed_cons, ih, Int.add_assoc]

/-- The braces that are not closed are counted by the two kinds of braces. -/
theorem unclosed_eq_countP (ts : List Token) :
  unclosed ts = ts.countP (fun t => t.kind == .leftBrace) -
    (ts.countP (fun t => t.kind == .rightBrace) : Int)
  := by
  induction ts with
  | nil => rfl
  | cons t ts ih =>
    rw [unclosed_cons, ih, List.countP_cons, List.countP_cons]
    cases t.kind
    case leftBrace | rightBrace =>
      simp only [Kind.opened, beq_self_eq_true, if_true, reduceCtorEq, beq_iff_eq, if_false]
      omega
    all_goals simp [Kind.opened]

namespace Grammar

/-! ### Constructs before other tokens -/

/-- The tokens of a construct close no more braces than they open.  When they close all, they do
not end with a semicolon, and the construct may stand before any tokens. -/
def Detaches (R : List Token → List Token → Prop) (ts rest : List Token) : Prop :=
  ∃ used, ts = used ++ rest ∧ 0 ≤ unclosed used ∧
    (unclosed used = 0 → lastKind used ≠ .semicolon ∧ ∀ rest', R (used ++ rest') rest')

/-- The tokens of a construct close no more braces than they open.  When they close all, and end
with a semicolon or are none, the construct may stand before any tokens, and else before those
that start like the tokens it stands before. -/
def DetachesBefore (R : List Token → List Token → Prop) (ts rest : List Token) : Prop :=
  ∃ used, ts = used ++ rest ∧ 0 ≤ unclosed used ∧
    (unclosed used = 0 → ∀ rest',
      used = [] ∨ lastKind used = .semicolon ∨ firstKind rest' = firstKind rest →
        R (used ++ rest') rest')

variable {R R' : List Token → List Token → Prop} {ts ts' rest : List Token}

/-- What follows from a construct that may stand before other tokens may do so too. -/
theorem DetachesBefore.imp (h : DetachesBefore R ts rest)
    (himp : ∀ ts rest, R ts rest → R' ts rest) :
  DetachesBefore R' ts rest
  := by
  obtain ⟨used, hused, hopened, hclosed⟩ := h
  exact ⟨used, hused, hopened, fun hzero rest' hrest' => himp _ _ (hclosed hzero rest' hrest')⟩

/-- What follows from a construct that may stand before any tokens may do so too. -/
theorem Detaches.imp (h : Detaches R ts rest) (himp : ∀ ts rest, R ts rest → R' ts rest) :
  Detaches R' ts rest
  := by
  obtain ⟨used, hused, hopened, hclosed⟩ := h
  refine ⟨used, hused, hopened, ?_⟩
  intro hzero
  obtain ⟨hlast, hrest⟩ := hclosed hzero
  exact ⟨hlast, fun rest' => himp _ _ (hrest rest')⟩

/-- No token at all. -/
theorem Detaches.nil :
  Detaches (fun ts rest => ts = rest) ts ts
  := ⟨[], rfl, Int.le_refl 0, fun _ => ⟨by decide, fun _ => rfl⟩⟩

/-- A token that is no brace and no semicolon. -/
theorem Detaches.token {t : Token} {kind : Kind} (ht : t.kind = kind)
    (hkind : kind.opened = 0 ∧ kind ≠ .semicolon) :
  Detaches (fun ts rest => ts = t :: rest) (t :: rest) rest
  := by
  refine ⟨[t], rfl, ?_, ?_⟩
  · simp [ht, hkind.1]
  · intro _
    have hlast : lastKind [t] = kind := ht
    exact ⟨hlast ▸ hkind.2, fun _ => rfl⟩

/-- One construct after another. -/
theorem Detaches.seq (h : Detaches R ts ts') (h' : Detaches R' ts' rest) :
  Detaches (fun ts rest => ∃ ts', R ts ts' ∧ R' ts' rest) ts rest
  := by
  obtain ⟨used, rfl, hopened, hclosed⟩ := h
  obtain ⟨used', rfl, hopened', hclosed'⟩ := h'
  refine ⟨used ++ used', by rw [List.append_assoc], ?_, ?_⟩
  · rw [unclosed_append]
    omega
  · intro hzero
    rw [unclosed_append] at hzero
    obtain ⟨hlast, hrest⟩ := hclosed (by omega)
    obtain ⟨hlast', hrest'⟩ := hclosed' (by omega)
    refine ⟨lastKind_append_ne hlast hlast', ?_⟩
    intro rest'
    rw [List.append_assoc]
    exact ⟨used' ++ rest', hrest _, hrest' rest'⟩

/-- A construct before a semicolon. -/
theorem Detaches.terminated {semicolon : Token} (h : Detaches R ts (semicolon :: rest))
    (hsemicolon : semicolon.kind = .semicolon)
    (himp : ∀ ts rest, R ts (semicolon :: rest) → R' ts rest) :
  DetachesBefore R' ts rest
  := by
  obtain ⟨used, rfl, hopened, hclosed⟩ := h
  have hopened' : unclosed (used ++ [semicolon]) = unclosed used := by
    simp [hsemicolon, Kind.opened]
  refine ⟨used ++ [semicolon], by simp, by omega, ?_⟩
  intro hzero rest' _
  obtain ⟨-, hrest⟩ := hclosed (by omega)
  rw [List.append_assoc]
  apply himp _ _ (hrest _)

/-- A construct that has some tokens, and no semicolon at its end. -/
theorem Detaches.unterminated (h : Detaches R ts rest) (hne : ¬ R [] [])
    (himp : ∀ ts rest', firstKind rest' = firstKind rest → R ts rest' → R' ts rest') :
  DetachesBefore R' ts rest
  := by
  obtain ⟨used, hused, hopened, hclosed⟩ := h
  refine ⟨used, hused, hopened, ?_⟩
  intro hzero rest' hrest'
  obtain ⟨hlast, hrest⟩ := hclosed hzero
  rcases hrest' with rfl | hlast' | hfirst
  · cases hne (hrest [])
  · cases hlast hlast'
  · apply himp _ _ hfirst (hrest rest')

/-- One construct after another, each before tokens like those it stands before. -/
theorem DetachesBefore.seq (h : DetachesBefore R ts ts') (h' : DetachesBefore R' ts' rest) :
  DetachesBefore (fun ts rest => ∃ ts', R ts ts' ∧ R' ts' rest) ts rest
  := by
  obtain ⟨used, rfl, hopened, hclosed⟩ := h
  obtain ⟨used', rfl, hopened', hclosed'⟩ := h'
  refine ⟨used ++ used', by rw [List.append_assoc], ?_, ?_⟩
  · rw [unclosed_append]
    omega
  · intro hzero rest' hrest'
    rw [unclosed_append] at hzero
    rw [List.append_assoc]
    refine ⟨used' ++ rest', hclosed (by omega) _ ?_, hclosed' (by omega) _ ?_⟩
    · rcases hrest' with hnil | hlast | hfirst
      · exact .inl (List.append_eq_nil_iff.mp hnil).1
      · cases used' with
        | nil => exact .inr (.inl (by rwa [List.append_nil] at hlast))
        | cons t used' => exact .inr (.inr rfl)
      · exact .inr (.inr (firstKind_append_congr used' (fun _ => hfirst)))
    · rcases hrest' with hnil | hlast | hfirst
      · exact .inl (List.append_eq_nil_iff.mp hnil).2
      · cases used' with
        | nil => exact .inl rfl
        | cons t used' => exact .inr (.inl (by rwa [lastKind_append_cons] at hlast))
      · exact .inr (.inr hfirst)

/-- A construct between braces. -/
theorem DetachesBefore.braced {brace close : Token} (h : DetachesBefore R ts (close :: rest))
    (hbrace : brace.kind = .leftBrace) (hclose : close.kind = .rightBrace)
    (himp : ∀ ts rest, R ts (close :: rest) → R' (brace :: ts) rest) :
  Detaches R' (brace :: ts) rest
  := by
  obtain ⟨used, rfl, hopened, hclosed⟩ := h
  have hopened' : unclosed (brace :: (used ++ [close])) = unclosed used := by
    simp only [unclosed_cons, unclosed_append, unclosed_nil, hbrace, hclose, Kind.opened]
    omega
  refine ⟨brace :: (used ++ [close]), by simp, by omega, ?_⟩
  intro hzero
  constructor
  · have hlast : lastKind ((brace :: used) ++ [close]) = close.kind := lastKind_append_cons _ _ _
    rw [← List.cons_append, hlast, hclose]
    decide
  · intro rest'
    rw [List.cons_append, List.append_assoc]
    apply himp _ _ (hclosed (by omega) (close :: rest') (.inr (.inr rfl)))

/-- Where a brace is not closed there is nothing more to show. -/
theorem DetachesBefore.opened {brace : Token} (h : DetachesBefore R ts rest)
    (hbrace : brace.kind = .leftBrace) :
  Detaches R' (brace :: ts) rest
  := by
  obtain ⟨used, rfl, hopened, -⟩ := h
  have hopened' : unclosed (brace :: used) = 1 + unclosed used := by
    rw [unclosed_cons, hbrace]
    rfl
  refine ⟨brace :: used, rfl, by omega, ?_⟩
  intro hzero
  omega

/-! ### The constructs of the grammar -/

/-- The names after a name, with the parenthesis at the end, may stand before any tokens. -/
theorem IsMoreParameters.detaches {ids : List Ident} (h : IsMoreParameters ts ids rest) :
  Detaches (fun ts rest => IsMoreParameters ts ids rest) ts rest
  := by
  induction h with
  | close hparen =>
    apply (Detaches.token hparen (by decide)).imp
    rintro _ rest rfl
    exact .close hparen
  | cons hcomma hname _ ih =>
    apply ((Detaches.token hcomma (by decide)).seq
      ((Detaches.token hname (by decide)).seq ih)).imp
    rintro _ rest ⟨_, rfl, _, rfl, hids⟩
    exact .cons hcomma hname hids

/-- Parameters with their closing parenthesis may stand before any tokens. -/
theorem IsParameters.detaches {ids : List Ident} (h : IsParameters ts ids rest) :
  Detaches (fun ts rest => IsParameters ts ids rest) ts rest
  := by
  cases h with
  | close hparen =>
    apply (Detaches.token hparen (by decide)).imp
    rintro _ rest rfl
    exact .close hparen
  | cons hname hids =>
    apply ((Detaches.token hname (by decide)).seq hids.detaches).imp
    rintro _ rest ⟨_, rfl, hids⟩
    exact .cons hname hids

/-- A binary operator is neither a brace nor a semicolon. -/
theorem Tier.opened_of_joins {tier : Tier} {kind : Kind} (h : tier.joins kind = true) :
  kind.opened = 0 ∧ kind ≠ .semicolon
  := by
  cases tier <;> cases kind <;> first | decide | cases h

/-- An expression keeps its first token. -/
theorem Detaches.first {tier : Tier} {first : Token} {e : Expr} {n : Nat}
    (h : Detaches (fun ts rest => IsExpr tier ts e n rest) (first :: ts) rest) :
  Detaches (fun ts rest => ∃ ts', ts = first :: ts' ∧ IsExpr tier (first :: ts') e n rest)
    (first :: ts) rest
  := by
  obtain ⟨used, hused, hopened, hclosed⟩ := h
  refine ⟨used, hused, hopened, ?_⟩
  intro hzero
  obtain ⟨hlast, hrest⟩ := hclosed hzero
  refine ⟨hlast, ?_⟩
  intro rest'
  cases used with
  | nil =>
    obtain ⟨_, _, hnil, -⟩ := (hrest []).exists_first
    cases hnil
  | cons t used =>
    obtain ⟨rfl, -⟩ := List.cons.inj hused
    exact ⟨used ++ rest', rfl, hrest rest'⟩

mutual

/-- An expression that closes its braces may stand before any tokens. -/
theorem IsExpr.detaches {tier : Tier} {ts rest : List Token} {e : Expr} {n : Nat} :
    IsExpr tier ts e n rest → Detaches (fun ts rest => IsExpr tier ts e n rest) ts rest
  | .tighter h => h.detaches.imp (fun _ _ => .tighter)
  | .binary hleft hop hright => by
    apply (hleft.detaches.seq
      ((Detaches.token rfl (Tier.opened_of_joins hop)).seq hright.detaches)).imp
    rintro _ rest ⟨_, hleft', _, rfl, hright'⟩
    exact .binary hleft' hop hright'
  | .unary hop hright => by
    have hkind := Kind.opened_of_or (by decide) (by decide) hop
    apply ((Detaches.token rfl hkind).seq hright.detaches).imp
    rintro _ rest ⟨_, rfl, hright'⟩
    exact .unary hop hright'
  | .call hfunction hparen harguments => by
    apply (hfunction.detaches.seq
      ((Detaches.token hparen (by decide)).seq harguments.detaches)).imp
    rintro _ rest ⟨_, hfunction', _, rfl, harguments'⟩
    exact .call hfunction' hparen harguments'
  | .name ht => by
    apply (Detaches.token ht (by decide)).imp
    rintro _ rest rfl
    exact .name ht
  | .integer ht hvalue => by
    apply (Detaches.token ht (by decide)).imp
    rintro _ rest rfl
    exact .integer ht hvalue
  | .boolean ht => by
    have hkind := Kind.opened_of_or (by decide) (by decide) ht
    apply (Detaches.token rfl hkind).imp
    rintro _ rest rfl
    exact .boolean ht
  | .group hparen he hclose => by
    apply ((Detaches.token hparen (by decide)).seq
      (he.detaches.seq (Detaches.token hclose (by decide)))).imp
    rintro _ rest ⟨_, rfl, _, he', rfl⟩
    exact .group hparen he' hclose
  | .conditional hword hparen hcondition hclose hconsequence halternative => by
    apply ((Detaches.token hword (by decide)).seq ((Detaches.token hparen (by decide)).seq
      (hcondition.detaches.seq ((Detaches.token hclose (by decide)).seq
        (hconsequence.detaches.seq halternative.detaches))))).imp
    rintro _ rest ⟨_, rfl, _, rfl, _, hcondition', _, rfl, _, hconsequence', halternative'⟩
    exact .conditional hword hparen hcondition' hclose hconsequence' halternative'
  | .function hword hparen hids hbody => by
    apply ((Detaches.token hword (by decide)).seq ((Detaches.token hparen (by decide)).seq
      (hids.detaches.seq hbody.detaches))).imp
    rintro _ rest ⟨_, rfl, _, rfl, _, hids', hbody'⟩
    exact .function hword hparen hids' hbody'

/-- Arguments that close their braces may stand before any tokens. -/
theorem IsArguments.detaches {ts rest : List Token} {es : List Expr} {n : Nat} :
    IsArguments ts es n rest → Detaches (fun ts rest => IsArguments ts es n rest) ts rest
  | .close hparen => by
    apply (Detaches.token hparen (by decide)).imp
    rintro _ rest rfl
    exact .close hparen
  | .cons he hes => by
    apply (he.detaches.seq hes.detaches).imp
    rintro _ rest ⟨_, he', hes'⟩
    exact .cons he' hes'

/-- The arguments after an argument may stand before any tokens when they close their braces. -/
theorem IsMoreArguments.detaches {ts rest : List Token} {es : List Expr} {n : Nat} :
    IsMoreArguments ts es n rest → Detaches (fun ts rest => IsMoreArguments ts es n rest) ts rest
  | .close hparen => by
    apply (Detaches.token hparen (by decide)).imp
    rintro _ rest rfl
    exact .close hparen
  | .cons hcomma he hes => by
    apply ((Detaches.token hcomma (by decide)).seq (he.detaches.seq hes.detaches)).imp
    rintro _ rest ⟨_, rfl, _, he', hes'⟩
    exact .cons hcomma he' hes'

/-- A statement that closes its braces may stand before other tokens that start alike, and before
any at all after a semicolon. -/
theorem IsStmt.detaches {ts rest : List Token} {s : Stmt} {n : Nat} :
    IsStmt ts s n rest → DetachesBefore (fun ts rest => IsStmt ts s n rest) ts rest
  | .binding hword hname hassign hvalue hsemicolon => by
    apply ((Detaches.token hword (by decide)).seq ((Detaches.token hname (by decide)).seq
      ((Detaches.token hassign (by decide)).seq hvalue.detaches))).terminated hsemicolon
    rintro _ rest ⟨_, rfl, _, rfl, _, rfl, hvalue'⟩
    exact .binding hword hname hassign hvalue' hsemicolon
  | .returning hword hsemicolon => by
    apply (Detaches.token hword (by decide)).terminated hsemicolon
    rintro _ rest rfl
    exact .returning hword hsemicolon
  | .returningValue hword hvalue hsemicolon => by
    apply ((Detaches.token hword (by decide)).seq hvalue.detaches).terminated hsemicolon
    rintro _ rest ⟨_, rfl, hvalue'⟩
    exact .returningValue hword hvalue' hsemicolon
  | .terminated hvalue hsemicolon => by
    apply hvalue.detaches.first.terminated hsemicolon
    rintro _ rest ⟨ts, rfl, hvalue'⟩
    exact .terminated hvalue' hsemicolon
  | .expression hvalue hsemicolon hextends => by
    apply hvalue.detaches.first.unterminated
    · rintro ⟨_, hnil, -⟩
      cases hnil
    · rintro _ rest hfirst ⟨ts, rfl, hvalue'⟩
      exact .expression hvalue' (by rwa [hfirst]) (by rwa [hfirst])

/-- Statements that close their braces may stand before other tokens that start alike, and before
any at all when they are none or end with a semicolon. -/
theorem IsStmts.detaches {ts rest : List Token} {ss : List Stmt} {n : Nat} :
    IsStmts ts ss n rest → DetachesBefore (fun ts rest => IsStmts ts ss n rest) ts rest
  | .nil => ⟨[], rfl, Int.le_refl 0, fun _ _ _ => .nil⟩
  | .cons hs hss => by
    apply (hs.detaches.seq hss.detaches).imp
    rintro _ rest ⟨_, hs', hss'⟩
    exact .cons hs' hss'

/-- A block that closes its braces may stand before any tokens. -/
theorem IsBlock.detaches {ts rest : List Token} {b : Block} {n : Nat} :
    IsBlock ts b n rest → Detaches (fun ts rest => IsBlock ts b n rest) ts rest
  | .closed hbrace hss hclose => by
    apply hss.detaches.braced hbrace hclose
    intro _ rest hss'
    exact .closed hbrace hss' hclose
  | .unclosed hbrace hss => hss.detaches.opened hbrace

/-- A second block that closes its braces may stand before any tokens, and so may a missing one. -/
theorem IsAlternative.detaches {ts rest : List Token} {b : Option Block} {n : Nat} :
    IsAlternative ts b n rest → Detaches (fun ts rest => IsAlternative ts b n rest) ts rest
  | .missing => by
    apply Detaches.nil.imp
    rintro _ rest rfl
    exact .missing
  | .present hword hb => by
    apply ((Detaches.token hword (by decide)).seq hb.detaches).imp
    rintro _ rest ⟨_, rfl, hb'⟩
    exact .present hword hb'

end

end Grammar

end MonkeySyntax
