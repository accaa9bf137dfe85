import MonkeySyntax.Proofs.Tree.Shape
import MonkeySyntax.Proofs.Tree.Tokens
import MonkeySyntax.Proofs.Grammar.Strength

/-!
# The grammar derives canonical texts

The tokens of the canonical text of a source-shaped tree make up the tree itself, up to the
places of tokens and the tokens of expression statements, and they are nested as deeply as the
tree needs.

Every expression is written as one of the tier of calls: a unary or binary one is a group, and
so it may stand wherever an operand or the function of a call may.
-/

namespace MonkeySyntax

/-- A name without its place has the text of its token as its value. -/
theorem Ident.IsSourceShaped.mapToken_eq {id : Ident} (h : id.IsSourceShaped) :
  id.mapToken Token.unplaced = ⟨id.token.unplaced, id.token.unplaced.text⟩
  := by
  rw [Ident.mapToken, h.2]
  rfl

namespace Grammar

/-! ### Parts of expressions -/

/-- Every binary operator is that of a tier. -/
theorem Tier.exists_joins_of_isBinary {kind : Kind} (h : kind.isBinary = true) :
  ∃ tier : Tier, tier.joins kind = true
  := by
  cases kind with
  | equal | notEqual => exact ⟨.equality, rfl⟩
  | less | greater => exact ⟨.relation, rfl⟩
  | plus | minus => exact ⟨.sum, rfl⟩
  | asterisk | slash => exact ⟨.product, rfl⟩
  | _ => cases h

/-- The tokens of names with commas before them are derived as the names after a name. -/
theorem isMoreParameters_unparse {ids : List Ident} (h : ∀ id ∈ ids, id.IsSourceShaped)
    (rest : List Token) :
  IsMoreParameters ((ids.map (fun id => [id.token.unplaced])).flatMap
    (fun ts => [Token.ofKind .comma] ++ ts) ++ .ofKind .rightParen :: rest)
    (ids.map (Ident.mapToken Token.unplaced)) rest
  := by
  induction ids with
  | nil => exact .close rfl
  | cons id ids ih =>
    have hid := h id (by simp)
    rw [List.map_cons, List.map_cons, hid.mapToken_eq]
    exact .cons rfl hid.1.1 (ih (fun id' hid' => h id' (by simp [hid'])))

/-- Names with commas between them are parameters. -/
theorem isParameters_unparse {ids : List Ident} (h : ∀ id ∈ ids, id.IsSourceShaped)
    (rest : List Token) :
  IsParameters ([Token.ofKind .comma].intercalate (ids.map (fun id => [id.token.unplaced])) ++
    .ofKind .rightParen :: rest) (ids.map (Ident.mapToken Token.unplaced)) rest
  := by
  cases ids with
  | nil => exact .close rfl
  | cons id ids =>
    have hid := h id (by simp)
    rw [List.map_cons, List.map_cons, hid.mapToken_eq, intercalate_cons_eq, List.append_assoc]
    exact .cons hid.1.1 (isMoreParameters_unparse (fun id' hid' => h id' (by simp [hid'])) rest)

/-- A call, or anything that binds as strongly, is an expression. -/
theorem IsExpr.equality_of_call {ts rest : List Token} {e : Expr} {n : Nat}
    (h : IsExpr .call ts e n rest) :
  IsExpr .equality ts e n rest
  := by
  apply h.loosen
  decide

/-- An expression in parentheses may be called. -/
theorem IsExpr.group_call {tier : Tier} {ts rest : List Token} {e : Expr} {n : Nat}
    (h : IsExpr tier ts e n (.ofKind .rightParen :: rest)) :
  IsExpr .call (.ofKind .leftParen :: ts) e (n + 1) rest
  := by
  have hequality : IsExpr .equality ts e n (.ofKind .rightParen :: rest) := by
    apply h.loosen
    cases tier <;> decide
  exact .tighter (.group rfl hequality rfl)

/-- An operator between operands that may both be called. -/
theorem IsExpr.binary_of_call {op : Token} {ts ts' rest : List Token} {left right : Expr}
    {m n : Nat} (hleft : IsExpr .call ts left m (op :: ts')) (hop : op.kind.isBinary = true)
    (hright : IsExpr .call ts' right n rest) :
  ∃ tier, IsExpr tier ts (.binary op left op.text right) (max m (n + 1)) rest
  := by
  obtain ⟨tier, hjoins⟩ := Tier.exists_joins_of_isBinary hop
  have hproduct := Tier.rank_le_of_joins hjoins
  use tier
  apply IsExpr.binary (hleft.loosen _) hjoins (hright.loosen _)
  · apply hproduct.trans
    decide
  · rw [Tier.rank_tighter (Nat.lt_of_le_of_lt hproduct (by decide))]
    apply Nat.succ_le_succ (hproduct.trans _)
    decide

/-! ### Trees -/

mutual

/-- The tokens of an expression are derived as an expression that is the same up to the places of
its tokens, with the nesting that it needs, and before any other tokens. -/
theorem exists_isExpr_unparse : ∀ e : Expr, e.IsSourceShaped →
    ∃ e' : Expr, e'.erased = e.erased ∧ ∀ rest, IsExpr .call (e.unparse ++ rest) e' e.need rest
  | .name id, hid => by
    use .name (id.mapToken Token.unplaced)
    constructor
    · rfl
    · intro rest
      rw [Ident.IsSourceShaped.mapToken_eq hid]
      exact .tighter (.name hid.1.1)
  | .integer token value, ⟨⟨hkind, hlexeme⟩, hlength, hvalue, hle⟩ => by
    obtain ⟨hne, hdigits⟩ :=
      ((Token.isLexeme_iff (by simp [hkind])).mp hlexeme).isDigit hkind
    use .integer token.unplaced value
    constructor
    · rfl
    · intro rest
      have hsome := (integerValue_eq_some_iff hne hdigits value).mpr ⟨hlength, hvalue, hle⟩
      exact .tighter (.integer hkind hsome)
  | .boolean token value, h => by
    use .boolean token.unplaced (token.kind == .trueWord)
    rcases h with ⟨⟨hkind, _⟩, rfl⟩ | ⟨⟨hkind, _⟩, rfl⟩
    · constructor
      · rw [hkind]
        rfl
      · intro rest
        exact .tighter (.boolean (.inl hkind))
    · constructor
      · rw [hkind]
        rfl
      · intro rest
        exact .tighter (.boolean (.inr hkind))
  | .unary token operator right, ⟨hop, _, hoperator, hright⟩ => by
    obtain ⟨right', herased, hright'⟩ := exists_isExpr_unparse right hright
    use .unary token.unplaced token.text right'
    constructor
    · simp only [Expr.erased, Expr.mapTokens, hoperator] at herased ⊢
      rw [herased]
      rfl
    · intro rest
      simp only [Expr.unparse, List.cons_append, List.append_assoc, List.nil_append]
      have hop' : token.unplaced.kind = .bang ∨ token.unplaced.kind = .minus := hop
      have hoperand : IsExpr .unary (right.unparse ++ .ofKind .rightParen :: rest) right' right.need
          (.ofKind .rightParen :: rest) := by
        apply (hright' _).loosen
        decide
      apply (IsExpr.unary hop' hoperand).group_call
  | .binary token left operator right, ⟨hop, _, hoperator, hleft, hright⟩ => by
    obtain ⟨left', herased, hleft'⟩ := exists_isExpr_unparse left hleft
    obtain ⟨right', herased', hright'⟩ := exists_isExpr_unparse right hright
    use .binary token.unplaced left' token.text right'
    constructor
    · simp only [Expr.erased, Expr.mapTokens, hoperator] at herased herased' ⊢
      rw [herased, herased']
      rfl
    · intro rest
      have hneed : Expr.need (.binary token left operator right) =
          max left.need (right.need + 1) + 1 := by
        rw [Expr.need]
        omega
      simp only [hneed, Expr.unparse, List.cons_append, List.append_assoc, List.nil_append]
      have hop' : token.unplaced.kind.isBinary = true := hop
      obtain ⟨tier, hbinary⟩ := IsExpr.binary_of_call (hleft' _) hop' (hright' _)
      apply hbinary.group_call
  | .conditional token condition consequence alternative,
    ⟨⟨hkind, _⟩, hcondition, hconsequence, halternative⟩ => by
    obtain ⟨condition', herased, hcondition'⟩ := exists_isExpr_unparse condition hcondition
    obtain ⟨consequence', herased', hconsequence'⟩ :=
      exists_isBlock_unparse consequence hconsequence
    obtain ⟨alternative', herased'', halternative'⟩ :=
      exists_isAlternative_unparse alternative halternative
    use .conditional token.unplaced condition' consequence' alternative'
    constructor
    · simp only [Expr.erased, Block.erased, Expr.mapTokens] at herased herased' ⊢
      rw [herased, herased', herased'']
      rfl
    · intro rest
      simp only [Expr.unparse, List.cons_append, List.append_assoc]
      have hkind' : token.unplaced.kind = .ifWord := hkind
      apply IsExpr.tighter
      exact .conditional hkind' rfl (hcondition' _).equality_of_call rfl (hconsequence' _)
        (halternative' _)
  | .function token parameters body, ⟨⟨hkind, _⟩, hparameters, hbody⟩ => by
    obtain ⟨body', herased, hbody'⟩ := exists_isBlock_unparse body hbody
    use .function token.unplaced (parameters.map (Ident.mapToken Token.unplaced)) body'
    constructor
    · simp only [Expr.erased, Block.erased, Expr.mapTokens, List.map_map] at herased ⊢
      rw [herased]
      rfl
    · intro rest
      simp only [Expr.unparse, List.cons_append, List.append_assoc]
      have hkind' : token.unplaced.kind = .functionWord := hkind
      apply IsExpr.tighter
      exact .function hkind' rfl (isParameters_unparse hparameters _) (hbody' _)
  | .call token function arguments, ⟨⟨hkind, _⟩, hfunction, harguments⟩ => by
    obtain ⟨function', herased, hfunction'⟩ := exists_isExpr_unparse function hfunction
    obtain ⟨arguments', herased', harguments'⟩ := exists_isArguments_unparse arguments harguments
    use .call token.unplaced function' arguments'
    constructor
    · simp only [Expr.erased, Expr.mapTokens] at herased ⊢
      rw [herased, herased']
      rfl
    · intro rest
      simp only [Expr.unparse, List.cons_append, List.append_assoc, List.nil_append]
      have hkind' : token.unplaced.kind = .leftParen := hkind
      exact .call (hfunction' _) hkind' (harguments' _)

/-- The tokens of expressions with commas before them are derived as further arguments. -/
theorem exists_isMoreArguments_unparse : ∀ es : List Expr, Expr.AreSourceShaped es →
    ∃ es' : List Expr, Expr.mapTokensEach Token.unplaced (fun _ => default) es' =
        Expr.mapTokensEach Token.unplaced (fun _ => default) es ∧
      ∀ rest, IsMoreArguments ((Expr.unparseEach es).flatMap
        (fun ts => [Token.ofKind .comma] ++ ts) ++ .ofKind .rightParen :: rest) es'
          (Expr.needArguments es) rest
  | [], _ => ⟨[], rfl, fun _ => .close rfl⟩
  | e :: es, ⟨he, hes⟩ => by
    obtain ⟨e', herased, he'⟩ := exists_isExpr_unparse e he
    obtain ⟨es', herased', hes'⟩ := exists_isMoreArguments_unparse es hes
    use e' :: es'
    constructor
    · rw [Expr.mapTokensEach, Expr.mapTokensEach, herased']
      congr 1
    · intro rest
      simp only [Expr.unparseEach, List.flatMap_cons, List.append_assoc, List.cons_append,
        List.nil_append]
      exact .cons rfl (he' _).equality_of_call (hes' rest)

/-- The tokens of expressions with commas between them are derived as arguments. -/
theorem exists_isArguments_unparse : ∀ es : List Expr, Expr.AreSourceShaped es →
    ∃ es' : List Expr, Expr.mapTokensEach Token.unplaced (fun _ => default) es' =
        Expr.mapTokensEach Token.unplaced (fun _ => default) es ∧
      ∀ rest, IsArguments ([Token.ofKind .comma].intercalate (Expr.unparseEach es) ++
        .ofKind .rightParen :: rest) es' (Expr.needArguments es) rest
  | [], _ => ⟨[], rfl, fun _ => .close rfl⟩
  | e :: es, ⟨he, hes⟩ => by
    obtain ⟨e', herased, he'⟩ := exists_isExpr_unparse e he
    obtain ⟨es', herased', hes'⟩ := exists_isMoreArguments_unparse es hes
    use e' :: es'
    constructor
    · rw [Expr.mapTokensEach, Expr.mapTokensEach, herased']
      congr 1
    · intro rest
      rw [Expr.unparseEach, intercalate_cons_eq, List.append_assoc]
      exact .cons (he' _).equality_of_call (hes' rest)

/-- A statement is derived from its tokens, and an expression also with a semicolon. -/
theorem exists_isStmt_unparse : ∀ s : Stmt, s.IsSourceShaped →
    ∃ s' : Stmt, s'.erased = s.erased ∧
      (s.isExpression = true → ∀ rest,
        IsStmt (s.unparse ++ .ofKind .semicolon :: rest) s' s.need rest) ∧
      ∀ rest, (s.isExpression = true →
          firstKind rest ≠ .semicolon ∧ (firstKind rest).extendsExpr = false) →
        IsStmt (s.unparse ++ rest) s' s.need rest
  | .binding token name value, ⟨⟨hkind, _⟩, hname, hvalue⟩ => by
    obtain ⟨value', herased, hvalue'⟩ := exists_isExpr_unparse value hvalue
    use .binding token.unplaced (name.mapToken Token.unplaced) value'
    constructor
    · simp only [Expr.erased, Stmt.erased, Stmt.mapTokens] at herased ⊢
      rw [herased]
      rfl
    · constructor
      · rintro ⟨⟩
      · intro rest _
        simp only [Stmt.unparse, List.cons_append, List.append_assoc, List.nil_append]
        have hkind' : token.unplaced.kind = .letWord := hkind
        have hname' : name.token.unplaced.kind = .identifier := hname.1.1
        rw [hname.mapToken_eq]
        exact .binding hkind' hname' rfl (hvalue' _).equality_of_call rfl
  | .returning token none, ⟨hkind, _⟩ => by
    use .returning token.unplaced none
    constructor
    · rfl
    · constructor
      · rintro ⟨⟩
      · intro rest _
        exact .returning hkind rfl
  | .returning token (some value), ⟨⟨hkind, _⟩, hvalue⟩ => by
    obtain ⟨value', herased, hvalue'⟩ := exists_isExpr_unparse value hvalue
    use .returning token.unplaced (some value')
    constructor
    · simp only [Expr.erased, Stmt.erased, Stmt.mapTokens] at herased ⊢
      rw [herased]
      rfl
    · constructor
      · rintro ⟨⟩
      · intro rest _
        simp only [Stmt.unparse, List.cons_append, List.append_assoc, List.nil_append]
        have hkind' : token.unplaced.kind = .returnWord := hkind
        exact .returningValue hkind' (hvalue' _).equality_of_call rfl
  | .expression token value, ⟨_, hvalue⟩ => by
    obtain ⟨value', herased, hvalue'⟩ := exists_isExpr_unparse value hvalue
    have hequality (rest : List Token) := (hvalue' rest).equality_of_call
    obtain ⟨first, ts, hts, -⟩ := (hequality []).exists_first
    rw [List.append_nil] at hts
    use .expression first value'
    constructor
    · simp only [Expr.erased, Stmt.erased, Stmt.mapTokens] at herased ⊢
      rw [herased]
    · simp only [Stmt.unparse, hts] at hequality ⊢
      constructor
      · intro _ rest
        exact .terminated (hequality _) rfl
      · intro rest hrest
        obtain ⟨hsemicolon, hextends⟩ := hrest rfl
        exact .expression (hequality _) hsemicolon hextends
  | .block _, h => h.elim

/-- The tokens of statements are derived as statements, before tokens that neither end nor extend
the last of them.  An expression that is the last statement ends where the statements do. -/
theorem exists_isStmts_unparse : ∀ ss : List Stmt, Stmt.AreSourceShaped ss →
    ∃ ss' : List Stmt, Stmt.mapTokensEach Token.unplaced (fun _ => default) ss' =
        Stmt.mapTokensEach Token.unplaced (fun _ => default) ss ∧
      ∀ rest, firstKind rest ≠ .semicolon → (firstKind rest).extendsExpr = false →
        IsStmts (Stmt.unparseEach ss ++ rest) ss' (Stmt.needEach ss) rest
  | [], _ => ⟨[], rfl, fun _ _ _ => .nil⟩
  | s :: ss, ⟨hs, hss⟩ => by
    obtain ⟨s', herased, hterminated, hs'⟩ := exists_isStmt_unparse s hs
    obtain ⟨ss', herased', hss'⟩ := exists_isStmts_unparse ss hss
    use s' :: ss'
    constructor
    · rw [Stmt.mapTokensEach, Stmt.mapTokensEach, herased']
      congr 1
    · intro rest hsemicolon hextends
      rw [Stmt.unparseEach, List.append_assoc]
      split
      next hmore =>
        obtain ⟨hexpression, -⟩ := Bool.and_eq_true_iff.mp hmore
        rw [List.append_assoc]
        exact .cons (hterminated hexpression _) (hss' rest hsemicolon hextends)
      next hlast =>
        apply IsStmts.cons (hs' _ _) (hss' rest hsemicolon hextends)
        intro hexpression
        obtain rfl : ss = [] := by simpa [hexpression] using hlast
        exact ⟨hsemicolon, hextends⟩

/-- The tokens of a block are derived as a block, before any other tokens. -/
theorem exists_isBlock_unparse : ∀ b : Block, b.IsSourceShaped →
    ∃ b' : Block, b'.erased = b.erased ∧ ∀ rest, IsBlock (b.unparse ++ rest) b' b.need rest
  | .mk token statements, ⟨⟨hkind, _⟩, hstatements⟩ => by
    obtain ⟨statements', herased, hstatements'⟩ := exists_isStmts_unparse statements hstatements
    use .mk token.unplaced statements'
    constructor
    · rw [Block.erased, Block.erased, Block.mapTokens, Block.mapTokens, herased]
      rfl
    · intro rest
      simp only [Block.unparse, List.cons_append, List.append_assoc, List.nil_append]
      have hkind' : token.unplaced.kind = .leftBrace := hkind
      have hsemicolon : firstKind (.ofKind .rightBrace :: rest) ≠ .semicolon := by
        rw [firstKind_cons]
        decide
      exact .closed hkind' (hstatements' _ hsemicolon rfl) rfl

/-- The tokens of a second block are derived as one, and no tokens as a missing one. -/
theorem exists_isAlternative_unparse : ∀ b : Option Block, Block.IsSourceShapedElse b →
    ∃ b' : Option Block, Block.mapTokensElse Token.unplaced (fun _ => default) b' =
        Block.mapTokensElse Token.unplaced (fun _ => default) b ∧
      ∀ rest, IsAlternative (Block.unparseElse b ++ rest) b' (Block.needElse b) rest
  | none, _ => ⟨none, rfl, fun _ => .missing⟩
  | some b, h => by
    obtain ⟨b', herased, hb'⟩ := exists_isBlock_unparse b h
    use some b'
    constructor
    · simp only [Block.mapTokensElse]
      congr 1
    · intro rest
      exact .present rfl (hb' rest)

end

/-- The tokens of a source-shaped program are those of the program, nested as deeply as it
needs. -/
theorem exists_isProgram_unparse {program : Program} (h : program.IsSourceShaped) :
  ∃ program' : Program, program'.erased = program.erased ∧
    IsProgram program.unparse program' (Stmt.needEach program.statements)
  := by
  obtain ⟨ss, herased, hss⟩ := exists_isStmts_unparse program.statements h
  use ⟨ss⟩
  constructor
  · rw [Program.erased, Program.erased, Program.mapTokens, Program.mapTokens, herased]
  · have hprogram := hss [] (by decide) rfl
    rwa [List.append_nil] at hprogram

end Grammar

end MonkeySyntax
