import MonkeySyntax.Proofs.Grammar.Braces

/-!
# Brackets

The brackets of a construct are nested: a closing bracket closes the innermost one that is open.
Only braces may be left open, and only at the very end, where the end of the tokens closes the
blocks that they open (`Nests`).  If none is left open, every block of the construct ends with a
brace of its own.

`openBrackets` reads tokens with a stack of the brackets that are open, and says whether they are
nested and what they leave open.
-/

namespace MonkeySyntax

/-! ### The blocks of a tree -/

mutual

/-- The blocks of an expression, each before those within it. -/
def Expr.blocks : Expr → List Block
  | .name _ => []
  | .integer _ _ => []
  | .boolean _ _ => []
  | .unary _ _ right => right.blocks
  | .binary _ left _ right => left.blocks ++ right.blocks
  | .conditional _ condition consequence alternative =>
    condition.blocks ++ (consequence.blocks ++ Block.blocksElse alternative)
  | .function _ _ body => body.blocks
  | .call _ function arguments => function.blocks ++ Expr.blocksEach arguments

/-- The blocks of expressions, one after the other. -/
def Expr.blocksEach : List Expr → List Block
  | [] => []
  | e :: es => e.blocks ++ Expr.blocksEach es

/-- The blocks of a statement. -/
def Stmt.blocks : Stmt → List Block
  | .binding _ _ value => value.blocks
  | .returning _ none => []
  | .returning _ (some value) => value.blocks
  | .expression _ value => value.blocks
  | .block body => body.blocks

/-- The blocks of statements, one after the other. -/
def Stmt.blocksEach : List Stmt → List Block
  | [] => []
  | s :: ss => s.blocks ++ Stmt.blocksEach ss

/-- A block and the blocks within it. -/
def Block.blocks : Block → List Block
  | .mk token statements => .mk token statements :: Stmt.blocksEach statements

/-- The blocks of the second block of a choice, if there is one. -/
def Block.blocksElse : Option Block → List Block
  | none => []
  | some b => b.blocks

end

/-- The blocks of a program. -/
def Program.blocks (p : Program) : List Block :=
  Stmt.blocksEach p.statements

/-! ### Open brackets -/

/-- The brackets that are open after a token of a kind, with the innermost first, given those that
are open before it.  A closing bracket has to close the innermost one. -/
def Kind.bracket : Kind → List Kind → Option (List Kind)
  | .leftParen, opened => some (.leftParen :: opened)
  | .leftBrace, opened => some (.leftBrace :: opened)
  | .rightParen, .leftParen :: opened => some opened
  | .rightParen, _ => none
  | .rightBrace, .leftBrace :: opened => some opened
  | .rightBrace, _ => none
  | _, opened => some opened

/-- Whether a kind is that of a bracket. -/
def Kind.isBracket (kind : Kind) : Bool :=
  kind == .leftParen || kind == .rightParen || kind == .leftBrace || kind == .rightBrace

/-- A token that is no bracket leaves the open brackets as they are. -/
theorem Kind.bracket_of_not_isBracket {kind : Kind} (h : kind.isBracket = false)
    (opened : List Kind) :
  kind.bracket opened = some opened
  := by
  cases kind <;> first | rfl | cases h

/-- A bracket opens as many braces as it puts among those that are open. -/
theorem Kind.opened_eq_of_bracket {kind : Kind} {opened opened' : List Kind}
    (h : kind.bracket opened = some opened') :
  kind.opened + opened.count .leftBrace = opened'.count .leftBrace
  := by
  rw [bracket.eq_def] at h
  split at h <;> cases h
  all_goals simp [Kind.opened]
  all_goals omega

/-- The brackets that are open after some tokens, with the innermost first, given those that are
open before them. -/
def openBrackets (opened : List Kind) (ts : List Token) : Option (List Kind) :=
  ts.foldlM (fun opened t => t.kind.bracket opened) opened

theorem openBrackets_nil (opened : List Kind) :
  openBrackets opened [] = some opened
  := rfl

/-- The brackets are read one token at a time. -/
theorem openBrackets_cons (opened : List Kind) (t : Token) (ts : List Token) :
  openBrackets opened (t :: ts) =
    (t.kind.bracket opened).bind (fun opened => openBrackets opened ts)
  := List.foldlM_cons

/-- The brackets of the first tokens are open before the others. -/
theorem openBrackets_append (opened : List Kind) (ts ts' : List Token) :
  openBrackets opened (ts ++ ts') =
    (openBrackets opened ts).bind (fun opened => openBrackets opened ts')
  := List.foldlM_append

/-- Tokens open as many braces as they leave open more. -/
theorem unclosed_eq_of_openBrackets {opened opened' : List Kind} {ts : List Token}
    (h : openBrackets opened ts = some opened') :
  unclosed ts + opened.count .leftBrace = opened'.count .leftBrace
  := by
  induction ts generalizing opened with
  | nil =>
    cases h
    simp
  | cons t ts ih =>
    rw [openBrackets_cons, Option.bind_eq_some_iff] at h
    obtain ⟨between, hbetween, h⟩ := h
    rw [unclosed_cons, ← ih h, ← Kind.opened_eq_of_bracket hbetween]
    omega

namespace Grammar

/-- A block whose opening brace is one of some tokens, and whose statements go on from there to a
closing brace. -/
def ClosesIn (ts : List Token) (b : Block) : Prop :=
  ∃ before ts' close rest n, ts = before ++ b.token :: ts' ∧
    IsStmts ts' b.statements n (close :: rest) ∧ close.kind = .rightBrace

/-- A block that closes in some tokens closes in them after others as well. -/
theorem ClosesIn.append {ts : List Token} {b : Block} (h : ClosesIn ts b) (earlier : List Token) :
  ClosesIn (earlier ++ ts) b
  := by
  obtain ⟨before, ts', close, rest, n, rfl, hss, hclose⟩ := h
  exact ⟨earlier ++ before, ts', close, rest, n, by rw [List.append_assoc], hss, hclose⟩

/-! ### Nested brackets -/

/-- The brackets of a construct are nested.  A number of braces may be left open, but not before
other tokens; if there are none, each of the blocks has its closing brace. -/
def Nests (bs : List Block) (ts rest : List Token) : Prop :=
  ∃ used k, ts = used ++ rest ∧ (rest ≠ [] → k = 0) ∧
    (∀ opened, openBrackets opened used = some (List.replicate k .leftBrace ++ opened)) ∧
    (k = 0 → ∀ b ∈ bs, ClosesIn ts b)

namespace Nests

variable {bs bs' : List Block} {ts ts' rest : List Token}

/-- No token at all. -/
theorem nil :
  Nests [] ts ts
  := ⟨[], 0, rfl, fun _ => rfl, openBrackets_nil, by simp⟩

/-- A token that is no bracket. -/
theorem token {t : Token} {kind : Kind} (ht : t.kind = kind) (hkind : kind.isBracket = false) :
  Nests [] (t :: rest) rest
  := by
  refine ⟨[t], 0, rfl, fun _ => rfl, ?_, by simp⟩
  intro opened
  rw [openBrackets_cons, ht, Kind.bracket_of_not_isBracket hkind]
  rfl

/-- One construct after another. -/
theorem seq (h : Nests bs ts ts') (h' : Nests bs' ts' rest) :
  Nests (bs ++ bs') ts rest
  := by
  obtain ⟨used, k, rfl, hk, hopened, hbs⟩ := h
  obtain ⟨used', k', rfl, hk', hopened', hbs'⟩ := h'
  refine ⟨used ++ used', k' + k, by rw [List.append_assoc], ?_, ?_, ?_⟩
  · intro hrest
    rw [hk' hrest, hk (List.append_ne_nil_of_right_ne_nil used' hrest)]
  · intro opened
    rw [openBrackets_append, hopened, Option.bind_some, hopened', List.replicate_add,
      List.append_assoc]
  · intro hzero b hb
    rcases List.mem_append.mp hb with hb | hb
    · apply hbs (by omega) b hb
    · apply (hbs' (by omega) b hb).append used

/-- A token before a construct. -/
theorem cons {t : Token} {kind : Kind} (h : Nests bs ts rest) (ht : t.kind = kind)
    (hkind : kind.isBracket = false) :
  Nests bs (t :: ts) rest
  := (token ht hkind).seq h

/-- A construct before a token. -/
theorem terminated {t : Token} {kind : Kind} (h : Nests bs ts (t :: rest)) (ht : t.kind = kind)
    (hkind : kind.isBracket = false) :
  Nests bs ts rest
  := by
  have hnests := h.seq (token ht hkind)
  rwa [List.append_nil] at hnests

/-- A construct between brackets. -/
theorem bracketed {left right : Token} {kind : Kind} (h : Nests bs ts (right :: rest))
    (hleft : ∀ opened, left.kind.bracket opened = some (kind :: opened))
    (hright : ∀ opened, right.kind.bracket (kind :: opened) = some opened) :
  Nests bs (left :: ts) rest
  := by
  obtain ⟨used, k, rfl, hk, hopened, hbs⟩ := h
  obtain rfl : k = 0 := hk (List.cons_ne_nil right rest)
  refine ⟨left :: (used ++ [right]), 0, by simp, fun _ => rfl, ?_, ?_⟩
  · intro opened
    rw [openBrackets_cons, hleft, Option.bind_some, openBrackets_append, hopened,
      Option.bind_some, List.replicate_zero, List.nil_append, List.nil_append, openBrackets_cons,
      hright]
    rfl
  · intro _ b hb
    apply (hbs rfl b hb).append [left]

/-- A construct in parentheses. -/
theorem grouped {left right : Token} (h : Nests bs ts (right :: rest))
    (hleft : left.kind = .leftParen) (hright : right.kind = .rightParen) :
  Nests bs (left :: ts) rest
  := by
  apply h.bracketed
  · intro opened
    rw [hleft, Kind.bracket]
  · intro opened
    rw [hright, Kind.bracket]

/-- A block whose closing brace is there. -/
theorem braced {brace close : Token} {ss : List Stmt} {n : Nat}
    (h : Nests bs ts (close :: rest)) (hss : IsStmts ts ss n (close :: rest))
    (hbrace : brace.kind = .leftBrace) (hclose : close.kind = .rightBrace) :
  Nests (.mk brace ss :: bs) (brace :: ts) rest
  := by
  have hnests : Nests bs (brace :: ts) rest := by
    apply h.bracketed
    · intro opened
      rw [hbrace, Kind.bracket]
    · intro opened
      rw [hclose, Kind.bracket]
  obtain ⟨used, k, hused, hk, hopened, hbs⟩ := hnests
  refine ⟨used, k, hused, hk, hopened, ?_⟩
  intro hzero
  rw [List.forall_mem_cons]
  exact ⟨⟨[], ts, close, rest, n, rfl, hss, hclose⟩, hbs hzero⟩

/-- A block that the end of the tokens closes. -/
theorem unbraced {brace : Token} {b : Block} (h : Nests bs ts [])
    (hbrace : brace.kind = .leftBrace) :
  Nests (b :: bs) (brace :: ts) []
  := by
  obtain ⟨used, k, hused, -, hopened, -⟩ := h
  refine ⟨brace :: used, k + 1, by rw [hused]; rfl, fun hne => absurd rfl hne, ?_, ?_⟩
  · intro opened
    rw [openBrackets_cons, hbrace, Kind.bracket, Option.bind_some, hopened, List.replicate_add,
      List.append_assoc]
    rfl
  · intro hzero
    cases hzero

/-- Tokens before others leave no brace open. -/
theorem unclosed_eq_zero {used : List Token} (h : Nests bs (used ++ rest) rest)
    (hrest : rest ≠ []) :
  unclosed used = 0
  := by
  obtain ⟨used', k, hused, hk, hopened, -⟩ := h
  obtain rfl := List.append_cancel_right hused
  have hunclosed := unclosed_eq_of_openBrackets (hopened [])
  rw [hk hrest] at hunclosed
  simpa using hunclosed

end Nests

/-! ### The constructs of the grammar -/

/-- The parenthesis that ends further parameters closes one that is open. -/
theorem IsMoreParameters.nests {ts rest : List Token} {ids : List Ident}
    (h : IsMoreParameters ts ids rest) :
  ∃ paren : Token, paren.kind = .rightParen ∧ Nests [] ts (paren :: rest)
  := by
  induction h with
  | @close paren rest hparen => exact ⟨paren, hparen, .nil⟩
  | cons hcomma hname _ ih =>
    obtain ⟨paren, hparen, hids⟩ := ih
    exact ⟨paren, hparen, (hids.cons hname rfl).cons hcomma rfl⟩

/-- Parameters close the parenthesis before them, and leave no brace open. -/
theorem IsParameters.nests {paren : Token} {ts rest : List Token} {ids : List Ident}
    (h : IsParameters ts ids rest) (hparen : paren.kind = .leftParen) :
  Nests [] (paren :: ts) rest
  := by
  cases h with
  | close hclose => apply Nests.nil.grouped hparen hclose
  | cons hname hids =>
    obtain ⟨close, hclose, hnests⟩ := hids.nests
    apply (hnests.cons hname rfl).grouped hparen hclose

/-- A binary operator is no bracket. -/
theorem Tier.isBracket_of_joins {tier : Tier} {kind : Kind} (h : tier.joins kind = true) :
  kind.isBracket = false
  := by
  cases tier <;> cases kind <;> first | rfl | cases h

/-- A token of one of two kinds that are no brackets. -/
theorem isBracket_of_or {t : Token} {k k' : Kind} (h : t.kind = k ∨ t.kind = k')
    (hk : k.isBracket = false) (hk' : k'.isBracket = false) :
  t.kind.isBracket = false
  := by
  rcases h with h | h
  · rwa [h]
  · rwa [h]

mutual

/-- The brackets of an expression are nested. -/
theorem IsExpr.nests {tier : Tier} {ts rest : List Token} {e : Expr} {n : Nat} :
    IsExpr tier ts e n rest → Nests e.blocks ts rest
  | .tighter h => h.nests
  | .binary hleft hop hright =>
    hleft.nests.seq (hright.nests.cons rfl (Tier.isBracket_of_joins hop))
  | .unary hop hright => hright.nests.cons rfl (isBracket_of_or hop rfl rfl)
  | .call hfunction hparen harguments => hfunction.nests.seq (harguments.nests hparen)
  | .name ht => .token ht rfl
  | .integer ht _ => .token ht rfl
  | .boolean ht => .token rfl (isBracket_of_or ht rfl rfl)
  | .group hparen he hclose => he.nests.grouped hparen hclose
  | .conditional hword hparen hcondition hclose hconsequence halternative =>
    ((hcondition.nests.grouped hparen hclose).seq
      (hconsequence.nests.seq halternative.nests)).cons hword rfl
  | .function hword hparen hids hbody => ((hids.nests hparen).seq hbody.nests).cons hword rfl

/-- The brackets of arguments are nested, with the parenthesis that opens them. -/
theorem IsArguments.nests {paren : Token} {ts rest : List Token} {es : List Expr} {n : Nat} :
    IsArguments ts es n rest → paren.kind = .leftParen →
      Nests (Expr.blocksEach es) (paren :: ts) rest
  | .close hclose, hparen => Nests.nil.grouped hparen hclose
  | .cons he hes, hparen => by
    obtain ⟨close, hclose, hnests⟩ := hes.nests
    apply (he.nests.seq hnests).grouped hparen hclose

/-- The parenthesis that ends further arguments closes one that is open. -/
theorem IsMoreArguments.nests {ts rest : List Token} {es : List Expr} {n : Nat} :
    IsMoreArguments ts es n rest →
      ∃ paren : Token, paren.kind = .rightParen ∧ Nests (Expr.blocksEach es) ts (paren :: rest)
  | @IsMoreArguments.close paren _ hparen => ⟨paren, hparen, .nil⟩
  | .cons hcomma he hes => by
    obtain ⟨paren, hparen, hnests⟩ := hes.nests
    exact ⟨paren, hparen, (he.nests.seq hnests).cons hcomma rfl⟩

/-- The brackets of a statement are nested. -/
theorem IsStmt.nests {ts rest : List Token} {s : Stmt} {n : Nat} :
    IsStmt ts s n rest → Nests s.blocks ts rest
  | .binding hword hname hassign hvalue hsemicolon =>
    (((hvalue.nests.terminated hsemicolon rfl).cons hassign rfl).cons hname rfl).cons hword rfl
  | .returning hword hsemicolon => (Nests.token hsemicolon rfl).cons hword rfl
  | .returningValue hword hvalue hsemicolon =>
    (hvalue.nests.terminated hsemicolon rfl).cons hword rfl
  | .terminated hvalue hsemicolon => hvalue.nests.terminated hsemicolon rfl
  | .expression hvalue _ _ => hvalue.nests

/-- The brackets of statements are nested. -/
theorem IsStmts.nests {ts rest : List Token} {ss : List Stmt} {n : Nat} :
    IsStmts ts ss n rest → Nests (Stmt.blocksEach ss) ts rest
  | .nil => .nil
  | .cons hs hss => hs.nests.seq hss.nests

/-- The brackets of a block are nested. -/
theorem IsBlock.nests {ts rest : List Token} {b : Block} {n : Nat} :
    IsBlock ts b n rest → Nests b.blocks ts rest
  | .closed hbrace hss hclose => hss.nests.braced hss hbrace hclose
  | .unclosed hbrace hss => hss.nests.unbraced hbrace

/-- The brackets of a second block are nested, and a missing one has none. -/
theorem IsAlternative.nests {ts rest : List Token} {b : Option Block} {n : Nat} :
    IsAlternative ts b n rest → Nests (Block.blocksElse b) ts rest
  | .missing => .nil
  | .present hword hb => hb.nests.cons hword rfl

end

/-- The brackets of a program are nested, with some braces left open at the end.  If there are
none, every block has its closing brace. -/
theorem IsProgram.openBrackets_eq {ts : List Token} {p : Program} {n : Nat}
    (h : IsProgram ts p n) :
  ∃ k : Nat, openBrackets [] ts = some (List.replicate k .leftBrace) ∧ k = unclosed ts ∧
    (k = 0 → ∀ b ∈ p.blocks, ClosesIn ts b)
  := by
  obtain ⟨used, k, hused, -, hopened, hblocks⟩ := IsStmts.nests h
  rw [List.append_nil] at hused
  obtain rfl := hused
  have hbrackets := hopened []
  rw [List.append_nil] at hbrackets
  have hunclosed := unclosed_eq_of_openBrackets hbrackets
  refine ⟨k, hbrackets, ?_, hblocks⟩
  simpa using hunclosed.symm

end Grammar

end MonkeySyntax
