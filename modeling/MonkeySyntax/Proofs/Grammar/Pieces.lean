import MonkeySyntax.Proofs.Grammar.Acceptance
import MonkeySyntax.Proofs.Grammar.Braces
import MonkeySyntax.Proofs.Parser.Containment

/-!
# Parsing pieces

The parse of a list of tokens passes from a first piece on to the rest if the piece ends with a
semicolon and either has no other semicolon and no brace, or is accepted and closes as many braces
as it opens.  So errors are contained in such pieces.

A piece that is accepted is derived by the grammar, and when its braces are closed it is derived
before any rest.  The parser reads it there as well, since it ends with a semicolon.
-/

namespace MonkeySyntax

open Parse

namespace Parser

/-- The parser reads some statements without a report, and goes on at the rest. -/
def ReadsOn (p : Parser) (ss : List Stmt) (rest : List Token) : Prop :=
  ∃ q, p.Reaches q ∧ q.At rest ∧ q.reported = p.reported ∧
    statements expression closesProgram p =
      (ss ++ (statements expression closesProgram q).1,
        (statements expression closesProgram q).2)

variable {p q : Parser} {rest : List Token}

/-- A parser at some tokens has read none of them. -/
theorem At.readsOn (h : p.At rest) :
  p.ReadsOn [] rest
  := ⟨p, .refl p, h, rfl, rfl⟩

/-- A statement that is read with all the levels there are comes first. -/
theorem ReadsOn.cons {s : Stmt} {ss : List Stmt} (h : q.advance.ReadsOn ss rest)
    (hs : (statement (expressionWithin maxNesting)).Yields p s q)
    (hstarts : p.current.kind.startsStmt = true) (hdepth : p.depth = 0) :
  p.ReadsOn (s :: ss) rest
  := by
  obtain ⟨r, hreaches, hat, hreported, hstatements⟩ := h
  have hadvance : p.Reaches q.advance := hs.reaches.trans (.advance q)
  refine ⟨r, hadvance.trans hreaches, hat, hreported.trans hs.2, ?_⟩
  have hstatement : statement expression p = (some s, q) := by
    rw [agreesAt_statement Grammar.agreesAt_expression p hdepth, hs.1]
  rw [statements_of_not_closes rfl (Grammar.closesProgram_of_startsStmt _ hstarts), hstatement]
  dsimp only
  rw [hstatements]
  rfl

end Parser

namespace Grammar

/-- A statement has some token. -/
theorem not_isStmt_self {rest : List Token} {s : Stmt} {n : Nat} :
  ¬ IsStmt rest s n rest
  := by
  intro h
  obtain ⟨used, hused, -, hclosed⟩ := h.detaches
  obtain rfl := List.append_cancel_right (hused.symm.trans (List.nil_append rest).symm)
  cases (hclosed rfl [] (.inl rfl)).firstKind_startsStmt

/-- A statement that ends with a semicolon, and closes its braces, is read whatever comes next.  It
is no expression by itself, since this does not end with one. -/
theorem IsStmt.readsTerminated {ts used rest : List Token} {s : Stmt} {n : Nat}
    (h : IsStmt ts s n rest) (hts : ts = used ++ rest) (hzero : unclosed used = 0)
    (hlast : lastKind used = .semicolon) :
  ReadsTerminated ts s n rest
  := by
  cases h with
  | binding hword hname hassign hvalue hsemicolon =>
    apply readsTerminated_binding hword hname hassign hvalue.nesting_pos hvalue.reads hsemicolon
  | returning hword hsemicolon => apply readsTerminated_returning hword hsemicolon
  | returningValue hword hvalue hsemicolon =>
    apply readsTerminated_returningValue hword hvalue.nesting_pos (hvalue.firstKind_ne rfl)
      hvalue.reads hsemicolon
  | terminated hvalue hsemicolon =>
    apply readsTerminated_expression hvalue.firstKind_startsExpr hvalue.nesting_pos hvalue.reads
      hsemicolon
  | expression hvalue =>
    obtain ⟨used', hused', -, hclosed⟩ := hvalue.detaches
    obtain rfl := List.append_cancel_right (hused'.symm.trans hts)
    cases (hclosed hzero).1 hlast

/-- The first of several statements is read before the others, or before any rest when there are
no others and it ends with a semicolon. -/
theorem IsStmt.exists_yields {ts ts' used rest : List Token} {s : Stmt} {ss : List Stmt}
    {m n : Nat} (hs : IsStmt ts s m ts') (hss : IsStmts ts' ss n rest) (hts : ts = used ++ ts')
    (hzero : unclosed used = 0) (hlast : ts' = rest → lastKind used = .semicolon)
    {p : Parser} (hp : p.At ts) {levels : Nat} (hm : m ≤ levels) :
  ∃ q, (statement (expressionWithin levels)).Yields p s q ∧ p.Arrives m ts' q.advance
  := by
  cases hss with
  | nil => apply hs.readsTerminated hts hzero (hlast rfl) levels p hp hm
  | cons hs' =>
    apply hs.reads levels p hp hm
    intro helse
    have hstarts := hs'.firstKind_startsStmt
    rw [helse] at hstarts
    cases hstarts

/-- The parser reads statements that end with a semicolon, and close their braces, before any rest.
The semicolon at the end is that of the first statement if there are no others. -/
theorem IsStmts.readsOn {ss : List Stmt} : ∀ {ts used rest : List Token} {n : Nat},
    IsStmts ts ss n rest → ts = used ++ rest → unclosed used = 0 →
    used = [] ∨ lastKind used = .semicolon → n ≤ maxNesting → ∀ {p : Parser}, p.At ts →
    p.depth = 0 → p.ReadsOn ss rest
  | _, _, _, _, .nil, _, _, _, _, _, hp, _ => hp.readsOn
  | _, used, rest, _, @IsStmts.cons _ ts' _ _ _ _ _ hs hss, hts, hzero, hend, hn, p, hp,
    hdepth => by
    obtain ⟨used₁, hused₁, hopened₁, -⟩ := hs.detaches
    obtain ⟨used₂, hused₂, hopened₂, -⟩ := hss.detaches
    have hsplit : used₁ ++ used₂ ++ rest = used ++ rest := by
      rw [← hts, hused₁, hused₂, List.append_assoc]
    have hused := List.append_cancel_right hsplit
    rw [← hused, unclosed_append] at hzero
    have hlast : lastKind (used₁ ++ used₂) = .semicolon := by
      rw [hused]
      rcases hend with rfl | hlast
      · obtain ⟨rfl, rfl⟩ := List.append_eq_nil_iff.mp hused
        rw [hused₁, List.nil_append] at hs
        cases not_isStmt_self hs
      · apply hlast
    have hlast₁ : ts' = rest → lastKind used₁ = .semicolon := by
      rintro rfl
      obtain rfl := List.self_eq_append_left.mp hused₂
      rwa [List.append_nil] at hlast
    have hend₂ : used₂ = [] ∨ lastKind used₂ = .semicolon := by
      cases used₂ with
      | nil => exact .inl rfl
      | cons t used₂ => exact .inr (by rwa [lastKind_append_cons] at hlast)
    obtain ⟨hm, hn'⟩ := Nat.max_le.mp hn
    obtain ⟨q, hq, hpq⟩ := hs.exists_yields hss hused₁ (by omega) hlast₁ hp hm
    have hrest := hss.readsOn hused₂ (by omega) hend₂ hn' hpq.at
      (hpq.depth_eq.trans hdepth)
    apply hrest.cons hq _ hdepth
    rw [hp.kind_current]
    apply hs.firstKind_startsStmt

/-- The parse passes from an accepted piece to any rest, if the piece ends with a semicolon and
closes the braces that it opens.  What the grammar derives from the piece alone it derives before
the rest. -/
theorem passes_of_diagnostics {ts more : List Token} (hts : ∀ t ∈ ts, t.kind ≠ .endOfInput)
    (hmore : ∀ t ∈ more, t.kind ≠ .endOfInput)
    (hquiet : (parseStream (.ofList ts)).diagnostics = []) (hzero : unclosed ts = 0)
    (hlast : lastKind ts = .semicolon) :
  (TokenStream.ofList (ts ++ more)).Passes (parseStream (.ofList ts)) (.ofList more)
  := by
  have hparse : parseStream (.ofList ts) = ⟨(parseStream (.ofList ts)).program, []⟩ := by
    rw [← hquiet]
  obtain ⟨n, hn, hprogram⟩ :=
    (parseStream_eq_iff_of_isSettled (TokenStream.isSettled_ofList hts) _).mp hparse
  rw [TokenStream.proper_ofList hts] at hprogram
  obtain ⟨used, hused, -, hclosed⟩ := IsStmts.detaches hprogram
  obtain rfl : ts = used := by rwa [List.append_nil] at hused
  have hstmts := hclosed hzero more (.inr (.inl hlast))
  have hall : ∀ t ∈ ts ++ more, t.kind ≠ .endOfInput := by
    intro t ht
    rcases List.mem_append.mp ht with ht | ht
    · apply hts t ht
    · apply hmore t ht
  have hat : (Parser.ofStream (.ofList (ts ++ more))).At (ts ++ more) :=
    ⟨TokenStream.isSettled_ofList hall, TokenStream.proper_ofList hall, le_rfl⟩
  obtain ⟨q, hreaches, hq, hreported, hstatements⟩ :=
    IsStmts.readsOn hstmts rfl hzero (.inr hlast) hn hat rfl
  refine ⟨q, hreaches, ?_, ?_, hstatements⟩
  · obtain ⟨m, hstream, -⟩ := hreaches.passed
    have hproper : q.stream.proper = q.stream.tokens := by
      rw [hstream]
      apply TokenStream.proper_ofList
      intro t ht
      apply hall t (List.mem_of_mem_drop ht)
    have hunread : q.stream.proper = more := hq.unread
    rw [TokenStream.ofList, ← hunread, hproper, hstream]
    rfl
  · rw [hquiet, Parser.diagnostics, hreported]
    rfl

end Grammar

/-- Tokens with no brace, and with one semicolon, at their end, are a piece. -/
theorem isPiece_of_countP {ts : List Token} (hts : ∀ t ∈ ts, t.kind ≠ .endOfInput)
    (hbrace : ∀ t ∈ ts, t.kind ≠ .leftBrace)
    (hcount : ts.countP (fun t => t.kind == .semicolon) = 1)
    (hlast : lastKind ts = .semicolon) :
  IsPiece ts
  := by
  rcases List.eq_nil_or_concat ts with rfl | ⟨init, semicolon, rfl⟩
  · cases hlast
  · rw [List.concat_eq_append] at *
    have hsemicolon : semicolon.kind = .semicolon := by rwa [lastKind_append_cons] at hlast
    have hself : (semicolon.kind == .semicolon) = true := beq_iff_eq.mpr hsemicolon
    rw [List.countP_append, List.countP_singleton, if_pos hself, Nat.add_eq_right,
      List.countP_eq_zero] at hcount
    refine ⟨init, semicolon, rfl, hsemicolon, ?_⟩
    intro t ht
    have hmem : t ∈ init ++ [semicolon] := List.mem_append_left _ ht
    exact ⟨by simpa using hcount t ht, hbrace t hmem, hts t hmem⟩

/-- Errors are contained in pieces.  Tokens up to a semicolon with no brace and no other semicolon
before it are parsed by themselves, whatever they are, unless another semicolon follows; and so
are tokens up to a semicolon that are accepted and have as many closing braces as opening ones,
whatever follows. -/
theorem parseStream_append {ts more : List Token} (hts : ∀ t ∈ ts, t.kind ≠ .endOfInput)
    (hmore : ∀ t ∈ more, t.kind ≠ .endOfInput) (hlast : lastKind ts = .semicolon)
    (h : (∀ t ∈ ts, t.kind ≠ .leftBrace) ∧ ts.countP (fun t => t.kind == .semicolon) = 1 ∧
        firstKind more ≠ .semicolon ∨
      (parseStream (.ofList ts)).diagnostics = [] ∧
        ts.countP (fun t => t.kind == .leftBrace) = ts.countP (fun t => t.kind == .rightBrace)) :
  parseStream (.ofList (ts ++ more)) =
    ⟨⟨(parseStream (.ofList ts)).program.statements ++
        (parseStream (.ofList more)).program.statements⟩,
      (parseStream (.ofList ts)).diagnostics ++ (parseStream (.ofList more)).diagnostics⟩
  := by
  apply TokenStream.Passes.parseStream_eq
  rcases h with ⟨hbrace, hcount, hfirst⟩ | ⟨hquiet, hcount⟩
  · apply (isPiece_of_countP hts hbrace hcount hlast).passes hfirst
  · apply Grammar.passes_of_diagnostics hts hmore hquiet _ hlast
    rw [unclosed_eq_countP, hcount, Int.sub_self]

/-- The tokens of `let 1;`. -/
def malformedTokens : List Token :=
  [⟨.letWord, "let", 0⟩, ⟨.integer, "1", 4⟩, ⟨.semicolon, ";", 5⟩]

/-- The tokens of `function() { a };`. -/
def functionTokens : List Token :=
  [⟨.functionWord, "function", 0⟩, ⟨.leftParen, "(", 8⟩, ⟨.rightParen, ")", 9⟩,
    ⟨.leftBrace, "\x7b", 11⟩, ⟨.identifier, "a", 12⟩, ⟨.rightBrace, "\x7d", 13⟩,
    ⟨.semicolon, ";", 14⟩]

/-- `let 1;` is given up and does not spoil the function after it, nor does `else` after that
function spoil the function, which is accepted by itself. -/
theorem parseStream_append_function :
  (parseStream (.ofList malformedTokens)).diagnostics = [.unexpected .identifier .integer] ∧
    parseStream (.ofList (malformedTokens ++ functionTokens)) =
      ⟨(parseStream (.ofList functionTokens)).program, [.unexpected .identifier .integer]⟩ ∧
    (parseStream (.ofList functionTokens)).diagnostics = [] ∧
    parseStream (.ofList (functionTokens ++ [⟨.elseWord, "else", 16⟩])) =
      ⟨(parseStream (.ofList functionTokens)).program, [.noOperand .elseWord]⟩
  := by
  refine ⟨rfl, ?_, rfl, ?_⟩
  · have hmalformed : parseStream (.ofList (malformedTokens ++ functionTokens)) = _ :=
      parseStream_append (by decide) (by decide) rfl (.inl ⟨by decide, rfl, by decide⟩)
    exact hmalformed.trans rfl
  · have hfunction :
        parseStream (.ofList (functionTokens ++ [⟨.elseWord, "else", 16⟩])) = _ :=
      parseStream_append (by decide) (by decide) rfl (.inr ⟨rfl, rfl⟩)
    exact hfunction.trans rfl

end MonkeySyntax
