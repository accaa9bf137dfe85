import MonkeySyntax.Proofs.Parser.Simulation

/-!
# Parsing one piece after another

What a parser has done before makes no difference to how it goes on: it gives the same
statements, and the same diagnostics after those it has (`Parser.statements_after`).  So when the
parse of a stream passes from a first piece on to the rest, as `TokenStream.Passes` says, the
rest is parsed as if it stood alone.

It passes from a piece that has no braces and one semicolon, at its end, whatever the piece is
like: wherever a statement is given up, the parser gets no further than the semicolon, and the
next statement starts after it at the latest.
-/

namespace MonkeySyntax

open Parse

namespace Parser

/-- A parser that has done before what another one has. -/
def after (earlier p : Parser) : Parser :=
  { p with
    pulled := earlier.pulled - 2 + p.pulled
    reported := p.reported ++ earlier.reported
    statistics := {
      kept := earlier.statistics.kept + p.statistics.kept
      dropped := earlier.statistics.dropped + p.statistics.dropped
      deepest := max earlier.statistics.deepest p.statistics.deepest } }

/-- A parser between statements is one at the start of its stream, but for what it has done. -/
theorem after_ofStream {p : Parser} (hpulled : 2 ≤ p.pulled) (hdepth : p.depth = 0) :
  p.after (ofStream p.stream) = p
  := by
  obtain ⟨stream, pulled, depth, reported, kept, dropped, deepest⟩ := p
  obtain rfl : depth = 0 := hdepth
  have hpulled' : pulled - 2 + 2 = pulled := Nat.sub_add_cancel hpulled
  simp [after, ofStream, hpulled']

/-- Skipping does not depend on what has been done before. -/
theorem after_skipToTerminator (earlier p : Parser) :
  earlier.after p.skipToTerminator = (earlier.after p).skipToTerminator
  := by
  simp only [after, skipToTerminator, advanceBy, Nat.add_assoc]

theorem after_descend (earlier p : Parser) :
  earlier.after p.descend = (earlier.after p).descend
  := by
  simp only [after, descend, Nat.max_assoc]

end Parser

namespace Simulation

/-- A run beside the same run after an earlier one. -/
def after (earlier : Parser) : Simulation where
  toRelabeling := .refl
  parser := earlier.after
  Fresh _ := True
  Ready _ := True
  Open _ := True
  Failed _ := True
  ready_of_fresh h := h
  fresh_of_ready h _ := h
  ready_of_open h := h
  open_of_ready h _ := h
  current_eq _ := rfl
  depth_eq _ := rfl
  kind_next _ := rfl
  advance h _ := ⟨rfl, h⟩
  report _ h := ⟨rfl, h⟩
  descend h := ⟨earlier.after_descend _, h⟩
  open_ascend h := ⟨rfl, h⟩
  failed_ascend h := ⟨rfl, h⟩
  failed_skip h := ⟨earlier.after_skipToTerminator _, h⟩
  failed_next _ := rfl
  failed_advance h _ := ⟨rfl, h⟩

/-- Whatever the parser does, it does after an earlier run as well. -/
theorem isTotal_after (earlier : Parser) :
  (after earlier).IsTotal
  where
  isOpen h := h
  advance h := ⟨rfl, h⟩
  countKept h := ⟨rfl, h⟩
  countDropped h := ⟨rfl, h⟩

/-- Statements of a run with the same tokens are the same. -/
theorem map_stmt_of_token {S : Simulation} (h : S.token = id) (ss : List Stmt) :
  ss.map S.stmt = ss
  := by
  have hstmt : S.stmt = id := by
    funext s
    rw [stmt, h]
    apply Stmt.mapTokens_id
  rw [hstmt, List.map_id]

end Simulation

/-- A parser between statements gives the statements that one at the start of its stream gives,
and reports the same after what it has reported. -/
theorem Parser.statements_after {p : Parser} (hpulled : 2 ≤ p.pulled) (hdepth : p.depth = 0) :
  statements expression closesProgram p =
    ((statements expression closesProgram (ofStream p.stream)).1,
      p.after (statements expression closesProgram (ofStream p.stream)).2)
  := by
  have hcloses : closesProgram .endOfInput = true := rfl
  have htotal := Simulation.isTotal_after p
  obtain ⟨hstatements, -⟩ :=
    htotal.statements htotal.carries hcloses (p := ofStream p.stream) trivial
  rw [Simulation.map_stmt_of_token rfl] at hstatements
  have hparser : (Simulation.after p).parser (ofStream p.stream) = p :=
    after_ofStream hpulled hdepth
  rw [hparser] at hstatements
  apply hstatements

/-! ### Passing on to the rest -/

/-- The parse of a stream gives some statements and diagnostics first, and passes on to the rest
of the stream. -/
def TokenStream.Passes (s : TokenStream) (first : Parsed) (rest : TokenStream) : Prop :=
  ∃ q, (Parser.ofStream s).Reaches q ∧ q.stream = rest ∧ q.diagnostics = first.diagnostics ∧
    statements expression closesProgram (.ofStream s) =
      (first.program.statements ++ (statements expression closesProgram q).1,
        (statements expression closesProgram q).2)

/-- The rest of a stream is parsed as if it stood alone. -/
theorem TokenStream.Passes.parseStream_eq {s rest : TokenStream} {first : Parsed}
    (h : s.Passes first rest) :
  parseStream s =
    ⟨⟨first.program.statements ++ (parseStream rest).program.statements⟩,
      first.diagnostics ++ (parseStream rest).diagnostics⟩
  := by
  obtain ⟨q, hreaches, rfl, hdiagnostics, hstatements⟩ := h
  obtain ⟨n, -, hpulled⟩ := hreaches.passed
  have hpulled' : q.pulled = 2 + n := hpulled
  have hafter := Parser.statements_after (p := q) (by omega) hreaches.depth_eq
  rw [hafter] at hstatements
  have hreverse (r : Parser) : (q.after r).diagnostics = q.diagnostics ++ r.diagnostics :=
    List.reverse_append
  simp only [parseStream, Parsed.ofParser, Parser.program, hstatements, hreverse, hdiagnostics]

/-! ### Pieces without braces -/

/-- Tokens with a semicolon at the end, and no other, no opening brace, and no end of the input
among them. -/
def IsPiece (ts : List Token) : Prop :=
  ∃ init semicolon, ts = init ++ [semicolon] ∧ semicolon.kind = .semicolon ∧
    ∀ t ∈ init, t.kind ≠ .semicolon ∧ t.kind ≠ .leftBrace ∧ t.kind ≠ .endOfInput

/-- A piece is a semicolon, or another token before a piece. -/
theorem IsPiece.cases {ts : List Token} (h : IsPiece ts) :
  (∃ semicolon, ts = [semicolon] ∧ semicolon.kind = .semicolon) ∨
    ∃ t ts', ts = t :: ts' ∧ t.kind ≠ .semicolon ∧ t.kind ≠ .leftBrace ∧ t.kind ≠ .endOfInput ∧
      IsPiece ts'
  := by
  obtain ⟨init, semicolon, rfl, hsemicolon, hinit⟩ := h
  cases init with
  | nil => exact .inl ⟨semicolon, rfl, hsemicolon⟩
  | cons t init =>
    obtain ⟨⟨ht, ht', ht''⟩, hinit'⟩ := List.forall_mem_cons.mp hinit
    exact .inr ⟨t, init ++ [semicolon], rfl, ht, ht', ht'', init, semicolon, rfl, hsemicolon,
      hinit'⟩

/-- A piece has a token. -/
theorem IsPiece.ne_nil {ts : List Token} (h : IsPiece ts) :
  ts ≠ []
  := by
  obtain ⟨init, semicolon, rfl, -⟩ := h
  simp

namespace Parser

/-- A parser with more tokens ahead. -/
def append (more : List Token) (p : Parser) : Parser :=
  { p with stream := { p.stream with tokens := p.stream.tokens ++ more } }

variable {p : Parser} (more : List Token)

/-- The current token is that of the first list, as long as one is left there. -/
theorem current_append (h : p.stream.tokens ≠ []) :
  (p.append more).current = p.current
  := by
  obtain ⟨t, ts, htokens⟩ := List.exists_cons_of_ne_nil h
  simp [current, TokenStream.head, append, htokens]

/-- A parser goes on in the first list, as long as a token is left there. -/
theorem advance_append (h : p.stream.tokens ≠ []) :
  (p.append more).advance = p.advance.append more
  := by
  obtain ⟨t, ts, htokens⟩ := List.exists_cons_of_ne_nil h
  simp [advance, TokenStream.tail, append, htokens]

/-- A parser whose tokens ahead are a piece. -/
def InPiece (p : Parser) : Prop :=
  IsPiece p.stream.tokens

/-- Within a piece the current token is neither an opening brace nor the end of the input. -/
theorem InPiece.kind_current (h : p.InPiece) :
  p.current.kind ≠ .leftBrace ∧ p.current.kind ≠ .endOfInput
  := by
  rcases IsPiece.cases h with
    ⟨semicolon, htokens, hsemicolon⟩ | ⟨t, ts, htokens, -, hbrace, hend, -⟩
  · simp [current, TokenStream.head, htokens, hsemicolon]
  · simp [current, TokenStream.head, htokens, hbrace, hend]

/-- The current token of a piece is its semicolon, and nothing else is ahead, or there is still a
piece after it. -/
theorem InPiece.cases (h : p.InPiece) :
  (p.current.kind = .semicolon ∧ p.advance.stream.tokens = []) ∨
    (p.current.kind ≠ .semicolon ∧ p.advance.InPiece)
  := by
  rcases IsPiece.cases h with ⟨semicolon, htokens, hsemicolon⟩ | ⟨t, ts, htokens, ht, -, -, hts⟩
  · simp [current, TokenStream.head, Parser.advance, TokenStream.tail, htokens, hsemicolon]
  · simp [current, TokenStream.head, InPiece, Parser.advance, TokenStream.tail, htokens, ht, hts]

/-- After a token other than the semicolon there is still a piece ahead. -/
theorem InPiece.advance (h : p.InPiece) (hkind : p.current.kind ≠ .semicolon) :
  p.advance.InPiece
  := by
  rcases h.cases with ⟨hsemicolon, -⟩ | ⟨-, hp⟩
  · cases hkind hsemicolon
  · apply hp

/-- Before the semicolon of a piece there is no other. -/
theorem InPiece.kind_current_of_next (h : p.InPiece) (hnext : p.next.kind = .semicolon) :
  p.current.kind ≠ .semicolon
  := by
  rcases h.cases with ⟨-, hnil⟩ | ⟨hkind, -⟩
  · rw [← current_advance, kind_current_of_tokens hnil] at hnext
    cases hnext
  · apply hkind

/-- Before the semicolon the next token is that of the piece, whatever follows. -/
theorem InPiece.next_append (h : p.InPiece) (hkind : p.current.kind ≠ .semicolon) :
  (p.append more).next = p.next
  := by
  rw [← current_advance, advance_append more h.ne_nil,
    current_append more (h.advance hkind).ne_nil, current_advance]

/-- After the last semicolon there is nothing, or the rest, which does not start with another. -/
theorem InPiece.nextIs_append (h : p.InPiece) (hmore : firstKind more ≠ .semicolon) :
  (p.append more).nextIs .semicolon = p.nextIs .semicolon
  := by
  rcases h.cases with ⟨-, hnil⟩ | ⟨hkind, -⟩
  · have hnext : p.next.kind = .endOfInput := kind_current_of_tokens hnil
    have hnext' : (p.append more).next.kind = firstKind more := by
      rw [← current_advance, advance_append more h.ne_nil, append, hnil]
      cases more with
      | nil => rfl
      | cons => rfl
    rw [nextIs, nextIs, hnext, hnext', beq_eq_false_iff_ne.mpr hmore]
    rfl
  · rw [nextIs, nextIs, h.next_append more hkind]

/-- What is skipped ends with the piece at the latest. -/
theorem InPiece.skipToTerminator (h : p.InPiece) :
  p.skipToTerminator.InPiece ∧
    p.skipToTerminator.append more = (p.append more).skipToTerminator
  := by
  obtain ⟨⟨tokens, stop⟩, pulled, depth, reported, statistics⟩ := p
  obtain ⟨init, semicolon, htokens, hsemicolon, hinit⟩ := h
  obtain rfl : tokens = init ++ [semicolon] := htokens
  have hskip (ts : List Token) :
      (init ++ semicolon :: ts).takeWhile (fun t => !isTerminator t.kind) = init := by
    rw [List.takeWhile_append_of_pos]
    · simp [hsemicolon, isTerminator]
    · intro t ht
      obtain ⟨hkind, -, hend⟩ := hinit t ht
      simp [isTerminator, hkind, hend]
  constructor
  · simp only [InPiece, Parser.skipToTerminator, advanceBy, TokenStream.drop, hskip,
      List.drop_left]
    exact ⟨[], semicolon, rfl, hsemicolon, by simp⟩
  · simp [Parser.skipToTerminator, advanceBy, TokenStream.drop, append, hskip]

end Parser

namespace Simulation

/-- A run in a piece beside a run in which more follows. -/
def piece (more : List Token) (hmore : firstKind more ≠ .semicolon) : Simulation where
  toRelabeling := .refl
  parser := Parser.append more
  Fresh := Parser.InPiece
  Ready := Parser.InPiece
  Open p := p.InPiece ∧ p.current.kind ≠ .semicolon
  Failed := Parser.InPiece
  ready_of_fresh h := h
  fresh_of_ready h _ := h
  ready_of_open h := h.1
  open_of_ready h hkind := ⟨h, hkind⟩
  current_eq h := Parser.current_append more h.ne_nil
  depth_eq _ := rfl
  kind_next h := congrArg Token.kind (h.1.next_append more h.2)
  advance h _ := ⟨(Parser.advance_append more h.1.ne_nil).symm, h.1.advance h.2⟩
  report _ h := ⟨rfl, h⟩
  descend h := ⟨rfl, h⟩
  open_ascend h := ⟨rfl, h⟩
  failed_ascend h := ⟨rfl, h⟩
  failed_skip h := ⟨(h.skipToTerminator more).2, (h.skipToTerminator more).1⟩
  failed_next h := h.nextIs_append more hmore
  failed_advance h hnext :=
    ⟨(Parser.advance_append more h.ne_nil).symm, h.advance (h.kind_current_of_next hnext)⟩

/-- Expressions are read alike in a piece and in the piece before other tokens. -/
theorem carries_piece (more : List Token) (hmore : firstKind more ≠ .semicolon) :
  (piece more hmore).Carries expression
  := by
  apply carries_expression
  rintro levels - p ⟨hp, hbrace⟩
  cases hp.kind_current.1 hbrace

end Simulation

namespace Parser

variable {p : Parser} {more : List Token}

/-- A statement that starts in a piece is the same when more follows, and ends in the piece. -/
theorem InPiece.statement (h : p.InPiece) (hmore : firstKind more ≠ .semicolon) :
  Parse.statement expression (p.append more) =
      ((Parse.statement expression p).1, (Parse.statement expression p).2.append more) ∧
    (Parse.statement expression p).2.InPiece
  := by
  have hcarries := Simulation.carries_piece more hmore
  rcases Simulation.exists_statement hcarries h with ⟨s, q, hs, hs', hq⟩ | ⟨q, hs, hs', hq⟩
  · have hstmt : (Simulation.piece more hmore).stmt s = s := Stmt.mapTokens_id s
    have hparser : Parse.statement expression (p.append more) = _ := hs'
    rw [hs, hparser, hstmt]
    exact ⟨rfl, hq⟩
  · have hparser : Parse.statement expression (p.append more) = _ := hs'
    rw [hs, hparser]
    exact ⟨rfl, hq⟩

/-- A parser in a piece comes to its end, and with more tokens ahead it goes on there. -/
theorem InPiece.statements (h : p.InPiece) (hmore : firstKind more ≠ .semicolon) :
  ∃ ss q, Parse.statements expression closesProgram p = (ss, q) ∧ q.stream.tokens = [] ∧
    (p.append more).Reaches (q.append more) ∧
    Parse.statements expression closesProgram (p.append more) =
      (ss ++ (Parse.statements expression closesProgram (q.append more)).1,
        (Parse.statements expression closesProgram (q.append more)).2)
  := by
  induction hn : p.stream.tokens.length using Nat.strongRecOn generalizing p with
  | ind n ih =>
    subst hn
    have hcloses : closesProgram .endOfInput = true := rfl
    have hopen : closesProgram p.current.kind = false := by
      simpa [closesProgram] using h.kind_current.2
    have hopen' : closesProgram (p.append more).current.kind = false := by
      rwa [current_append more h.ne_nil]
    obtain ⟨hstatement, hq⟩ := h.statement hmore
    have hle := (Orderly.reaches (x := Parse.statement expression) p).length_tokens_le
    have hreaches := Orderly.reaches (x := Parse.statement expression) (p.append more)
    rw [statements_of_not_closes hcloses hopen, statements_of_not_closes hcloses hopen',
      hstatement]
    rw [hstatement] at hreaches
    dsimp only at hreaches ⊢
    generalize (Parse.statement expression p).1.toList = ss at *
    generalize (Parse.statement expression p).2 = q at *
    have hadvance := hreaches.trans (.advance (q.append more))
    rw [advance_append more hq.ne_nil] at hadvance ⊢
    rcases hq.cases with ⟨-, hnil⟩ | ⟨-, hpiece⟩
    · have hend : closesProgram q.advance.current.kind = true := by
        rw [kind_current_of_tokens hnil, hcloses]
      refine ⟨ss, q.advance, ?_, hnil, hadvance, rfl⟩
      rw [statements_of_closes hend, List.append_nil]
    · have hpos := List.length_pos_of_ne_nil hq.ne_nil
      have hlt : q.advance.stream.tokens.length < p.stream.tokens.length := by
        rw [length_tokens_advance]
        omega
      obtain ⟨ss', r, hss', hr, hreaches', hmore'⟩ := ih _ hlt hpiece rfl
      refine ⟨ss ++ ss', r, ?_, hr, hadvance.trans hreaches', ?_⟩
      · rw [hss']
      · rw [hmore', List.append_assoc]

end Parser

/-- The parse passes from a piece to the rest, unless that starts with another semicolon. -/
theorem IsPiece.passes {ts more : List Token} (h : IsPiece ts)
    (hmore : firstKind more ≠ .semicolon) :
  (TokenStream.ofList (ts ++ more)).Passes (parseStream (.ofList ts)) (.ofList more)
  := by
  have hpiece : (Parser.ofStream (.ofList ts)).InPiece := h
  obtain ⟨ss, q, hss, hnil, hreaches, hstatements⟩ := hpiece.statements hmore
  obtain ⟨n, hstream, -⟩ := hreaches.passed
  have hstop : (q.append more).stream.stop = 0 := by rw [hstream]; rfl
  have hrest : (q.append more).stream = .ofList more := by
    rw [TokenStream.ofList, ← hstop, Parser.append, hnil, List.nil_append]
  have hparse : parseStream (.ofList ts) = ⟨⟨ss⟩, q.diagnostics⟩ := by
    simp only [parseStream, Parsed.ofParser, Parser.program, hss]
  rw [hparse]
  exact ⟨q.append more, hreaches, hrest, rfl, hstatements⟩

end MonkeySyntax
