import MonkeySyntax.Proofs.Grammar.Completeness
import MonkeySyntax.Proofs.Grammar.Soundness

/-!
# The programs that are accepted

The parser of programs gives a tree without a diagnostic for those lists of tokens that the
grammar derives with no more nesting than there are levels, and the tree is the one that is
derived.  Since a run of the parser shows both the tree and the nesting, the grammar derives
at most one of each.

The expressions of a statement get as many levels as the depth of the parser leaves.  A
program is parsed at depth `0`, so all of its statements get the same number of levels.
-/

namespace MonkeySyntax

namespace Parse

variable {α β : Type}

/-! ### Actions at a depth -/

/-- Two actions do the same at a depth. -/
def AgreesAt (depth : Nat) (x y : Parse α) : Prop :=
  ∀ p : Parser, p.depth = depth → x p = y p

/-- An action does the same as itself. -/
theorem AgreesAt.refl (depth : Nat) (x : Parse α) :
  AgreesAt depth x x
  := by
  intro p _
  rfl

/-- If two actions agree at a depth, and so do their continuations on every value, they agree when
followed by them, since the first keeps the depth. -/
theorem AgreesAt.bind {depth : Nat} {x y : Parse α} {f g : α → Parse β} [hx : x.Orderly]
    (hxy : AgreesAt depth x y) (hfg : ∀ a, AgreesAt depth (f a) (g a)) :
  AgreesAt depth (x >>= f) (y >>= g)
  := by
  intro p hp
  have hdepth := (hx.reaches p).depth_eq
  rw [bind_apply, bind_apply, ← hxy p hp]
  rcases hrun : x p with ⟨_ | a, q⟩
  · rfl
  · rw [hrun] at hdepth
    apply hfg a q (hdepth.trans hp)

/-- Statements that are given up agree if they agree up to there. -/
theorem AgreesAt.recovering {depth : Nat} {x y : Parse α} (hxy : AgreesAt depth x y) :
  AgreesAt depth (Parse.recovering x) (Parse.recovering y)
  := by
  intro p hp
  rw [Parse.recovering, Parse.recovering, hxy p hp]

theorem AgreesAt.accounted {depth : Nat} {x y : Parse α} (hxy : AgreesAt depth x y) :
  AgreesAt depth (Parse.accounted x) (Parse.accounted y)
  := by
  intro p hp
  rw [Parse.accounted, Parse.accounted, hxy p hp]

section

variable {depth : Nat} {inner inner' : Inner} [∀ strength, (inner strength).Orderly]

/-- A `let` statement depends on the parser of expressions only at its own depth. -/
theorem agreesAt_letStatement (h : AgreesAt depth (inner .lowest) (inner' .lowest)) :
  AgreesAt depth (letStatement inner) (letStatement inner')
  := by
  apply AgreesAt.recovering
  apply AgreesAt.bind (.refl depth _)
  intro word
  apply AgreesAt.bind (.refl depth _)
  intro _
  apply AgreesAt.bind (.refl depth _)
  intro name
  apply AgreesAt.bind (.refl depth _)
  intro _
  apply AgreesAt.bind (.refl depth _)
  intro _
  apply AgreesAt.bind h
  intro value
  apply AgreesAt.refl

/-- A `return` statement depends on the parser of expressions only at its own depth. -/
theorem agreesAt_returnStatement (h : AgreesAt depth (inner .lowest) (inner' .lowest)) :
  AgreesAt depth (returnStatement inner) (returnStatement inner')
  := by
  apply AgreesAt.recovering
  apply AgreesAt.bind (.refl depth _)
  intro word
  apply AgreesAt.bind (.refl depth _)
  rintro (_ | _)
  · apply AgreesAt.bind (.refl depth _)
    intro _
    apply AgreesAt.bind h
    intro value
    apply AgreesAt.refl
  · apply AgreesAt.refl

omit [∀ strength, (inner strength).Orderly] in
/-- A statement that is an expression depends on the parser of expressions only at its own depth. -/
theorem agreesAt_expressionStatement (h : AgreesAt depth (inner .lowest) (inner' .lowest)) :
  AgreesAt depth (expressionStatement inner) (expressionStatement inner')
  := by
  intro p hp
  rw [expressionStatement, expressionStatement, h p hp]

/-- A statement depends on the parser of expressions only at its own depth. -/
theorem agreesAt_statement (h : AgreesAt depth (inner .lowest) (inner' .lowest)) :
  AgreesAt depth (statement inner) (statement inner')
  := by
  apply AgreesAt.accounted
  intro p hp
  dsimp only
  split
  · apply agreesAt_letStatement h p hp
  · apply agreesAt_returnStatement h p hp
  · apply agreesAt_expressionStatement h p hp

/-- The loop of statements stays at its depth. -/
theorem statementsAfter_congr (h : AgreesAt depth (inner .lowest) (inner' .lowest))
    (closes : Kind → Bool) (ahead : List Token) (read : List Stmt) {p : Parser}
    (hp : p.depth = depth) :
  statementsAfter inner closes ahead read p = statementsAfter inner' closes ahead read p
  := by
  induction ahead generalizing read p with
  | nil => rfl
  | cons t ahead ih =>
    have hdepth := (Orderly.reaches (x := statement inner) p).depth_eq
    rw [statementsAfter, statementsAfter, ← agreesAt_statement h p hp]
    rcases hrun : statement inner p with ⟨_ | s, q⟩
    · rw [hrun] at hdepth
      dsimp only
      rw [ih read (p := q.advance) (hdepth.trans hp)]
    · rw [hrun] at hdepth
      dsimp only
      rw [ih (s :: read) (p := q.advance) (hdepth.trans hp)]

end

end Parse

namespace Grammar

open Parse

/-! ### Programs -/

/-- A token that starts a statement does not end the program. -/
theorem closesProgram_of_startsStmt (kind : Kind) (h : kind.startsStmt = true) :
  closesProgram kind = false
  := by
  cases kind <;> first | rfl | cases h

/-- With enough levels the parser reads the program that is derived, and gets as deep as it is
nested. -/
theorem IsProgram.exists_statements {ts : List Token} {program : Program} {n levels : Nat}
    (h : IsProgram ts program n) (hn : n ≤ levels) {p : Parser} (hp : p.At ts) :
  ∃ q, statements (expressionWithin levels) closesProgram p = (program.statements, q) ∧
    q.reported = p.reported ∧ p.Arrives n [] q
  := by
  have hreads := h.reads
  apply hreads levels closesProgram p.stream.tokens [] p hp hn closesProgram_of_startsStmt rfl
    (by decide) le_rfl

/-- What the parser reads as a program without a report is derived. -/
theorem exists_isProgram {levels : Nat} {p q : Parser} {ss : List Stmt}
    (hp : p.stream.IsSettled)
    (h : statements (expressionWithin levels) closesProgram p = (ss, q))
    (hq : q.reported = p.reported) :
  ∃ n ≤ levels, IsProgram p.unread ⟨ss⟩ n
  := by
  obtain ⟨ss', rfl, hclose, n, hn, hss⟩ :=
    exists_isStmts (isSound_expressionWithin levels) rfl hp le_rfl h hq
  have hend : q.current.kind = .endOfInput := by simpa [closesProgram] using hclose
  rw [Parser.unread_nil_of_kind_current hend] at hss
  exact ⟨n, hn, hss⟩

/-- An expression that is within no other has all the levels there are. -/
theorem agreesAt_expression :
  AgreesAt 0 (expression .lowest) (expressionWithin maxNesting .lowest)
  := by
  intro p hp
  rw [expression, hp, Nat.sub_zero]

/-- Parsing a stream is reading statements with all the levels there are. -/
theorem parseStream_eq (s : TokenStream) :
  parseStream s =
    ⟨⟨(statements (expressionWithin maxNesting) closesProgram (.ofStream s)).1⟩,
      (statements (expressionWithin maxNesting) closesProgram (.ofStream s)).2.diagnostics⟩
  := by
  have hloop :=
    statementsAfter_congr agreesAt_expression closesProgram s.tokens [] (p := .ofStream s) rfl
  rw [parseStream, Parsed.ofParser, Parser.program, statements, statements]
  dsimp only [Parser.ofStream] at hloop ⊢
  rw [hloop]

/-- The streams that are parsed without a diagnostic are those that the grammar derives with no
more nesting than there are levels. -/
theorem parseStream_eq_iff_of_isSettled {s : TokenStream} (hs : s.IsSettled)
    (program : Program) :
  parseStream s = ⟨program, []⟩ ↔ ∃ n ≤ maxNesting, IsProgram s.proper program n
  := by
  have hat : (Parser.ofStream s).At s.proper := ⟨hs, rfl, le_rfl⟩
  rw [parseStream_eq]
  constructor
  · intro h
    rcases hrun : statements (expressionWithin maxNesting) closesProgram (.ofStream s) with ⟨ss, q⟩
    rw [hrun] at h
    simp only [Parsed.mk.injEq, Parser.diagnostics, List.reverse_eq_nil_iff] at h
    obtain ⟨rfl, hreported⟩ := h
    apply exists_isProgram (p := .ofStream s) hs hrun hreported
  · rintro ⟨n, hn, h⟩
    obtain ⟨q, hrun, hreported, -⟩ := h.exists_statements hn hat
    rw [hrun]
    simp only [Parsed.mk.injEq, Parser.diagnostics, List.reverse_eq_nil_iff, true_and]
    apply hreported

/-- A list of tokens is that of one program at most, and with one nesting. -/
theorem IsProgram.unique {ts : List Token} {program program' : Program} {m n : Nat}
    (hts : ∀ t ∈ ts, t.kind ≠ .endOfInput) (h : IsProgram ts program m)
    (h' : IsProgram ts program' n) :
  program = program' ∧ m = n
  := by
  have hat : (Parser.ofStream (.ofList ts)).At ts :=
    ⟨TokenStream.isSettled_ofList hts, TokenStream.proper_ofList hts, le_rfl⟩
  obtain ⟨q, hrun, -, hq⟩ := h.exists_statements (Nat.le_max_left m n) hat
  obtain ⟨r, hrun', -, hr⟩ := h'.exists_statements (Nat.le_max_right m n) hat
  have heq := hrun.symm.trans hrun'
  simp only [Prod.mk.injEq] at heq
  obtain ⟨hss, rfl⟩ := heq
  have hdeepest := hq.deepest_eq.symm.trans hr.deepest_eq
  simp only [Parser.ofStream, Nat.zero_max, Nat.zero_add] at hdeepest
  constructor
  · cases program
    cases program'
    congr
  · apply hdeepest

/-- A list of proper tokens is parsed without a diagnostic to a program exactly when the grammar
derives it with no more nesting than there are levels. -/
theorem parseStream_ofList_eq_iff {ts : List Token} (hts : ∀ t ∈ ts, t.kind ≠ .endOfInput)
    (program : Program) :
  parseStream (.ofList ts) = ⟨program, []⟩ ↔ ∃ n ≤ maxNesting, IsProgram ts program n
  := by
  have h := parseStream_eq_iff_of_isSettled (TokenStream.isSettled_ofList hts) program
  rwa [TokenStream.proper_ofList hts] at h

/-- `a + b` is parsed, and so the grammar derives it. -/
theorem isProgram_sum :
  (∀ t ∈ [(⟨.identifier, "a", 0⟩ : Token), ⟨.plus, "+", 2⟩, ⟨.identifier, "b", 4⟩],
    t.kind ≠ .endOfInput) ∧
  ∃ n ≤ maxNesting,
    IsProgram [⟨.identifier, "a", 0⟩, ⟨.plus, "+", 2⟩, ⟨.identifier, "b", 4⟩]
      ⟨[.expression ⟨.identifier, "a", 0⟩
        (.binary ⟨.plus, "+", 2⟩ (.name ⟨⟨.identifier, "a", 0⟩, "a"⟩) "+"
          (.name ⟨⟨.identifier, "b", 4⟩, "b"⟩))]⟩ n
  := ⟨by decide, (parseStream_ofList_eq_iff (by decide) _).mp rfl⟩

end Grammar

end MonkeySyntax
