import MonkeySyntax.Proofs.Grammar.Acceptance
import MonkeySyntax.Proofs.Grammar.Shape
import MonkeySyntax.Proofs.Grammar.Unparse
import MonkeySyntax.Proofs.Parser.Formation
import MonkeySyntax.Proofs.Parser.Place
import MonkeySyntax.Proofs.Tree.Rendered

/-!
# Parsing canonical text

The canonical text of a source-shaped tree has the tokens that `unparse` lists, and the grammar
derives the tree from them at the nesting that `need` counts.  So the text tells the tree, up to
what is erased, and the parser reads it back as long as there are levels enough.

The parentheses of the text take levels of their own.  The tree of a source that is parsed
without a diagnostic is source-shaped, but it may need more levels than its source did, and then
the parser refuses the text.
-/

namespace MonkeySyntax

open Grammar

/-! ### Numbers after bangs

Every bang takes one level in a source, and two in a canonical text. -/

/-- A number after as many bangs. -/
def Expr.negated : Nat → Expr
  | 0 => .integer ⟨.integer, "1", 0⟩ 1
  | n + 1 => .unary (.ofKind .bang) "!" (Expr.negated n)

/-- A program with one statement, of a number after as many bangs. -/
def Program.negated (first : Token) (n : Nat) : Program :=
  ⟨[.expression first (.negated n)]⟩

/-- A number with any number of bangs before it has the shape of source text. -/
theorem Expr.isSourceShaped_negated (n : Nat) :
  (Expr.negated n).IsSourceShaped
  := by
  induction n with
  | zero => exact ⟨by decide, by decide, by decide, by decide⟩
  | succ n ih => exact ⟨.inl rfl, by decide, rfl, ih⟩

/-- The program of such an expression has the shape of source text. -/
theorem Program.isSourceShaped_negated {first : Token} (h : first.IsLexeme) (n : Nat) :
  (Program.negated first n).IsSourceShaped
  := ⟨⟨h, Expr.isSourceShaped_negated n⟩, trivial⟩

/-- The rendering of each bang takes two levels, one for the bang and one for the parentheses. -/
theorem Expr.need_negated (n : Nat) :
  (Expr.negated n).need = 2 * n + 1
  := by
  induction n with
  | zero => rfl
  | succ n ih =>
    rw [Expr.negated, Expr.need, ih]
    omega

/-- The program of a number with bangs before it needs two levels for each bang, and one for the
number. -/
theorem Program.need_negated_le_iff (first : Token) (n levels : Nat) :
  (∀ s ∈ (Program.negated first n).statements, s.need ≤ levels) ↔ 2 * n + 1 ≤ levels
  := by
  have hstmt : (Stmt.expression first (.negated n)).need = 2 * n + 1 := Expr.need_negated n
  simp [Program.negated, hstmt]

/-- The source of a number after as many bangs. -/
def negatedSource (n : Nat) : String :=
  .ofList (List.replicate n '!' ++ ['1'])

/-- The tokens of a number after as many bangs. -/
def negatedTokens (n : Nat) : List Token :=
  List.replicate n (.ofKind .bang) ++ [⟨.integer, "1", 0⟩]

/-- The tokens of bangs before a number are the bangs and the number. -/
theorem lexes_negatedSource (n : Nat) :
  Lexes (negatedSource n).toList (negatedTokens n ++ [.endAt 0])
  := by
  rw [negatedSource, String.toList_ofList]
  induction n with
  | zero =>
    have hspells : Kind.integer.Spells ['1'] := .number (by simp) (by simp [isDigit])
    have hone := Lexes.nil.spelling hspells (by simp)
    apply hone
  | succ n ih =>
    have hspells : Kind.bang.Spells "!".toList := .symbol (c := '!') rfl rfl rfl
    apply ih.ofKind rfl hspells
    cases n <;> simp [List.replicate_succ, Kind.isLengthenedBy]

/-- Bangs before a number are derived with a level for each of them. -/
theorem isExpr_negatedTokens (n : Nat) :
  IsExpr .unary (negatedTokens n) (.negated n) (n + 1) []
  := by
  induction n with
  | zero => exact .tighter (.tighter (.integer rfl rfl))
  | succ n ih => exact .unary (.inl rfl) ih

/-! ### The tokens of a text -/

/-- The proper tokens of a text, without their places. -/
theorem Lexes.proper_eq {source : String} {ts : List Token}
    (h : Lexes source.toList (ts ++ [.endAt 0])) :
  (TokenStream.ofSource source).unplaced.proper = ts
  := by
  have htokens : (TokenStream.ofSource source).tokens.map Token.unplaced = ts ++ [.endAt 0] := h 0
  obtain ⟨position, hproper⟩ := TokenStream.exists_tokens_ofSource source
  rw [hproper, List.map_append] at htokens
  rw [TokenStream.proper_unplaced]
  apply List.append_cancel_right htokens

/-- The parser reads from a text what the grammar derives from its tokens. -/
theorem Lexes.parse_eq_iff {source : String} {ts : List Token}
    (h : Lexes source.toList (ts ++ [.endAt 0])) (program : Program) :
  ((parse source).program.unplaced = program ∧ (parse source).diagnostics = []) ↔
    ∃ n ≤ maxNesting, IsProgram ts program n
  := by
  have hsettled := (TokenStream.isSettled_ofSource source).unplaced
  have hiff := parseStream_eq_iff_of_isSettled hsettled program
  rw [h.proper_eq, parseStream_unplaced, Parsed.mk.injEq] at hiff
  apply hiff

/-! ### Canonical texts -/

/-- The grammar derives one tree at most from the tokens of a source-shaped tree: the tree
itself, up to what is erased. -/
theorem Program.eq_of_isProgram_unparse {p program : Program} (hp : p.IsSourceShaped) {n : Nat}
    (h : IsProgram p.unparse program n) :
  program.erased = p.erased ∧ n = Stmt.needEach p.statements
  := by
  obtain ⟨program', herased, hprogram⟩ := exists_isProgram_unparse hp
  have hend : ∀ t ∈ p.unparse, t.kind ≠ .endOfInput := by
    rw [← (Program.lexes_render hp).proper_eq]
    intro t ht
    apply TokenStream.kind_of_mem_proper ht
  obtain ⟨rfl, hn⟩ := IsProgram.unique hend h hprogram
  exact ⟨herased, hn⟩

/-- Source-shaped trees with the same text are the same, up to the places of their tokens and
the tokens of their expression statements. -/
theorem Program.erased_eq_of_render_eq {p q : Program} (hp : p.IsSourceShaped)
    (hq : q.IsSourceShaped) (h : p.render = q.render) :
  p.erased = q.erased
  := by
  have hunparse : p.unparse = q.unparse := by
    rw [← (Program.lexes_render hp).proper_eq, h, (Program.lexes_render hq).proper_eq]
  obtain ⟨program, herased, hprogram⟩ := exists_isProgram_unparse hp
  rw [hunparse] at hprogram
  obtain ⟨hq', -⟩ := Program.eq_of_isProgram_unparse hq hprogram
  apply herased.symm.trans hq'

/-- `(!1)` and `!1` are the same, but for the token of the statement. -/
theorem Program.erased_negated :
  (Program.negated ⟨.leftParen, "(", 0⟩ 1).erased = (Program.negated ⟨.bang, "!", 0⟩ 1).erased
  := Program.erased_eq_of_render_eq (Program.isSourceShaped_negated (by decide) 1)
    (Program.isSourceShaped_negated (by decide) 1) rfl

/-! ### Reading the text -/

/-- A canonical text is read without a diagnostic when no statement needs more levels than there
are. -/
theorem Program.diagnostics_parse_render_iff {p : Program} (h : p.IsSourceShaped) :
  (parse p.render).diagnostics = [] ↔ ∀ s ∈ p.statements, s.need ≤ maxNesting
  := by
  rw [← Stmt.needEach_le_iff]
  constructor
  · intro hquiet
    obtain ⟨n, hn, hprogram⟩ := ((Program.lexes_render h).parse_eq_iff _).mp ⟨rfl, hquiet⟩
    obtain ⟨-, rfl⟩ := Program.eq_of_isProgram_unparse h hprogram
    apply hn
  · intro hneed
    obtain ⟨program, -, hprogram⟩ := exists_isProgram_unparse h
    obtain ⟨-, hquiet⟩ := ((Program.lexes_render h).parse_eq_iff program).mpr ⟨_, hneed, hprogram⟩
    apply hquiet

/-- What is read from a canonical text without a diagnostic is the tree of the text. -/
theorem Program.erased_parse_render {p : Program} (h : p.IsSourceShaped)
    (hquiet : (parse p.render).diagnostics = []) :
  (parse p.render).program.erased = p.erased
  := by
  obtain ⟨n, -, hprogram⟩ := ((Program.lexes_render h).parse_eq_iff _).mp ⟨rfl, hquiet⟩
  obtain ⟨herased, -⟩ := Program.eq_of_isProgram_unparse h hprogram
  rw [← herased, Program.erased_unplaced]

/-- Parsing undoes rendering, up to the places of tokens and the tokens of expression
statements, for those trees whose statements need no more levels than there are. -/
theorem Program.parse_render {p : Program} (h : p.IsSourceShaped) :
  ((parse p.render).diagnostics = [] ↔ ∀ s ∈ p.statements, s.need ≤ maxNesting) ∧
    ((parse p.render).diagnostics = [] → (parse p.render).program.erased = p.erased)
  := ⟨Program.diagnostics_parse_render_iff h, Program.erased_parse_render h⟩

/-- The text of a number after `49` bangs is read, and that after `50` bangs is not. -/
theorem Program.parse_render_negated :
  (parse (Program.negated (.ofKind .bang) 49).render).program.erased =
      (Program.negated (.ofKind .bang) 49).erased ∧
    (parse (Program.negated (.ofKind .bang) 50).render).diagnostics ≠ []
  := by
  have hshaped (n : Nat) : (Program.negated (.ofKind .bang) n).IsSourceShaped :=
    Program.isSourceShaped_negated (by decide) n
  constructor
  · obtain ⟨hiff, hread⟩ := Program.parse_render (hshaped 49)
    apply hread
    rw [hiff, Program.need_negated_le_iff]
    decide
  · obtain ⟨hiff, -⟩ := Program.parse_render (hshaped 50)
    rw [ne_eq, hiff, Program.need_negated_le_iff]
    decide

/-! ### The texts of sources -/

/-- The tree of a source that is parsed without a diagnostic is source-shaped. -/
theorem isSourceShaped_parse {source : String} (h : (parse source).diagnostics = []) :
  (parse source).program.IsSourceShaped
  := by
  have hparse : parseStream (.ofSource source) = ⟨(parse source).program, []⟩ := by
    rw [← h]
    rfl
  obtain ⟨n, -, hprogram⟩ :=
    (parseStream_eq_iff_of_isSettled (TokenStream.isSettled_ofSource source) _).mp hparse
  apply IsStmts.areSourceShaped hprogram
  intro t ht
  have hmem : t ∈ (Cursor.ofSource source).tokens := (List.takeWhile_prefix _).subset ht
  apply isLexeme_of_mem_tokens hmem

/-- Bangs before a number are accepted while there are levels enough. -/
theorem parse_negatedSource {n : Nat} (h : n + 2 ≤ maxNesting) :
  (parse (negatedSource (n + 1))).program.unplaced = .negated (.ofKind .bang) (n + 1) ∧
    (parse (negatedSource (n + 1))).diagnostics = []
  := by
  have hexpr : IsExpr .equality (negatedTokens (n + 1)) (.negated (n + 1)) (n + 2) [] :=
    .tighter (.tighter (.tighter (.tighter (isExpr_negatedTokens (n + 1)))))
  have hprogram : IsProgram (negatedTokens (n + 1)) (.negated (.ofKind .bang) (n + 1)) (n + 2) :=
    .cons (.expression hexpr (by decide) rfl) .nil
  apply ((lexes_negatedSource (n + 1)).parse_eq_iff _).mpr ⟨n + 2, h, hprogram⟩

/-- The canonical text of a source is accepted exactly when no statement of its tree needs more
levels than there are.  It is then parsed to as many statements, with the same text. -/
theorem parse_render_parse {source : String} (h : (parse source).diagnostics = []) :
  ((parse (parse source).program.render).diagnostics = [] ↔
      ∀ s ∈ (parse source).program.statements, s.need ≤ maxNesting) ∧
    ((∀ s ∈ (parse source).program.statements, s.need ≤ maxNesting) →
      (parse (parse source).program.render).program.statements.length =
          (parse source).program.statements.length ∧
        (parse (parse source).program.render).program.render = (parse source).program.render)
  := by
  have hshaped := isSourceShaped_parse h
  have hiff := Program.diagnostics_parse_render_iff hshaped
  constructor
  · apply hiff
  · intro hneed
    have herased := Program.erased_parse_render hshaped (hiff.mpr hneed)
    constructor
    · apply Program.length_statements_of_erased herased
    · rw [← Program.render_erased, herased, Program.render_erased]

/-- A number after `50` bangs is accepted, and its canonical text, with `50` parentheses, is
not. -/
theorem parse_render_parse_negated :
  (parse (negatedSource 50)).diagnostics = [] ∧
    (parse (parse (negatedSource 50)).program.render).diagnostics ≠ []
  := by
  obtain ⟨hprogram, hquiet⟩ := parse_negatedSource (n := 49) (by decide)
  have hneed : ¬ ∀ s ∈ (parse (negatedSource 50)).program.statements, s.need ≤ maxNesting := by
    rw [← Stmt.needEach_le_iff, ← Program.needEach_unplaced, hprogram, Stmt.needEach_le_iff,
      Program.need_negated_le_iff]
    decide
  exact ⟨hquiet, fun h => hneed ((parse_render_parse hquiet).1.mp h)⟩

/-! ### Any program that is parsed -/

/-- Whatever has been reported, the program of a stream is fully formed, with tokens of the
stream, and the program of a source is source-shaped.  The canonical text of the latter is read
back if there are levels enough. -/
theorem isFormed_parse :
  (∀ s : TokenStream, (parseStream s).program.IsFormed (· ∈ s.tokens)) ∧
    ∀ source : String, (parse source).program.IsSourceShaped ∧
      ((parse (parse source).program.render).diagnostics = [] ↔
        ∀ s ∈ (parse source).program.statements, s.need ≤ maxNesting) ∧
      ((parse (parse source).program.render).diagnostics = [] →
        (parse (parse source).program.render).program.erased = (parse source).program.erased)
  := by
  constructor
  · intro s
    apply Parser.isFormed_program
    intro t ht
    apply ht
  · intro source
    have hshaped := Parser.isSourceShaped_program source
    exact ⟨hshaped, Program.diagnostics_parse_render_iff hshaped,
      Program.erased_parse_render hshaped⟩

end MonkeySyntax
