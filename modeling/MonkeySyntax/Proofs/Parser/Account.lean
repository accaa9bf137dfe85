import MonkeySyntax.Proofs.Parser.Simulation

/-!
# The account of a parse

A statement that gives a tree has reported nothing itself, and one that is given up has reported
once: all other reports on its way are those of statements within its blocks.  Since these are
in the account as well, there are as many diagnostics as statements given up.

Where there are no opening braces there are no blocks, and so the statements in the account are
those of the program.
-/

namespace MonkeySyntax

open Parse

namespace Parser

/-- Since the parser `p` there have been `n` reports more than statements given up. -/
def Unaccounted (p : Parser) (n : Nat) (q : Parser) : Prop :=
  q.reported.length + p.statistics.dropped = p.reported.length + q.statistics.dropped + n

/-- To start with there is no report to account for. -/
theorem Unaccounted.refl (p : Parser) :
  p.Unaccounted 0 p
  := rfl

/-- A report is to be accounted for. -/
theorem Unaccounted.report {p q : Parser} {n : Nat} (h : p.Unaccounted n q) (d : Diagnostic) :
  p.Unaccounted (n + 1) (q.report d)
  := by
  simp only [Unaccounted, Parser.report, List.length_cons] at h ⊢
  omega

/-- A statement that is given up accounts for a report. -/
theorem Unaccounted.countDropped {p q : Parser} {n : Nat} (h : p.Unaccounted (n + 1) q) :
  p.Unaccounted n q.countDropped
  := by
  simp only [Unaccounted, Parser.countDropped] at h ⊢
  omega

/-- There are no opening braces ahead, and a number of statements has been finished. -/
def Braceless (n : Nat) (p : Parser) : Prop :=
  (∀ t ∈ p.stream.tokens, t.kind ≠ .leftBrace) ∧ p.statistics.kept = n

/-- There are no opening braces after some of the tokens if there are none ahead. -/
theorem Braceless.advanceBy {n : Nat} {p : Parser} (h : p.Braceless n) (m : Nat) :
  (p.advanceBy m).Braceless n
  := ⟨fun t ht => h.1 t (List.mem_of_mem_drop ht), h.2⟩

/-- There are no opening braces after the first token if there are none ahead. -/
theorem Braceless.advance {n : Nat} {p : Parser} (h : p.Braceless n) :
  p.advance.Braceless n
  := ⟨fun t ht => h.1 t (List.mem_of_mem_tail ht), h.2⟩

/-- The current token is one of those ahead, or the end of the input, and so it is no opening brace.
-/
theorem Braceless.kind_current {n : Nat} {p : Parser} (h : p.Braceless n) :
  p.current.kind ≠ .leftBrace
  := by
  rintro hkind
  apply h.1 p.current (TokenStream.head_mem _) hkind
  rw [← current, hkind]
  decide

end Parser

namespace Simulation

/-- A run since a parser, with its reports in view. -/
def account (p : Parser) : Simulation where
  toRelabeling := .refl
  parser := id
  Fresh := p.Unaccounted 0
  Ready := p.Unaccounted 0
  Open := p.Unaccounted 0
  Failed := p.Unaccounted 1
  ready_of_fresh h := h
  fresh_of_ready h _ := h
  ready_of_open h := h
  open_of_ready h _ := h
  current_eq _ := rfl
  depth_eq _ := rfl
  kind_next _ := rfl
  advance h _ := ⟨rfl, h⟩
  report d h := ⟨rfl, h.report d⟩
  descend h := ⟨rfl, h⟩
  open_ascend h := ⟨rfl, h⟩
  failed_ascend h := ⟨rfl, h⟩
  failed_skip h := ⟨rfl, h⟩
  failed_next _ := rfl
  failed_advance h _ := ⟨rfl, h⟩

/-- The reports of a run are in view whatever the parser does. -/
theorem isTotal_account (p : Parser) :
  (account p).IsTotal
  where
  isOpen h := h
  advance h := ⟨rfl, h⟩
  countKept h := ⟨rfl, h⟩
  countDropped h := ⟨rfl, h.countDropped⟩

/-- A run before which `n` statements have been finished, with no opening braces ahead. -/
def braceless (n : Nat) : Simulation where
  toRelabeling := .refl
  parser := id
  Fresh := Parser.Braceless n
  Ready := Parser.Braceless n
  Open := Parser.Braceless n
  Failed := Parser.Braceless n
  ready_of_fresh h := h
  fresh_of_ready h _ := h
  ready_of_open h := h
  open_of_ready h _ := h
  current_eq _ := rfl
  depth_eq _ := rfl
  kind_next _ := rfl
  advance h _ := ⟨rfl, h.advance⟩
  report _ h := ⟨rfl, h⟩
  descend h := ⟨rfl, h⟩
  open_ascend h := ⟨rfl, h⟩
  failed_ascend h := ⟨rfl, h⟩
  failed_skip h := ⟨rfl, h.advanceBy _⟩
  failed_next _ := rfl
  failed_advance h _ := ⟨rfl, h.advance⟩

/-- Without an opening brace there is no block. -/
theorem carries_braceless (n : Nat) :
  (braceless n).Carries expression
  := by
  apply carries_expression
  rintro levels - p ⟨hp, hbrace⟩
  cases hp.kind_current hbrace

end Simulation

namespace Parser

/-- The reports of a statement: none but those of statements within if it gives a tree, and one
more if it is given up. -/
theorem unaccounted_statement (p : Parser) :
  (∃ s q, statement expression p = (some s, q.countKept) ∧ p.Unaccounted 0 q) ∨
    ∃ q, statement expression p = (none, q.countDropped) ∧ p.Unaccounted 1 q
  := by
  have hcarries := (Simulation.isTotal_account p).carries
  rcases Simulation.exists_statement hcarries (Unaccounted.refl p) with
    ⟨s, q, hs, -, hq⟩ | ⟨q, hs, -, hq⟩
  · exact .inl ⟨s, q, hs, hq⟩
  · exact .inr ⟨q, hs, hq⟩

/-- A parser that goes to the end reports once for every statement that it gives up. -/
theorem unaccounted_program (p : Parser) :
  p.Unaccounted 0 p.program.2
  := by
  have hcloses : closesProgram .endOfInput = true := rfl
  have htotal := Simulation.isTotal_account p
  apply (htotal.statements htotal.carries hcloses (Unaccounted.refl p)).2

/-- Where there are no blocks, the loop finishes as many statements as it reads. -/
theorem kept_statementsAfter (closes : Kind → Bool) (ahead : List Token) (read : List Stmt)
    {n : Nat} {p : Parser} (hp : p.Braceless n) :
  (statementsAfter expression closes ahead read p).2.statistics.kept + read.length =
    n + (statementsAfter expression closes ahead read p).1.length
  := by
  induction ahead generalizing read n p with
  | nil => simp [statementsAfter, hp.2]
  | cons t ahead ih =>
    rw [statementsAfter]
    split
    · simp [hp.2]
    · rcases Simulation.exists_statement (Simulation.carries_braceless n) hp with
        ⟨s, q, hs, -, hq⟩ | ⟨q, hs, -, hq⟩
      · have hkept : q.countKept.Braceless (n + 1) :=
          ⟨hq.1, congrArg Nat.succ hq.2⟩
        have hrest := ih (s :: read) hkept.advance
        rw [List.length_cons] at hrest
        rw [hs]
        dsimp only
        omega
      · have hdropped : q.countDropped.Braceless n := hq
        rw [hs]
        apply ih read hdropped.advance

/-- Without opening braces the statements that are finished are those of the program. -/
theorem kept_program {p : Parser} (hp : p.Braceless 0) :
  p.program.2.statistics.kept = p.program.1.statements.length
  := by
  have hloop := kept_statementsAfter closesProgram p.stream.tokens [] hp
  rw [List.length_nil, Nat.add_zero, Nat.zero_add] at hloop
  apply hloop

end Parser

/-- The account of the parse of a stream. -/
def parseAccount (s : TokenStream) : Statistics :=
  (Parser.ofStream s).program.2.statistics

/-- There is one diagnostic for each statement that is given up, at any depth.  A statement
reports for itself when it is given up, once, and not when it gives a tree.  Without opening
braces every statement is one of the program or has a diagnostic. -/
theorem length_diagnostics_parseStream (s : TokenStream) :
  (∀ p : Parser,
    (∃ stmt q, statement expression p = (some stmt, q.countKept) ∧ p.Unaccounted 0 q) ∨
      ∃ q, statement expression p = (none, q.countDropped) ∧ p.Unaccounted 1 q) ∧
  (parseStream s).diagnostics.length = (parseAccount s).dropped ∧
  ((parseStream s).diagnostics = [] ↔ (parseAccount s).dropped = 0) ∧
  ((∀ t ∈ s.tokens, t.kind ≠ .leftBrace) →
    (parseStream s).diagnostics.length + (parseStream s).program.statements.length =
      (parseAccount s).kept + (parseAccount s).dropped)
  := by
  have hlength : (parseStream s).diagnostics.length = (parseAccount s).dropped := by
    have hprogram := Parser.unaccounted_program (.ofStream s)
    have hreverse : (parseStream s).diagnostics.length =
        (Parser.ofStream s).program.2.reported.length := List.length_reverse
    simp only [Parser.Unaccounted, Parser.ofStream, List.length_nil] at hprogram
    rw [hreverse, parseAccount, Parser.ofStream]
    omega
  refine ⟨Parser.unaccounted_statement, hlength, ?_, ?_⟩
  · rw [← List.length_eq_zero_iff, hlength]
  · intro hbrace
    have hkept : (parseAccount s).kept = (parseStream s).program.statements.length :=
      Parser.kept_program (p := .ofStream s) ⟨hbrace, rfl⟩
    rw [hlength, hkept, Nat.add_comm]

/-- The tokens of `let 1; a ) b`. -/
def unbracedTokens : List Token :=
  [⟨.letWord, "let", 0⟩, ⟨.integer, "1", 4⟩, ⟨.semicolon, ";", 5⟩, ⟨.identifier, "a", 7⟩,
    ⟨.rightParen, ")", 9⟩, ⟨.identifier, "b", 11⟩]

/-- Of the four statements of `let 1; a ) b` two are given up. -/
theorem length_diagnostics_unbraced :
  (∀ t ∈ unbracedTokens, t.kind ≠ .leftBrace) ∧
  (parseStream (.ofList unbracedTokens)).diagnostics.length = 2 ∧
  (parseStream (.ofList unbracedTokens)).diagnostics.length +
    (parseStream (.ofList unbracedTokens)).program.statements.length = 4
  := by
  obtain ⟨-, hdropped, -, hsum⟩ := length_diagnostics_parseStream (.ofList unbracedTokens)
  exact ⟨by decide, hdropped.trans rfl, (hsum (by decide)).trans rfl⟩

end MonkeySyntax
