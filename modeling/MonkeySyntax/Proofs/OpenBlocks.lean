import MonkeySyntax.Proofs.Grammar.Acceptance
import MonkeySyntax.Proofs.Grammar.LastBrace
import MonkeySyntax.Proofs.Source.Braces

/-!
# Blocks left open

The end of a source closes every block that is open there.  So a source may be accepted although
closing braces are missing, but nothing else about its brackets may be amiss: they are nested, and
only braces are left open.

It makes no difference to a source with an open brace whether a closing brace is added at its end,
to whether it is accepted or to its tree.  Both sources have the same derivations, since their
tokens differ by the last brace.
-/

namespace MonkeySyntax

open Grammar

/-- A number of closing braces. -/
def closingBraces (n : Nat) : String :=
  String.ofList (List.replicate n '\x7d')

/-- Closing braces count down. -/
theorem braceBalance_closingBraces (n : Nat) :
  braceBalance (closingBraces n) = -n
  := by
  simp [braceBalance, closingBraces, List.count_replicate]

/-- One brace more is a brace after the others. -/
theorem append_closingBraces_succ (source : String) (n : Nat) :
  source ++ closingBraces (n + 1) = source ++ closingBraces n ++ "\x7d"
  := by
  rw [String.append_assoc, closingBraces, List.replicate_succ', String.ofList_append]
  rfl

/-- The tokens of a source decide whether it is accepted, and which tree it has. -/
theorem parse_eq_iff_of_tokenize {source : String} {ts : List Token} {position : Int}
    (h : tokenize source = ts ++ [.endAt position]) (program : Program) :
  parse source = ⟨program, []⟩ ↔ ∃ n ≤ maxNesting, IsProgram ts program n
  := by
  obtain ⟨position', hproper⟩ := TokenStream.exists_tokens_ofSource source
  have htokens : (TokenStream.ofSource source).tokens = ts ++ [.endAt position] := h
  obtain ⟨hts, -⟩ := List.append_inj' (htokens.symm.trans hproper) rfl
  rw [hts]
  apply parseStream_eq_iff_of_isSettled (TokenStream.isSettled_ofSource source)

/-- A source that is accepted has nested brackets, and leaves only braces open.  If it leaves none
open, each block of its tree has its closing brace. -/
theorem openBrackets_tokenize {source : String} (h : (parse source).diagnostics = []) :
  ∃ k : Nat, openBrackets [] (tokenize source) = some (List.replicate k .leftBrace) ∧
    k = braceBalance source ∧
    (k = 0 → ∀ b ∈ (parse source).program.blocks, ClosesIn (TokenStream.ofSource source).proper b)
  := by
  obtain ⟨position, htokens⟩ := TokenStream.exists_tokens_ofSource source
  have htokenize : tokenize source = _ := htokens
  have hparse : parse source = ⟨(parse source).program, []⟩ := by rw [← h]
  obtain ⟨n, -, hprogram⟩ := (parse_eq_iff_of_tokenize htokenize _).mp hparse
  obtain ⟨k, hbrackets, hk, hblocks⟩ := hprogram.openBrackets_eq
  refine ⟨k, ?_, ?_, hblocks⟩
  · rw [htokenize, openBrackets_append, hbrackets]
    rfl
  · rw [hk, braceBalance_eq_unclosed, htokenize, unclosed_append]
    simp [Kind.opened]

/-- Where a brace is open, a source is accepted exactly when it is with a closing brace at its end,
with the same tree. -/
theorem parse_append_rightBrace {source : String} (h : 0 < braceBalance source)
    (program : Program) :
  parse (source ++ "\x7d") = ⟨program, []⟩ ↔ parse source = ⟨program, []⟩
  := by
  obtain ⟨ts, htokens, hclosed⟩ := tokenize_append_rightBrace source
  rw [braceBalance_eq_unclosed, htokens, unclosed_append] at h
  have hopened : 0 < unclosed ts := by simpa [Kind.opened] using h
  have hiff (n : Nat) : IsProgram (ts ++ [⟨.rightBrace, "\x7d", source.length⟩]) program n ↔
      IsProgram ts program n := isProgram_closed_iff rfl hopened program n
  rw [parse_eq_iff_of_tokenize htokens, parse_eq_iff_of_tokenize hclosed]
  simp only [hiff]

/-- Closing braces may be added as long as there are braces open. -/
theorem parse_append_closingBraces {source : String} (h : (parse source).diagnostics = []) {n : Nat}
    (hn : n ≤ braceBalance source) :
  parse (source ++ closingBraces n) = parse source
  := by
  induction n with
  | zero =>
    rw [show source ++ closingBraces 0 = source from String.append_empty]
  | succ n ih =>
    have hparse : parse (source ++ closingBraces n) = ⟨(parse source).program, []⟩ := by
      rw [ih (by omega), ← h]
    have hopened : 0 < braceBalance (source ++ closingBraces n) := by
      rw [braceBalance_append, braceBalance_closingBraces]
      omega
    rw [append_closingBraces_succ, (parse_append_rightBrace hopened _).mpr hparse, ← h]

/-- The brackets of a source that is accepted are nested, but that a number of braces may be left
open at the end, as many as there are more opening than closing ones.  Any number of these may be
closed there without a change of the program, and with all of them closed the brackets are
balanced.  Conversely, where a brace is open, a source is accepted if it is with a closing brace at
its end, with the same program. -/
theorem parse_leftOpen :
  (∀ source : String, (parse source).diagnostics = [] →
    ∃ k : Nat, openBrackets [] (tokenize source) = some (List.replicate k .leftBrace) ∧
      k = braceBalance source ∧
      (∀ n ≤ k, parse (source ++ closingBraces n) = parse source) ∧
      openBrackets [] (tokenize (source ++ closingBraces k)) = some []) ∧
  ∀ source : String, 0 < braceBalance source → ∀ program : Program,
    parse (source ++ "\x7d") = ⟨program, []⟩ ↔ parse source = ⟨program, []⟩
  := by
  constructor
  · intro source h
    obtain ⟨k, hbrackets, hk, -⟩ := openBrackets_tokenize h
    have hclosed {n : Nat} (hn : n ≤ k) : parse (source ++ closingBraces n) = parse source := by
      apply parse_append_closingBraces h
      omega
    refine ⟨k, hbrackets, hk, fun n hn => hclosed hn, ?_⟩
    have hquiet : (parse (source ++ closingBraces k)).diagnostics = [] := by
      rw [hclosed le_rfl, h]
    obtain ⟨k', hbrackets', hk', -⟩ := openBrackets_tokenize hquiet
    rw [braceBalance_append, braceBalance_closingBraces, ← hk] at hk'
    obtain rfl : k' = 0 := by omega
    apply hbrackets'
  · intro source h program
    apply parse_append_rightBrace h

/-- The source `f(a) function() { if (b) { c`, in which two blocks are open at the end. -/
def openSource : String :=
  "f(a) function() \x7b if (b) \x7b c"

/-- Closing the two blocks makes no difference, and neither does closing one of them. -/
theorem parse_leftOpen_function :
  (parse openSource).diagnostics = [] ∧ braceBalance openSource = 2 ∧
    openBrackets [] (tokenize openSource) = some [.leftBrace, .leftBrace] ∧
    parse (openSource ++ closingBraces 2) = parse openSource ∧
    parse (openSource ++ "\x7d") = ⟨(parse openSource).program, []⟩
  := by
  have hquiet : (parse openSource).diagnostics = [] := by decide +kernel
  have hbalance : braceBalance openSource = 2 := by decide
  have hparse : parse openSource = ⟨(parse openSource).program, []⟩ := by rw [← hquiet]
  obtain ⟨k, hbrackets, hk, hclosed, -⟩ := parse_leftOpen.1 openSource hquiet
  obtain rfl : k = 2 := by omega
  refine ⟨hquiet, hbalance, hbrackets, hclosed 2 le_rfl, ?_⟩
  apply (parse_leftOpen.2 openSource (by omega) _).mpr hparse

end MonkeySyntax
