import MonkeySyntax.Source.CursorStep
import MonkeySyntax.Proofs.Source.Tokenization

/-!
# Cursors stepped by hand

However a cursor is stepped, it stands in its source: the characters ahead of it are those of the
source from its offset on, and it is ready to read the character after the one it is at.  So the
offset tells all that a cursor knows, and how it has got there makes no difference to what it reads.

Every step from a cursor that is ready passes some of the characters ahead, or none, and leaves the
cursor ready.
-/

namespace MonkeySyntax

namespace Cursor

/-! ### Passing characters -/

/-- The character that a cursor is to read next is the one after the character it is at. -/
def IsReady (c : Cursor) : Prop :=
  c.readPosition = c.position + 1

/-- A cursor at an offset is ready to read the next character. -/
theorem isReady_ofRest (n : Nat) (cs : List Char) :
  (ofRest n cs).IsReady
  := rfl

/-- A cursor that is ready is told by its offset and the characters ahead. -/
theorem IsReady.eq_ofRest {c : Cursor} (h : c.IsReady) :
  c = ofRest c.position c.rest
  := by
  obtain ⟨n, m, rest⟩ := c
  obtain rfl : m = n + 1 := h
  rfl

/-- The cursor `d` has come from `c` by passing characters, and is ready. -/
def Passes (c d : Cursor) : Prop :=
  ∃ cs, c.rest = cs ++ d.rest ∧ d.position = c.position + cs.length ∧ d.IsReady

namespace Passes

variable {c d e : Cursor}

/-- A cursor that passes characters is ready to read the next one. -/
theorem isReady (h : c.Passes d) :
  d.IsReady
  := by
  obtain ⟨cs, -, -, hready⟩ := h
  apply hready

/-- A cursor that is ready passes no characters to get where it is. -/
theorem refl (h : c.IsReady) :
  c.Passes c
  := ⟨[], rfl, rfl, h⟩

/-- Passing some characters and then others passes both. -/
theorem trans (h : c.Passes d) (h' : d.Passes e) :
  c.Passes e
  := by
  obtain ⟨cs, hrest, hposition, -⟩ := h
  obtain ⟨cs', hrest', hposition', hready⟩ := h'
  use cs ++ cs'
  refine ⟨?_, ?_, hready⟩
  · rw [hrest, hrest', List.append_assoc]
  · rw [hposition', hposition, List.length_append, Nat.add_assoc]

/-- To advance is to pass one character, or none at the end. -/
theorem advance (h : c.IsReady) :
  c.Passes c.advance
  := by
  obtain ⟨n, m, rest⟩ := c
  cases rest with
  | nil => exact ⟨[], rfl, rfl, rfl⟩
  | cons ch rest => exact ⟨[ch], rfl, h, rfl⟩

/-- To take a run is to pass its characters. -/
theorem takeRun (p : Char → Bool) (h : c.IsReady) :
  c.Passes (c.takeRun p).2
  := by
  use c.rest.takeWhile p, List.takeWhile_append_dropWhile.symm, rfl
  rw [IsReady] at h
  simp only [IsReady, Cursor.takeRun, h, Nat.add_right_comm]

/-- To read the token that starts with a character is to pass the characters of the token. -/
theorem readLexeme (ch : Char) (h : c.IsReady) :
  c.Passes (c.readLexeme ch).2
  := by
  rw [Cursor.readLexeme]
  split
  · apply takeRun _ h
  split
  · apply takeRun _ h
  split
  · apply (advance h).trans (advance (advance h).isReady)
  · apply advance h

/-- To read a token is to pass the layout before it and its characters. -/
theorem next (h : c.IsReady) :
  c.Passes c.next.2
  := by
  have hlayout : c.Passes c.skipLayout := takeRun isLayout h
  rw [Cursor.next]
  split
  · apply hlayout
  · apply hlayout.trans (readLexeme _ hlayout.isReady)

/-- Every step passes characters, and leaves the cursor ready. -/
theorem run (step : CursorStep) (h : c.IsReady) :
  c.Passes (step.run c).2
  := by
  cases step with
  | next => apply next h
  | advance => apply advance h
  | peek => apply refl h
  | skipLayout | readWord | readNumber => apply takeRun _ h

end Passes

/-! ### Standing in a source -/

/-- A cursor stands in a source: it is not past the end, the characters ahead are those of the
source from its offset on, and it is ready to read the next one. -/
structure StandsIn (source : String) (c : Cursor) : Prop where
  position_le : c.position ≤ source.length
  rest_eq : c.rest = source.toList.drop c.position
  isReady : c.IsReady

variable {source : String} {c d : Cursor}

/-- A cursor starts at the first character of its source. -/
theorem standsIn_ofSource (source : String) :
  (ofSource source).StandsIn source
  := ⟨Nat.zero_le _, rfl, isReady_ofRest _ _⟩

namespace StandsIn

/-- A cursor that passes characters of a source stands in that source. -/
theorem passes (h : c.StandsIn source) (hd : c.Passes d) :
  d.StandsIn source
  := by
  obtain ⟨cs, hrest, hposition, hready⟩ := hd
  have hdrop : source.toList.drop c.position = cs ++ d.rest := by rw [← h.rest_eq, hrest]
  refine ⟨?_, ?_, hready⟩
  · have hle := h.position_le
    have hlength := congrArg List.length hdrop
    rw [List.length_drop, String.length_toList, List.length_append] at hlength
    omega
  · rw [hposition, ← List.drop_drop, hdrop, List.drop_left]

/-- The character at the cursor is the one of the source at its offset. -/
theorem current_eq (h : c.StandsIn source) :
  c.current = source.toList[c.position]?
  := by
  rw [current, h.rest_eq, List.head?_drop]

/-- A cursor is at the end exactly when its position is the length of the source. -/
theorem rest_eq_nil_iff (h : c.StandsIn source) :
  c.rest = [] ↔ c.position = source.length
  := by
  have hle := h.position_le
  rw [h.rest_eq, List.drop_eq_nil_iff, String.length_toList]
  omega

end StandsIn

/-- At the end of a source a cursor that is ready stays where it is. -/
theorem run_of_rest (hready : c.IsReady) (h : c.rest = []) (step : CursorStep) :
  (step.run c).2 = c
  := by
  rw [hready.eq_ofRest, h]
  cases step <;> rfl

/-! ### Reading from any place -/

/-- The rest of a source from an offset on, as a source by itself. -/
def sourceFrom (source : String) (n : Nat) : String :=
  String.ofList (source.toList.drop n)

/-- The tokens from a cursor on are those of the rest of the source, moved. -/
theorem StandsIn.tokens_eq (h : c.StandsIn source) :
  c.tokens = (tokenize (sourceFrom source c.position)).map (Token.shift c.position)
  := by
  rw [sourceFrom, ← h.rest_eq, ← tokens_eq_shift, ← h.isReady.eq_ofRest]

/-- The next token is the first of the tokens from there on. -/
theorem head?_tokens (c : Cursor) :
  c.tokens.head? = some c.next.1
  := by
  rw [Cursor.tokens_eq]
  split <;> rfl

/-- Reading a token leaves the cursor right after it. -/
theorem position_next (h : c.IsReady) :
  ↑c.next.2.position = c.next.1.limit
  := by
  obtain ⟨ts, hts⟩ := exists_munches c.position c.rest
  rw [h.eq_ofRest]
  generalize c.position = n, c.rest = cs at hts ⊢
  cases hts with
  | nil hgap =>
    rw [next_of_gap n hgap]
    simp [Token.limit, Token.endAt]
  | cons hgap hspells hrest h =>
    rw [next_append hgap, next_of_spells hspells hrest]
    simp [Token.limit]

end Cursor

namespace CursorStep

open Cursor

/-- Any steps from a cursor that is ready pass characters, and leave it ready. -/
theorem passes_runAll {c : Cursor} (h : c.IsReady) (steps : List CursorStep) :
  c.Passes (runAll c steps)
  := by
  induction steps generalizing c with
  | nil => apply Passes.refl h
  | cons step steps ih =>
    have hstep := Passes.run step h
    apply hstep.trans (ih hstep.isReady)

/-- After any steps a cursor stands at a character of its source, or at the end.  A further step
does not go back, and stays at the end; to look ahead changes nothing.  The next token is the first
one of the rest of the source, moved by the offset of the cursor, and leaves the cursor right after
it; to read on gives all the tokens of the rest, moved in the same way. -/
theorem standsIn_runAll (source : String) (steps : List CursorStep) (step : CursorStep)
    {c : Cursor} (hc : runAll (.ofSource source) steps = c) :
  c.readPosition = c.position + 1 ∧
  c.position ≤ source.length ∧
  c.current = source.toList[c.position]? ∧
  (c.current = none ↔ c.position = source.length) ∧
  c.position ≤ (step.run c).2.position ∧
  (peek.run c).2 = c ∧
  (c.position = source.length → (step.run c).2 = c) ∧
  some c.next.1 =
    (tokenize (sourceFrom source c.position)).head?.map (Token.shift c.position) ∧
  ↑c.next.2.position = c.next.1.limit ∧
  c.tokens = (tokenize (sourceFrom source c.position)).map (Token.shift c.position)
  := by
  have hstands : c.StandsIn source := by
    rw [← hc]
    have hsource := standsIn_ofSource source
    apply hsource.passes (passes_runAll hsource.isReady steps)
  obtain ⟨cs, -, hposition, -⟩ := Passes.run step hstands.isReady
  refine ⟨hstands.isReady, hstands.position_le, hstands.current_eq, ?_, ?_, rfl, ?_, ?_,
    position_next hstands.isReady, hstands.tokens_eq⟩
  · rw [current, List.head?_eq_none_iff, hstands.rest_eq_nil_iff]
  · rw [hposition]
    apply Nat.le_add_right
  · intro hend
    apply run_of_rest hstands.isReady (hstands.rest_eq_nil_iff.mpr hend)
  · rw [← List.head?_map, ← hstands.tokens_eq, head?_tokens]

/-- From within the inequality of `a!== 1` the two equals signs are read as one token. -/
theorem standsIn_runAll_inequality :
  runAll (.ofSource "a!== 1") [next, advance] = ⟨2, 3, ['=', '=', ' ', '1']⟩ ∧
  some (⟨.equal, "==", 2⟩ : Token) = (tokenize "== 1").head?.map (Token.shift 2) ∧
  (Cursor.mk 2 3 ['=', '=', ' ', '1']).tokens = (tokenize "== 1").map (Token.shift 2)
  := by
  have hc : runAll (.ofSource "a!== 1") [next, advance] = ⟨2, 3, ['=', '=', ' ', '1']⟩ := by
    decide
  obtain ⟨-, -, -, -, -, -, -, hnext, -, htokens⟩ := standsIn_runAll "a!== 1" _ next hc
  exact ⟨hc, hnext, htokens⟩

end CursorStep

end MonkeySyntax
