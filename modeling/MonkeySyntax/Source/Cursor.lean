import MonkeySyntax.Token.Basic
import MonkeySyntax.Source.Alphabet

/-!
# Cursors

A `Cursor` stands at a character of a source, or at its end: it knows the offset, the
characters from there on, and the offset of the character that it is to read next, which is
kept by every step along with the other.  `next` reads the next token: it skips layout, then
takes the longest word or number, a symbol of two characters, or a single character.  Every
character can be read, since one that starts no other token is a token of kind `illegal`.

At the end of the source a cursor stays where it is, and `next` reads the end of the input
again and again.  Otherwise `next` moves the cursor forward: `length_rest_next_lt`.
-/

namespace MonkeySyntax

/-- A place in a source: its offset and the characters from there on. -/
structure Cursor where
  position : Nat
  /-- The offset of the character that is to be read next. -/
  readPosition : Nat
  rest : List Char
deriving DecidableEq, Repr, Inhabited

namespace Cursor

/-- The cursor at an offset, with the characters from there on. -/
def ofRest (position : Nat) (rest : List Char) : Cursor :=
  ⟨position, position + 1, rest⟩

/-- The start of a source. -/
def ofSource (source : String) : Cursor :=
  ofRest 0 source.toList

/-- The character at the cursor, if it is not at the end. -/
def current (c : Cursor) : Option Char :=
  c.rest.head?

/-- The character after the one at the cursor. -/
def peek (c : Cursor) : Option Char :=
  c.rest.tail.head?

/-- One character further, or the same place at the end. -/
def advance (c : Cursor) : Cursor :=
  match c.rest with
  | [] => { c with readPosition := c.position + 1 }
  | _ :: rest => ⟨c.readPosition, c.readPosition + 1, rest⟩

/-- The longest run of characters of a class at the cursor, and the place after it. -/
def takeRun (p : Char → Bool) (c : Cursor) : String × Cursor :=
  let run := c.rest.takeWhile p
  (String.ofList run,
    ⟨c.position + run.length, c.readPosition + run.length, c.rest.dropWhile p⟩)

/-- The place after the layout at the cursor. -/
def skipLayout (c : Cursor) : Cursor :=
  (c.takeRun isLayout).2

/-- The run of letters at the cursor, which may be empty. -/
def readWord (c : Cursor) : String × Cursor :=
  c.takeRun isLetter

/-- The run of digits at the cursor, which may be empty. -/
def readNumber (c : Cursor) : String × Cursor :=
  c.takeRun isDigit

/-- The token that starts with the character `ch` at the cursor. -/
def readLexeme (c : Cursor) (ch : Char) : Token × Cursor :=
  if isLetter ch then
    let (word, after) := c.readWord
    (⟨.ofWord word, word, c.position⟩, after)
  else if isDigit ch then
    let (digits, after) := c.readNumber
    (⟨.integer, digits, c.position⟩, after)
  else match c.peek.bind (Kind.ofPair ch) with
    | some kind => (⟨kind, String.ofList (c.rest.take 2), c.position⟩, c.advance.advance)
    | none => (⟨.ofSymbol ch, String.ofList [ch], c.position⟩, c.advance)

/-- The next token and the place after it.  At the end this is the end of the input. -/
def next (c : Cursor) : Token × Cursor :=
  match c.skipLayout.current with
  | none => (.endAt c.skipLayout.position, c.skipLayout)
  | some ch => c.skipLayout.readLexeme ch

/-! ### Steps from an offset -/

section

variable (n : Nat)

@[simp]
theorem position_ofRest (cs : List Char) :
  (ofRest n cs).position = n
  := rfl

@[simp]
theorem rest_ofRest (cs : List Char) :
  (ofRest n cs).rest = cs
  := rfl

/-- A cursor at an offset advances to the next one. -/
@[simp]
theorem advance_ofRest_cons (c : Char) (cs : List Char) :
  (ofRest n (c :: cs)).advance = ofRest (n + 1) cs
  := rfl

/-- A run that is taken leaves the cursor as many characters further on. -/
theorem takeRun_ofRest (p : Char → Bool) (cs : List Char) :
  (ofRest n cs).takeRun p =
    (String.ofList (cs.takeWhile p), ofRest (n + (cs.takeWhile p).length) (cs.dropWhile p))
  := by
  simp only [takeRun, ofRest, Nat.add_right_comm]

end

/-! ### How far a step goes -/

/-- A run leaves no more characters than there were. -/
theorem length_rest_takeRun_le (p : Char → Bool) (c : Cursor) :
  (c.takeRun p).2.rest.length ≤ c.rest.length
  := (List.dropWhile_suffix p).length_le

/-- A run that starts with a character leaves fewer. -/
theorem length_rest_takeRun_lt
    {p : Char → Bool} {c : Cursor} {ch : Char} (h : c.current = some ch) (hp : p ch = true) :
  (c.takeRun p).2.rest.length < c.rest.length
  := by
  obtain ⟨n, m, rest⟩ := c
  cases rest with
  | nil => cases h
  | cons d rest =>
    cases h
    simpa [takeRun, hp, Nat.lt_succ_iff] using (List.dropWhile_suffix p).length_le

/-- A step leaves a character less, if there is one. -/
theorem length_rest_advance (c : Cursor) :
  c.advance.rest.length = c.rest.length - 1
  := by
  obtain ⟨n, m, rest⟩ := c
  cases rest <;> simp [advance]

/-- Reading a lexeme leaves fewer characters, so reading all of them ends. -/
theorem length_rest_readLexeme_lt {c : Cursor} {ch : Char} (h : c.current = some ch) :
  (c.readLexeme ch).2.rest.length < c.rest.length
  := by
  have hpos : 0 < c.rest.length := by
    obtain ⟨n, m, rest⟩ := c
    cases rest with
    | nil => cases h
    | cons => simp
  unfold readLexeme
  split
  · apply length_rest_takeRun_lt h
    assumption
  split
  · apply length_rest_takeRun_lt h
    assumption
  split
  · simp only [length_rest_advance]
    omega
  · simp only [length_rest_advance]
    omega

/-- A token other than the end of the input has been read from at least one character. -/
theorem length_rest_next_lt {c : Cursor} (h : c.next.1.kind ≠ .endOfInput) :
  c.next.2.rest.length < c.rest.length
  := by
  cases hch : c.skipLayout.current with
  | none => simp [next, hch] at h
  | some ch =>
    simp only [next, hch]
    exact Nat.lt_of_lt_of_le (length_rest_readLexeme_lt hch) (length_rest_takeRun_le _ c)

end Cursor

end MonkeySyntax
