import MonkeySyntax.Source.Cursor

/-!
# Stepping a cursor

A cursor may be moved by hand, one `CursorStep` at a time, and may so come to stand within a
token.  `CursorStep.run` gives what a step reads and the cursor after it, and `runAll` runs
steps one after the other.
-/

namespace MonkeySyntax

/-- Something to do with a cursor. -/
inductive CursorStep where
  | next
  | advance
  | peek
  | skipLayout
  | readWord
  | readNumber
deriving DecidableEq, Repr

/-- What a step reads. -/
inductive Reading where
  | nothing
  | token (token : Token)
  /-- The character after the one at the cursor, if there is one. -/
  | character (c : Option Char)
  | text (text : String)
deriving DecidableEq, Repr

namespace CursorStep

/-- What a step reads, and the cursor after it. -/
def run (c : Cursor) : CursorStep → Reading × Cursor
  | next => (.token c.next.1, c.next.2)
  | advance => (.nothing, c.advance)
  | peek => (.character c.peek, c)
  | skipLayout => (.nothing, c.skipLayout)
  | readWord => (.text c.readWord.1, c.readWord.2)
  | readNumber => (.text c.readNumber.1, c.readNumber.2)

/-- The cursor after several steps. -/
def runAll (c : Cursor) (steps : List CursorStep) : Cursor :=
  steps.foldl (fun c s => (s.run c).2) c

end CursorStep

end MonkeySyntax
