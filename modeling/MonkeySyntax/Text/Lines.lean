/-!
# Lines

`split` cuts a text at a separator, and `lines` cuts it at its newline characters, and at no
other character: a final newline ends the last line and starts none.  `unifyNewlines` writes
every end of a line, be it a carriage return, a newline or the two together, as a newline.
-/

namespace MonkeySyntax.Text

/-- The parts of a list of characters between separators, the first of them put behind
characters read before, which come newest first. -/
def splitAfter (separator : Char) (read : List Char) : List Char → List String
  | [] => [String.ofList read.reverse]
  | c :: cs =>
    if c == separator then String.ofList read.reverse :: splitAfter separator [] cs
    else splitAfter separator (c :: read) cs

/-- The parts of a text between separators, one more than there are separators. -/
def split (separator : Char) (text : String) : List String :=
  splitAfter separator [] text.toList

/-- The lines of a text, without their newlines. -/
def lines (text : String) : List String :=
  let parts := split '\n' text
  if parts.getLast? == some "" then parts.dropLast else parts

/-- A list of characters with its ends of lines unified, put behind characters read before,
which come newest first. -/
def unifyNewlinesAfter (read : List Char) : List Char → List Char
  | [] => read.reverse
  | '\r' :: '\n' :: cs => unifyNewlinesAfter ('\n' :: read) cs
  | '\r' :: cs => unifyNewlinesAfter ('\n' :: read) cs
  | c :: cs => unifyNewlinesAfter (c :: read) cs

/-- A text with a newline for every end of a line. -/
def unifyNewlines (text : String) : String :=
  String.ofList (unifyNewlinesAfter [] text.toList)

end MonkeySyntax.Text
