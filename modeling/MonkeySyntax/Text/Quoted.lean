import MonkeySyntax.Text.Hex
import MonkeySyntax.Text.Printable

/-!
# Quoted texts

A text that is quoted within a message stands between apostrophes, or between quotation
marks if it holds an apostrophe and no quotation mark.  The mark and the backslash are
escaped within it, and so is every character that cannot be shown as it is: tabs and ends
of lines by a letter, all others by their code point.
-/

namespace MonkeySyntax.Text

/-- The mark that a text is quoted with. -/
def quotationMark (text : List Char) : Char :=
  if text.contains '\'' && !text.contains '"' then '"' else '\''

/-- The escape sequence of a code point, with two, four or eight digits. -/
def escapedCode (code : Nat) : List Char :=
  if code < 0x100 then '\\' :: 'x' :: hex 2 code
  else if code < 0x10000 then '\\' :: 'u' :: hex 4 code
  else '\\' :: 'U' :: hex 8 code

/-- A character as it is written between two marks. -/
def quotedChar (mark c : Char) : List Char :=
  if c == mark || c == '\\' then ['\\', c]
  else if c == '\t' then ['\\', 't']
  else if c == '\n' then ['\\', 'n']
  else if c == '\r' then ['\\', 'r']
  else if isPrintable c then [c]
  else escapedCode c.toNat

/-- A text between two marks. -/
def quoted (text : String) : String :=
  let mark := quotationMark text.toList
  String.ofList (mark :: text.toList.flatMap (quotedChar mark) ++ [mark])

end MonkeySyntax.Text
