/-!
# Character classes of a source

Words are runs of ASCII letters and underscores, numbers runs of ASCII digits, and tokens
may be separated by layout: spaces, tabs, newlines and carriage returns.  The three
classes are pairwise disjoint; no other character of any script belongs to one of them.
-/

namespace MonkeySyntax

/-- The characters of a word. -/
def isLetter (c : Char) : Bool :=
  c.isAlpha || c == '_'

/-- The characters of a number. -/
def isDigit (c : Char) : Bool :=
  c.isDigit

/-- The characters between tokens. -/
def isLayout (c : Char) : Bool :=
  c == ' ' || c == '\t' || c == '\n' || c == '\r'

end MonkeySyntax
