import MonkeySyntax.Text.CodeRange

/-!
# Blank characters

The blank characters are the white space of Unicode together with the four separators of
files, groups, records and units, U+001C to U+001F.  `strip` takes them off both ends of
a text.
-/

namespace MonkeySyntax.Text

/-- The ranges of the blank characters. -/
def blankRanges : List CodeRange :=
  [⟨0x09, 0x0d⟩, ⟨0x1c, 0x20⟩, ⟨0x85, 0x85⟩, ⟨0xa0, 0xa0⟩, ⟨0x1680, 0x1680⟩,
    ⟨0x2000, 0x200a⟩, ⟨0x2028, 0x2029⟩, ⟨0x202f, 0x202f⟩, ⟨0x205f, 0x205f⟩,
    ⟨0x3000, 0x3000⟩]

/-- Whether a character is blank. -/
def isBlank (c : Char) : Bool :=
  (CodeRange.find? blankRanges c.toNat).isSome

/-- A list without the elements of a class at its two ends. -/
def trimBoth (p : Char → Bool) (cs : List Char) : List Char :=
  ((cs.dropWhile p).reverse.dropWhile p).reverse

/-- A text without the blank characters at its two ends. -/
def strip (text : String) : String :=
  String.ofList (trimBoth isBlank text.toList)

end MonkeySyntax.Text
