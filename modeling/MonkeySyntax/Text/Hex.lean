/-!
# Numbers in base sixteen

A number in base sixteen with a fixed number of digits, in lower case.
-/

namespace MonkeySyntax.Text

/-- The last digits of a number in base sixteen, as many as `width` says. -/
def hex : Nat → Nat → List Char
  | 0, _ => []
  | width + 1, n => hex width (n / 16) ++ [Nat.digitChar (n % 16)]

end MonkeySyntax.Text
