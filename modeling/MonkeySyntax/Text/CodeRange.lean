/-!
# Ranges of code points

A set of characters is given as a list of ranges of code points, both ends included, in
increasing order.
-/

namespace MonkeySyntax

/-- The code points from `first` to `last`, both included. -/
structure CodeRange where
  first : Nat
  last : Nat
deriving DecidableEq, Repr

namespace CodeRange

/-- Whether a code point lies in a range. -/
def contains (r : CodeRange) (code : Nat) : Bool :=
  r.first ≤ code && code ≤ r.last

/-- The range of a list that a code point lies in. -/
def find? (ranges : List CodeRange) (code : Nat) : Option CodeRange :=
  ranges.find? (fun r => r.contains code)

end CodeRange

end MonkeySyntax
