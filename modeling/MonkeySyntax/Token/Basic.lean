import MonkeySyntax.Token.Kind

/-!
# Tokens

A token is a kind, the text it was read from and the offset of that text.  Offsets count
code points.  A token read from a source has an offset within it, but a token may also
be made by hand, with any integer for its offset.
-/

namespace MonkeySyntax

/-- A kind together with the text it stands for and the offset of the text. -/
structure Token where
  kind : Kind
  text : String
  position : Int := 0
deriving DecidableEq, Repr, Inhabited

namespace Token

/-- The end of the input, at an offset. -/
def endAt (position : Int) : Token :=
  ⟨.endOfInput, "", position⟩

@[simp]
theorem kind_endAt (position : Int) :
  (endAt position).kind = .endOfInput
  := rfl

/-- A one-line summary, which leaves the offset out. -/
def summary (t : Token) : String :=
  "Token(" ++ t.kind.name ++ ", " ++ t.text ++ ")"

end Token

end MonkeySyntax
