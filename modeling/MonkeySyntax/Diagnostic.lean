import MonkeySyntax.Token.Kind

/-!
# Diagnostics

A `Diagnostic` says why a statement was given up.  There are four causes, and `message`
words each of them in one line, in which kinds appear as their display texts.
-/

namespace MonkeySyntax

/-- Why a statement was given up. -/
inductive Diagnostic where
  /-- The token ahead is of another kind than the one that has to follow. -/
  | unexpected (wanted found : Kind)
  /-- No expression starts with a token of this kind. -/
  | noOperand (found : Kind)
  /-- The text of an integer token is no numeral, or its value is out of range. -/
  | badInteger (text : String)
  /-- Expressions are nested beyond the limit. -/
  | tooDeep
deriving DecidableEq, Repr, Inhabited

/-- The wording of a diagnostic. -/
def Diagnostic.message : Diagnostic → String
  | unexpected wanted found =>
    "expected next token to be " ++ wanted.display ++ ", got " ++ found.display ++ " instead"
  | noOperand found => "no prefix parse function for " ++ found.display ++ " found"
  | badInteger text => "could not parse \"" ++ text ++ "\" as integer"
  | tooDeep => "expression nested too deeply"

namespace Diagnostic

/-- The message for a token that is not the one asked for names both kinds. -/
@[simp]
theorem message_unexpected (wanted found : Kind) :
  (unexpected wanted found).message =
    "expected next token to be " ++ wanted.display ++ ", got " ++ found.display ++ " instead"
  := rfl

/-- The message for a token that starts no expression names its kind. -/
@[simp]
theorem message_noOperand (found : Kind) :
  (noOperand found).message = "no prefix parse function for " ++ found.display ++ " found"
  := rfl

/-- The message for an integer without a value quotes its text. -/
@[simp]
theorem message_badInteger (text : String) :
  (badInteger text).message = "could not parse \"" ++ text ++ "\" as integer"
  := rfl

end Diagnostic

end MonkeySyntax
