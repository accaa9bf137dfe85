import MonkeySyntax.Text.Blank
import MonkeySyntax.Text.DecimalDigit

/-!
# Numerals

The text of an integer token is read as a numeral in base ten: an optional sign, then
decimal digits of any script, of which two may have one underscore between them, the
whole with blank characters around it.  A numeral has at most `maxDigits` digits; leading
zeros count, the sign and the underscores do not.
-/

namespace MonkeySyntax.Numeral

/-- The greatest number of digits of a numeral. -/
def maxDigits : Nat := 4300

/-- The blank characters around a numeral: all but the separators U+001C to U+001F. -/
def isBlank (c : Char) : Bool :=
  Text.isBlank c && !(CodeRange.mk 0x1c 0x1f).contains c.toNat

/-- The values of the digits of a list, put behind digits read before, which come newest
first.  An underscore may stand only after a digit and before a digit; `afterDigit` tells
whether a digit has just been read. -/
def digitsAfter (read : List Nat) (afterDigit : Bool) : List Char → Option (List Nat)
  | [] => if afterDigit then some read.reverse else none
  | c :: cs =>
    match Text.decimalValue? c with
    | some d => digitsAfter (d :: read) true cs
    | none => if c == '_' && afterDigit then digitsAfter read false cs else none

/-- The values of the digits of a list, if it is made of digits with single underscores
between them. -/
def digits? (cs : List Char) : Option (List Nat) :=
  digitsAfter [] false cs

/-- The number that digits denote in base ten, the first one weighing most. -/
def ofDigits (ds : List Nat) : Nat :=
  ds.foldl (fun n d => 10 * n + d) 0

/-- The number that an unsigned numeral denotes. -/
def magnitude? (cs : List Char) : Option Nat :=
  (digits? cs).bind (fun ds => if ds.length ≤ maxDigits then some (ofDigits ds) else none)

/-- The number that a numeral denotes, if the text is one. -/
def value? (text : String) : Option Int :=
  match Text.trimBoth isBlank text.toList with
  | '-' :: cs => (magnitude? cs).map (fun n => -(n : Int))
  | '+' :: cs => (magnitude? cs).map (fun n => (n : Int))
  | cs => (magnitude? cs).map (fun n => (n : Int))

end MonkeySyntax.Numeral
