import MonkeySyntax.Parser.Expression
import MonkeySyntax.Proofs.Source.Spelling

/-!
# The values of integer tokens

The integer tokens of a source are made of ASCII digits.  Such a text is a numeral without a
sign, blanks or underscores, so it has a value if there are not too many digits, and the value
is an integer of the language if it is not too great.
-/

namespace MonkeySyntax

namespace Numeral

/-- The number that ASCII digits denote in base ten. -/
def ofAscii (cs : List Char) : Nat :=
  ofDigits (cs.map (fun c => c.toNat - '0'.toNat))

/-- The code of a digit is between those of `0` and of `9`. -/
theorem toNat_of_isDigit {c : Char} (h : isDigit c = true) :
  '0'.toNat ≤ c.toNat ∧ c.toNat ≤ '9'.toNat
  := by
  simp only [isDigit, Char.isDigit, Bool.and_eq_true, decide_eq_true_eq] at h
  exact ⟨UInt32.le_iff_toNat_le.mp h.1, UInt32.le_iff_toNat_le.mp h.2⟩

/-- A digit stands for its distance from `0`. -/
theorem decimalValue_of_isDigit {c : Char} (h : isDigit c = true) :
  Text.decimalValue? c = some (c.toNat - '0'.toNat)
  := by
  have hcode := toNat_of_isDigit h
  have hfirst : (CodeRange.mk 0x30 0x39).contains c.toNat = true := by
    simpa [CodeRange.contains] using hcode
  have hvalue : (c.toNat - 0x30) % 10 = c.toNat - 0x30 := by
    apply Nat.mod_eq_of_lt
    simp only [Char.reduceToNat] at hcode
    omega
  simp [Text.decimalValue?, Text.digitRanges, CodeRange.find?, hfirst, hvalue]

/-- A digit is not blank. -/
theorem isBlank_of_isDigit {c : Char} (h : isDigit c = true) :
  isBlank c = false
  := by
  have hcode := toNat_of_isDigit h
  have hranges : ∀ n ≤ '9'.toNat, '0'.toNat ≤ n →
      (CodeRange.find? Text.blankRanges n).isSome = false := by decide
  rw [isBlank, Text.isBlank, hranges _ hcode.2 hcode.1]
  rfl

/-- Characters that are not of a class are not trimmed off. -/
theorem trimBoth_eq_self {p : Char → Bool} {cs : List Char} (h : ∀ c ∈ cs, p c = false) :
  Text.trimBoth p cs = cs
  := by
  have hdrop {ds : List Char} (hds : ∀ c ∈ ds, p c = false) : ds.dropWhile p = ds := by
    cases ds with
    | nil => rfl
    | cons d ds => simp [hds d (by simp)]
  rw [Text.trimBoth, hdrop h, hdrop (by simpa using h), List.reverse_reverse]

/-- Digits without underscores are read one by one. -/
theorem digitsAfter_of_isDigit {cs : List Char} (h : ∀ c ∈ cs, isDigit c = true)
    (read : List Nat) {afterDigit : Bool} (hne : cs ≠ [] ∨ afterDigit = true) :
  digitsAfter read afterDigit cs = some (read.reverse ++ cs.map (fun c => c.toNat - '0'.toNat))
  := by
  induction cs generalizing read afterDigit with
  | nil =>
    have hafter : afterDigit = true := by simpa using hne
    simp [digitsAfter, hafter]
  | cons c cs ih =>
    have hc := decimalValue_of_isDigit (h c (by simp))
    have hcs : ∀ d ∈ cs, isDigit d = true := fun d hd => h d (by simp [hd])
    simp only [digitsAfter, hc]
    rw [ih hcs _ (.inr rfl)]
    simp

/-- Digits stand for their number in base ten, if there are not too many of them. -/
theorem magnitude_of_isDigit {cs : List Char} (hne : cs ≠ []) (h : ∀ c ∈ cs, isDigit c = true) :
  magnitude? cs = if cs.length ≤ maxDigits then some (ofAscii cs) else none
  := by
  rw [magnitude?, digits?, digitsAfter_of_isDigit h [] (.inl hne)]
  simp [ofAscii]

/-- The value of a text of digits is their number in base ten, if there are not too many of them. -/
theorem value_of_isDigit {text : String} (hne : text.toList ≠ [])
    (h : ∀ c ∈ text.toList, isDigit c = true) :
  value? text =
    if text.toList.length ≤ maxDigits then some (ofAscii text.toList : Int) else none
  := by
  have htrim := trimBoth_eq_self (fun c hc => isBlank_of_isDigit (h c hc))
  have hmagnitude := magnitude_of_isDigit hne h
  rw [value?, htrim]
  split
  next hcs => cases h '-' (by simp [hcs])
  next hcs => cases h '+' (by simp [hcs])
  next =>
    rw [hmagnitude]
    split <;> rfl

end Numeral

/-- The text of digits has the value that the digits denote, if there are not too many of them
and it is not too great. -/
theorem integerValue_eq_some_iff {text : String} (hne : text.toList ≠ [])
    (h : ∀ c ∈ text.toList, isDigit c = true) (value : Int) :
  Parse.integerValue? text = some value ↔
    text.toList.length ≤ Numeral.maxDigits ∧ value = Numeral.ofAscii text.toList ∧
      value ≤ Parse.maxInteger
  := by
  rw [Parse.integerValue?, Numeral.value_of_isDigit hne h, Option.filter_eq_some_iff]
  split
  next hlength =>
    simp only [Option.some.injEq, hlength, true_and, Parse.isInRange, Bool.and_eq_true,
      decide_eq_true_eq]
    constructor
    · rintro ⟨rfl, -, hle⟩
      exact ⟨rfl, hle⟩
    · rintro ⟨rfl, hle⟩
      exact ⟨rfl, by omega, hle⟩
  next hlength => simp [hlength]

end MonkeySyntax
