import Mathlib.Data.Nat.Digits.Defs
import MonkeySyntax.Proofs.Source.DigitRuns
import MonkeySyntax.Proofs.Source.Integer

/-!
# Numerals and their values

`Numeral.IsInteger blank text value` describes the texts of integers without a procedure that
reads them: the text is a sign, or none, and digits of any script, with blank characters around
it; the digits have their weights in base ten; they are not too many, and the value is not too
far from zero.  The texts that are read as integers are these, with the blank characters of
numerals.

The blank characters at the ends of a text that is trimmed are not those of a numeral: none of
the characters of a numeral is blank, and so trimming takes off all blanks, and nothing else.
-/

namespace MonkeySyntax

namespace Numeral

/-- What may come after a digit: digits, each of them with at most one underscore before it.
The values of the digits are `ds`. -/
inductive Continues : List Char → List Nat → Prop
  | nil : Continues [] []
  | digit {c : Char} {d : Nat} {cs : List Char} {ds : List Nat}
      (hc : Text.decimalValue? c = some d) (h : Continues cs ds) : Continues (c :: cs) (d :: ds)
  | underscore {c : Char} {d : Nat} {cs : List Char} {ds : List Nat}
      (hc : Text.decimalValue? c = some d) (h : Continues cs ds) :
      Continues ('_' :: c :: cs) (d :: ds)

/-- Digits with single underscores between them.  The values of the digits are `ds`. -/
inductive SpellsDigits : List Char → List Nat → Prop
  | mk {c : Char} {d : Nat} {cs : List Char} {ds : List Nat}
      (hc : Text.decimalValue? c = some d) (h : Continues cs ds) :
      SpellsDigits (c :: cs) (d :: ds)

/-- A sign, which may be missing, and the factor that it stands for. -/
inductive IsSign : List Char → Int → Prop
  | missing : IsSign [] 1
  | plus : IsSign ['+'] 1
  | minus : IsSign ['-'] (-1)

/-- A numeral: a sign and digits, with blank characters around them. -/
def IsNumeral (blank : Char → Bool) (cs : List Char) (factor : Int) (ds : List Nat) : Prop :=
  ∃ before sign body after, cs = before ++ (sign ++ body ++ after) ∧
    (∀ c ∈ before, blank c = true) ∧ (∀ c ∈ after, blank c = true) ∧
      IsSign sign factor ∧ SpellsDigits body ds

/-- The text of an integer, and its value: a numeral of at most `4300` digits, whose value is the
one that its digits have in base ten, and fits in `64` bits. -/
def IsInteger (blank : Char → Bool) (text : String) (value : Int) : Prop :=
  ∃ factor ds, IsNumeral blank text.toList factor ds ∧ ds.length ≤ 4300 ∧
    value = factor * (Nat.ofDigits 10 ds.reverse : Nat) ∧ -2 ^ 63 ≤ value ∧ value ≤ 2 ^ 63 - 1

/-! ### Digits -/

/-- Digits start with a digit, after which they may go on with an underscore. -/
theorem SpellsDigits.cons_iff {c : Char} {cs : List Char} {vs : List Nat} :
  SpellsDigits (c :: cs) vs ↔
    ∃ d ds, Text.decimalValue? c = some d ∧ Continues cs ds ∧ vs = d :: ds
  := by
  constructor
  · rintro ⟨hc, h⟩
    exact ⟨_, _, hc, h, rfl⟩
  · rintro ⟨d, ds, hc, h, rfl⟩
    exact .mk hc h

/-- After a digit there may be an underscore and then digits, or digits alone. -/
theorem Continues.cons_iff {c : Char} {cs : List Char} {vs : List Nat} :
  Continues (c :: cs) vs ↔ c = '_' ∧ SpellsDigits cs vs ∨ SpellsDigits (c :: cs) vs
  := by
  constructor
  · intro h
    cases h with
    | digit hc h => exact .inr (.mk hc h)
    | underscore hc h => exact .inl ⟨rfl, .mk hc h⟩
  · rintro (⟨rfl, hc, h⟩ | ⟨hc, h⟩)
    · exact .underscore hc h
    · exact .digit hc h

/-- The digits that are read are put behind those read before. -/
theorem digitsAfter_eq_some_iff (read : List Nat) (cs : List Char) (vs : List Nat) :
  (digitsAfter read true cs = some vs ↔ ∃ ds, Continues cs ds ∧ vs = read.reverse ++ ds) ∧
    (digitsAfter read false cs = some vs ↔ ∃ ds, SpellsDigits cs ds ∧ vs = read.reverse ++ ds)
  := by
  induction cs generalizing read with
  | nil =>
    constructor
    · constructor
      · intro h
        cases h
        exact ⟨[], .nil, by simp⟩
      · rintro ⟨ds, ⟨⟩, rfl⟩
        simp [digitsAfter]
    · constructor
      · intro h
        cases h
      · rintro ⟨ds, ⟨⟩, -⟩
  | cons c cs ih =>
    simp only [Continues.cons_iff]
    rcases hc : Text.decimalValue? c with _ | d
    · have hno : ∀ ds, ¬ SpellsDigits (c :: cs) ds := by
        intro ds hds
        obtain ⟨d, -, hd, -⟩ := SpellsDigits.cons_iff.mp hds
        rw [hc] at hd
        cases hd
      rcases eq_or_ne c '_' with rfl | hunderscore
      · simp [digitsAfter, hc, hno, (ih read).2]
      · simp [digitsAfter, hc, hno, hunderscore]
    · have hcons : digitsAfter (d :: read) true cs = some vs ↔
          ∃ ds, SpellsDigits (c :: cs) ds ∧ vs = read.reverse ++ ds := by
        rw [(ih (d :: read)).1]
        constructor
        · rintro ⟨ds, h, rfl⟩
          exact ⟨d :: ds, .mk hc h, by simp⟩
        · rintro ⟨ds, hds, rfl⟩
          obtain ⟨d', ds, hd, h, rfl⟩ := SpellsDigits.cons_iff.mp hds
          cases hc.symm.trans hd
          exact ⟨ds, h, by simp⟩
      have hno : c ≠ '_' := by
        rintro rfl
        cases hc
      simp only [digitsAfter, hc, hno, false_and, false_or]
      exact ⟨hcons, hcons⟩

/-- The digits of a numeral have the weights of a number in base ten. -/
theorem ofDigits_eq (ds : List Nat) :
  ofDigits ds = Nat.ofDigits 10 ds.reverse
  := by
  rw [Nat.ofDigits_eq_foldr, List.foldr_reverse, ofDigits]
  congr 1
  funext n d
  rw [Nat.cast_id, Nat.add_comm]

/-- The texts that have a magnitude are those that spell not too many digits. -/
theorem magnitude_eq_some_iff {cs : List Char} {n : Nat} :
  magnitude? cs = some n ↔
    ∃ ds, SpellsDigits cs ds ∧ ds.length ≤ maxDigits ∧ Nat.ofDigits 10 ds.reverse = n
  := by
  have hdigits (vs : List Nat) : digits? cs = some vs ↔ SpellsDigits cs vs := by
    rw [digits?, (digitsAfter_eq_some_iff [] cs vs).2]
    simp
  simp only [magnitude?, Option.bind_eq_some_iff, hdigits, Option.ite_none_right_eq_some,
    Option.some.injEq, ofDigits_eq]

/-! ### Blanks and signs -/

/-- No character of a class is taken off the ends of a list when there is none in the middle. -/
theorem trimBoth_append {p : Char → Bool} {before cs after : List Char} (hne : cs ≠ [])
    (hbefore : ∀ c ∈ before, p c = true) (hafter : ∀ c ∈ after, p c = true)
    (hcs : ∀ c ∈ cs, p c = false) :
  Text.trimBoth p (before ++ (cs ++ after)) = cs
  := by
  have hdrop {ds rest : List Char} (hne : ds ≠ []) (hds : ∀ c ∈ ds, p c = false) :
      (ds ++ rest).dropWhile p = ds ++ rest := by
    obtain ⟨d, ds, rfl⟩ := List.exists_cons_of_ne_nil hne
    simp [hds d (by simp)]
  rw [Text.trimBoth, List.dropWhile_append_of_pos hbefore, hdrop hne hcs, List.reverse_append,
    List.dropWhile_append_of_pos (by simpa using hafter), ← List.append_nil cs.reverse,
    hdrop (by simpa using hne) (by simpa using hcs), List.append_nil, List.reverse_reverse]

/-- A list is what remains when it is trimmed, with characters of the class around it. -/
theorem exists_trimBoth (p : Char → Bool) (cs : List Char) :
  ∃ before after, cs = before ++ (Text.trimBoth p cs ++ after) ∧ (∀ c ∈ before, p c = true) ∧
    ∀ c ∈ after, p c = true
  := by
  refine ⟨cs.takeWhile p, ((cs.dropWhile p).reverse.takeWhile p).reverse, ?_, ?_, ?_⟩
  · rw [Text.trimBoth, ← List.reverse_append, List.takeWhile_append_dropWhile,
      List.reverse_reverse, List.takeWhile_append_dropWhile]
  · intro c hc
    apply List.mem_takeWhile_imp hc
  · intro c hc
    apply List.mem_takeWhile_imp (List.mem_reverse.mp hc)

/-- No digit is blank. -/
theorem isBlank_of_decimalValue {c : Char} {d : Nat} (h : Text.decimalValue? c = some d) :
  isBlank c = false
  := by
  have hranges : ∀ r ∈ Text.digitRanges, ∀ b ∈ Text.blankRanges,
      r.last < b.first ∨ b.last < r.first := by decide
  obtain ⟨r, hr, -⟩ := Option.map_eq_some_iff.mp h
  have hcontains := List.find?_some hr
  have hnone : CodeRange.find? Text.blankRanges c.toNat = none := by
    apply List.find?_eq_none.mpr
    intro b hb
    have hdisjoint := hranges r (List.mem_of_find?_eq_some hr) b hb
    simp only [CodeRange.contains, Bool.and_eq_true, decide_eq_true_eq] at hcontains ⊢
    omega
  rw [isBlank, Text.isBlank, hnone]
  rfl

theorem IsSign.isBlank {sign : List Char} {factor : Int} (h : IsSign sign factor) :
  ∀ c ∈ sign, Numeral.isBlank c = false
  := by
  cases h with
  | missing => apply List.forall_mem_nil
  | plus => exact List.forall_mem_singleton.mpr rfl
  | minus => exact List.forall_mem_singleton.mpr rfl

theorem Continues.isBlank {cs : List Char} {ds : List Nat} (h : Continues cs ds) :
  ∀ c ∈ cs, Numeral.isBlank c = false
  := by
  induction h with
  | nil => simp
  | digit hc _ ih => exact List.forall_mem_cons.mpr ⟨isBlank_of_decimalValue hc, ih⟩
  | underscore hc _ ih =>
    have hunderscore : Numeral.isBlank '_' = false := by decide
    exact List.forall_mem_cons.mpr
      ⟨hunderscore, List.forall_mem_cons.mpr ⟨isBlank_of_decimalValue hc, ih⟩⟩

theorem SpellsDigits.isBlank {cs : List Char} {ds : List Nat} (h : SpellsDigits cs ds) :
  ∀ c ∈ cs, Numeral.isBlank c = false
  := by
  obtain ⟨hc, h⟩ := h
  exact List.forall_mem_cons.mpr ⟨isBlank_of_decimalValue hc, h.isBlank⟩

/-- There is no spelling without a digit. -/
theorem SpellsDigits.ne_nil {cs : List Char} {ds : List Nat} (h : SpellsDigits cs ds) :
  cs ≠ []
  := by
  obtain ⟨-, -⟩ := h
  simp

/-- A list is a numeral if and only if what remains when it is trimmed is a sign and digits. -/
theorem isNumeral_iff {cs : List Char} {factor : Int} {ds : List Nat} :
  IsNumeral isBlank cs factor ds ↔
    ∃ sign body, Text.trimBoth isBlank cs = sign ++ body ∧ IsSign sign factor ∧
      SpellsDigits body ds
  := by
  constructor
  · rintro ⟨before, sign, body, after, rfl, hbefore, hafter, hsign, hbody⟩
    have hne : sign ++ body ≠ [] := by simp [hbody.ne_nil]
    have hblank : ∀ c ∈ sign ++ body, isBlank c = false :=
      List.forall_mem_append.mpr ⟨hsign.isBlank, hbody.isBlank⟩
    exact ⟨sign, body, trimBoth_append hne hbefore hafter hblank, hsign, hbody⟩
  · rintro ⟨sign, body, htrim, hsign, hbody⟩
    obtain ⟨before, after, hcs, hbefore, hafter⟩ := exists_trimBoth isBlank cs
    rw [htrim] at hcs
    exact ⟨before, sign, body, after, hcs, hbefore, hafter, hsign, hbody⟩

/-- The first character tells the sign, for it is none of the digits. -/
theorem isSigned_iff {cs : List Char} {factor : Int} {ds : List Nat} :
  (∃ sign body, cs = sign ++ body ∧ IsSign sign factor ∧ SpellsDigits body ds) ↔
    match cs with
    | '-' :: cs => factor = -1 ∧ SpellsDigits cs ds
    | '+' :: cs => factor = 1 ∧ SpellsDigits cs ds
    | cs => factor = 1 ∧ SpellsDigits cs ds
  := by
  constructor
  · rintro ⟨_, body, rfl, hsign, hbody⟩
    cases hsign with
    | missing =>
      obtain ⟨hc, h⟩ := hbody
      split
      next hcs =>
        cases hcs
        cases hc
      next hcs =>
        cases hcs
        cases hc
      next => exact ⟨rfl, .mk hc h⟩
    | plus => exact ⟨rfl, hbody⟩
    | minus => exact ⟨rfl, hbody⟩
  · intro h
    split at h
    next cs =>
      obtain ⟨rfl, hcs⟩ := h
      exact ⟨['-'], cs, rfl, .minus, hcs⟩
    next cs =>
      obtain ⟨rfl, hcs⟩ := h
      exact ⟨['+'], cs, rfl, .plus, hcs⟩
    next =>
      obtain ⟨rfl, hcs⟩ := h
      exact ⟨[], cs, rfl, .missing, hcs⟩

/-- The texts that have a value are the numerals with not too many digits. -/
theorem value_eq_some_iff {text : String} {value : Int} :
  value? text = some value ↔
    ∃ factor ds, IsNumeral isBlank text.toList factor ds ∧ ds.length ≤ maxDigits ∧
      value = factor * (Nat.ofDigits 10 ds.reverse : Nat)
  := by
  simp only [isNumeral_iff, isSigned_iff, value?]
  generalize Text.trimBoth isBlank text.toList = cs
  split
  all_goals
    simp only [Option.map_eq_some_iff, Option.bind_eq_bind, Option.bind_eq_some_iff,
      Option.pure_def, Option.some.injEq, magnitude_eq_some_iff]
    constructor
    · rintro ⟨_, ⟨_, ⟨ds, hcs, hlength, rfl⟩, rfl⟩, rfl⟩
      exact ⟨_, ds, ⟨rfl, hcs⟩, hlength, by simp⟩
    · rintro ⟨_, ds, ⟨rfl, hcs⟩, hlength, rfl⟩
      exact ⟨_, ⟨_, ⟨ds, hcs, hlength, rfl⟩, rfl⟩, by simp⟩

end Numeral

end MonkeySyntax
