import MonkeySyntax.Proofs.Grammar.Braces
import MonkeySyntax.Proofs.Source.Tokenization
import MonkeySyntax.Session.Entry

/-!
# The braces of a source

Every brace of a source is a token, wherever it stands, and no other token has a brace in its
text.  So the braces of a source can be counted by its characters or by its tokens, and a brace
added at the end of a source adds a token at the end of its tokens.
-/

namespace MonkeySyntax

/-! ### Counting braces -/

/-- A character is not among those of a class to which it does not belong. -/
theorem count_eq_zero_of_class {c : Char} {p : Char → Bool} (hc : p c = false) {cs : List Char}
    (hcs : ∀ d ∈ cs, p d = true) :
  cs.count c = 0
  := by
  rw [List.count_eq_zero]
  intro hmem
  rw [hcs c hmem] at hc
  cases hc

/-- A brace, and the kind of the tokens that it makes. -/
def IsBrace (brace : Char) (kind : Kind) : Prop :=
  brace = '\x7b' ∧ kind = .leftBrace ∨ brace = '\x7d' ∧ kind = .rightBrace

namespace IsBrace

variable {brace : Char} {kind : Kind}

/-- A brace is neither a letter nor a digit nor layout. -/
theorem isLetter_eq (h : IsBrace brace kind) :
  isLetter brace = false ∧ isDigit brace = false ∧ isLayout brace = false
  := by
  rcases h with ⟨rfl, -⟩ | ⟨rfl, -⟩ <;> decide

/-- Of all characters only the brace is of its kind. -/
theorem ofSymbol_iff (h : IsBrace brace kind) (c : Char) :
  Kind.ofSymbol c = kind ↔ c = brace
  := by
  constructor
  · intro hc
    rw [Kind.ofSymbol.eq_def] at hc
    rcases h with ⟨rfl, rfl⟩ | ⟨rfl, rfl⟩
    · split at hc <;> first | rfl | cases hc
    · split at hc <;> first | rfl | cases hc
  · rintro rfl
    rcases h with ⟨rfl, rfl⟩ | ⟨rfl, rfl⟩ <;> rfl

/-- No word is a brace. -/
theorem ofWord_ne (h : IsBrace brace kind) (word : String) :
  Kind.ofWord word ≠ kind
  := by
  rw [Kind.ofWord.eq_def]
  rcases h with ⟨-, rfl⟩ | ⟨-, rfl⟩
  · split <;> decide
  · split <;> decide

/-- The spelling of a token has a brace if its kind is that of the brace, and then only one. -/
theorem count_spelling (h : IsBrace brace kind) {kind' : Kind} {text : List Char}
    (htext : kind'.Spells text) :
  text.count brace = if kind' == kind then 1 else 0
  := by
  obtain ⟨hletter, hdigit, -⟩ := h.isLetter_eq
  cases htext with
  | word _ hcs => rw [count_eq_zero_of_class hletter hcs, beq_false_of_ne (h.ofWord_ne _)]; rfl
  | number _ hcs =>
    rw [count_eq_zero_of_class hdigit hcs]
    rcases h with ⟨-, rfl⟩ | ⟨-, rfl⟩ <;> rfl
  | pair hpair =>
    rw [Kind.ofPair.eq_def] at hpair
    split at hpair <;> cases hpair <;> rcases h with ⟨rfl, rfl⟩ | ⟨rfl, rfl⟩ <;> rfl
  | @symbol c =>
    by_cases hc : c = brace
    · rw [(h.ofSymbol_iff c).mpr hc, hc]
      simp
    · rw [beq_false_of_ne (mt (h.ofSymbol_iff c).mp hc)]
      simp [hc]

/-- Characters have as many braces as the tokens that are read from them. -/
theorem count_munched (h : IsBrace brace kind) {n : Nat} {cs : List Char} {ts : List Token}
    (hts : Munches n cs ts) :
  cs.count brace = ts.countP (fun t => t.kind == kind)
  := by
  obtain ⟨-, -, hlayout⟩ := h.isLetter_eq
  induction hts with
  | nil hgap => rw [count_eq_zero_of_class hlayout hgap]; rfl
  | cons hgap hspells _ _ ih =>
    rw [List.count_append, List.count_append, count_eq_zero_of_class hlayout hgap,
      h.count_spelling hspells, ih, List.countP_cons, Nat.zero_add, Nat.add_comm]

/-- The braces of one sort in a source are its tokens of their kind. -/
theorem count_source (h : IsBrace brace kind) (source : String) :
  source.toList.count brace = (tokenize source).countP (fun t => t.kind == kind)
  := by
  obtain ⟨ts, hts⟩ := exists_munches 0 source.toList
  have hend : (Kind.endOfInput == kind) = false := by
    rcases h with ⟨-, rfl⟩ | ⟨-, rfl⟩ <;> rfl
  rw [h.count_munched hts, hts.tokenize_eq, List.countP_append]
  simp [hend]

end IsBrace

/-- A source has as many opening braces as its tokens. -/
theorem count_leftBrace (source : String) :
  source.toList.count '\x7b' = (tokenize source).countP (fun t => t.kind == .leftBrace)
  := IsBrace.count_source (.inl ⟨rfl, rfl⟩) source

/-- A source has as many closing braces as its tokens. -/
theorem count_rightBrace (source : String) :
  source.toList.count '\x7d' = (tokenize source).countP (fun t => t.kind == .rightBrace)
  := IsBrace.count_source (.inr ⟨rfl, rfl⟩) source

/-- The balance of the braces in a source is that of its tokens. -/
theorem braceBalance_eq_unclosed (source : String) :
  braceBalance source = unclosed (tokenize source)
  := by
  rw [braceBalance, count_leftBrace, count_rightBrace, unclosed_eq_countP]

/-- The brace balances of texts add up. -/
theorem braceBalance_append (text text' : String) :
  braceBalance (text ++ text') = braceBalance text + braceBalance text'
  := by
  simp only [braceBalance, String.toList_append, List.count_append]
  omega

/-- Taking off characters at both ends takes off no others. -/
theorem count_trimBoth {c : Char} {p : Char → Bool} (hc : p c = false) (cs : List Char) :
  (Text.trimBoth p cs).count c = cs.count c
  := by
  have hdrop (ds : List Char) : (ds.dropWhile p).count c = ds.count c := by
    have hsplit := congrArg (List.count c) (List.takeWhile_append_dropWhile (p := p) (l := ds))
    rwa [List.count_append, count_eq_zero_of_class hc (fun _ => List.mem_takeWhile_imp),
      Nat.zero_add] at hsplit
  rw [Text.trimBoth, List.count_reverse, hdrop, List.count_reverse, hdrop]

/-- No brace is blank. -/
theorem braceBalance_strip (text : String) :
  braceBalance (Text.strip text) = braceBalance text
  := by
  rw [braceBalance, braceBalance, Text.strip, String.toList_ofList,
    count_trimBoth (by decide), count_trimBoth (by decide)]

/-! ### A brace at the end -/

/-- A closing brace does not lengthen any token. -/
theorem Kind.isLengthenedBy_rightBrace (kind : Kind) :
  kind.isLengthenedBy '\x7d' = false
  := by
  cases kind <;> rfl

/-- A closing brace at the end of a source is one more token. -/
theorem tokenize_append_rightBrace (source : String) :
  ∃ ts, tokenize source = ts ++ [.endAt source.length] ∧
    tokenize (source ++ "\x7d") =
      ts ++ [⟨.rightBrace, "\x7d", source.length⟩] ++ [.endAt (source.length + 1)]
  := by
  obtain ⟨ts, hts⟩ := exists_munches 0 source.toList
  have hspells : Kind.rightBrace.Spells ['\x7d'] := .symbol (c := '\x7d') rfl rfl rfl
  have hbrace : Munches source.length ['\x7d'] [⟨.rightBrace, "\x7d", source.length⟩] :=
    @Munches.cons _ [] _ [] _ _ (by simp) hspells (by simp) (.nil (by simp))
  have hboth : Munches 0 (source ++ "\x7d").toList
      (ts ++ [⟨.rightBrace, "\x7d", source.length⟩]) := by
    rw [String.toList_append]
    apply hts.append
    · rwa [Nat.zero_add, String.length_toList]
    · intro t _ _ c hc
      obtain rfl : '\x7d' = c := by simpa using hc
      apply Kind.isLengthenedBy_rightBrace
  refine ⟨ts, hts.tokenize_eq, ?_⟩
  rw [hboth.tokenize_eq, String.length_append]
  rfl

end MonkeySyntax
