import Mathlib.Data.List.TakeWhile
import Mathlib.Tactic.Use
import MonkeySyntax.Source.Tokens

/-!
# The spelling of tokens

`Kind.Spells kind cs` says that the characters `cs` are read as one token of a kind.  Whatever
a cursor reads is spelt in this way, and a spelling is read from the start of a source unless
the character after it lengthens the token: the next letter of a word, the next digit of a
number, the second half of a symbol of two characters.

A token is a lexeme when its text is read as the token itself.  These are the tokens with a
kind that spells their text, and the tokens of every source are lexemes.
-/

namespace MonkeySyntax

/-! ### Classes of characters -/

theorem isLayout_of_isLetter {c : Char} (h : isLetter c = true) :
  isLayout c = false
  := by
  by_contra hlayout
  simp only [isLayout, Bool.not_eq_false, Bool.or_eq_true, beq_iff_eq] at hlayout
  rcases hlayout with ((rfl | rfl) | rfl) | rfl <;> cases h

theorem isLayout_of_isDigit {c : Char} (h : isDigit c = true) :
  isLayout c = false
  := by
  by_contra hlayout
  simp only [isLayout, Bool.not_eq_false, Bool.or_eq_true, beq_iff_eq] at hlayout
  rcases hlayout with ((rfl | rfl) | rfl) | rfl <;> cases h

theorem isLetter_of_isDigit {c : Char} (h : isDigit c = true) :
  isLetter c = false
  := by
  by_contra hletter
  rw [Bool.not_eq_false] at hletter
  have hle : c.val ≤ '9'.val := of_decide_eq_true (Bool.and_eq_true_iff.mp h).2
  rcases Bool.or_eq_true_iff.mp hletter with halpha | hunderscore
  · rcases Bool.or_eq_true_iff.mp halpha with hupper | hlower
    · have hge := (of_decide_eq_true hupper).1
      apply absurd (UInt32.le_trans hge hle) (by decide)
    · have hge := of_decide_eq_true (Bool.and_eq_true_iff.mp hlower).1
      apply absurd (UInt32.le_trans hge hle) (by decide)
  · rw [beq_iff_eq] at hunderscore
    rw [hunderscore] at hle
    apply absurd hle (by decide)

/-- A character of a pair is no letter, no digit and no layout. -/
theorem classes_of_ofPair {a b : Char} {kind : Kind} (h : Kind.ofPair a b = some kind) :
  isLetter a = false ∧ isDigit a = false ∧ isLayout a = false
  := by
  rw [Kind.ofPair.eq_def] at h
  split at h
  · decide
  · decide
  · cases h

namespace Kind

/-- How the tokens of a kind are spelt. -/
inductive Spells : Kind → List Char → Prop
  | word {cs : List Char} (hne : cs ≠ []) (hcs : ∀ c ∈ cs, isLetter c = true) :
      Spells (.ofWord (String.ofList cs)) cs
  | number {cs : List Char} (hne : cs ≠ []) (hcs : ∀ c ∈ cs, isDigit c = true) :
      Spells .integer cs
  | pair {a b : Char} {kind : Kind} (h : Kind.ofPair a b = some kind) : Spells kind [a, b]
  | symbol {c : Char} (hletter : isLetter c = false) (hdigit : isDigit c = false)
      (hlayout : isLayout c = false) : Spells (.ofSymbol c) [c]

/-- Whether a token of a kind is made longer by a character after it. -/
def isLengthenedBy : Kind → Char → Bool
  | .identifier, c | .functionWord, c | .letWord, c | .trueWord, c | .falseWord, c => isLetter c
  | .ifWord, c | .elseWord, c | .returnWord, c => isLetter c
  | .integer, c => isDigit c
  | .assign, c | .bang, c => c == '='
  | _, _ => false

/-- The text of the tokens of a kind, if there is only one. -/
def spelling? : Kind → Option String
  | .illegal | .identifier | .integer => none
  | .endOfInput => some ""
  | .functionWord => some "function"
  | .letWord => some "let"
  | .trueWord => some "true"
  | .falseWord => some "false"
  | .ifWord => some "if"
  | .elseWord => some "else"
  | .returnWord => some "return"
  | kind => some kind.display

/-- A word is lengthened by letters. -/
theorem isLengthenedBy_ofWord (word : String) (c : Char) :
  (ofWord word).isLengthenedBy c = isLetter c
  := by
  rw [ofWord.eq_def]
  split <;> rfl

/-- Two characters make up no token if the second does not lengthen the first. -/
theorem ofPair_of_isLengthenedBy {a b : Char} (h : (ofSymbol a).isLengthenedBy b = false) :
  ofPair a b = none
  := by
  rw [ofPair.eq_def]
  split
  · cases h
  · cases h
  · rfl

/-- A word is of the kind of a keyword only if it is spelled like it. -/
theorem spelling_ofWord {word text : String} (h : (ofWord word).spelling? = some text) :
  word = text
  := by
  rw [ofWord.eq_def] at h
  split at h <;> cases h <;> rfl

/-- Two characters are of a kind only if they are its spelling. -/
theorem spelling_ofPair {a b : Char} {kind : Kind} {text : String} (h : ofPair a b = some kind)
    (htext : kind.spelling? = some text) :
  String.ofList [a, b] = text
  := by
  rw [ofPair.eq_def] at h
  split at h
  · cases h
    cases htext
    rfl
  · cases h
    cases htext
    rfl
  · cases h

/-- A character is of a kind only if it is its spelling. -/
theorem spelling_ofSymbol {c : Char} {text : String} (h : (ofSymbol c).spelling? = some text) :
  String.ofList [c] = text
  := by
  rw [ofSymbol.eq_def] at h
  split at h <;> cases h <;> rfl

/-- A kind with only one text spells no other. -/
theorem Spells.eq_of_spelling {kind : Kind} {cs : List Char} {text : String} (h : kind.Spells cs)
    (htext : kind.spelling? = some text) :
  String.ofList cs = text
  := by
  cases h with
  | word => apply spelling_ofWord htext
  | number => cases htext
  | pair hpair => apply spelling_ofPair hpair htext
  | symbol => apply spelling_ofSymbol htext

/-- No word is the end of the input. -/
theorem ofWord_ne_endOfInput (word : String) :
  ofWord word ≠ .endOfInput
  := by
  rw [ofWord.eq_def]
  split <;> decide

/-- No character is the end of the input. -/
theorem ofSymbol_ne_endOfInput (c : Char) :
  ofSymbol c ≠ .endOfInput
  := by
  rw [ofSymbol.eq_def]
  split <;> decide

/-- Nothing spells the end of the input. -/
theorem Spells.ne_endOfInput {kind : Kind} {cs : List Char} (h : kind.Spells cs) :
  kind ≠ .endOfInput
  := by
  cases h with
  | word => apply ofWord_ne_endOfInput
  | number => decide
  | pair hpair =>
    rintro rfl
    rw [ofPair.eq_def] at hpair
    split at hpair <;> cases hpair
  | symbol => apply ofSymbol_ne_endOfInput

/-- The integers are spelt with digits. -/
theorem Spells.isDigit {kind : Kind} {cs : List Char} (h : kind.Spells cs)
    (hkind : kind = .integer) :
  cs ≠ [] ∧ ∀ c ∈ cs, MonkeySyntax.isDigit c = true
  := by
  cases h with
  | word =>
    rw [ofWord.eq_def] at hkind
    split at hkind <;> cases hkind
  | number hne hcs => exact ⟨hne, hcs⟩
  | pair hpair =>
    subst hkind
    rw [ofPair.eq_def] at hpair
    split at hpair <;> cases hpair
  | symbol =>
    rw [ofSymbol.eq_def] at hkind
    split at hkind <;> cases hkind

/-- Only the equality and the assignment are spelt with an equals sign at the start. -/
theorem Spells.exists_first {kind : Kind} {cs : List Char} (h : kind.Spells cs) :
  ∃ c cs', cs = c :: cs' ∧ (kind ≠ .assign → kind ≠ .equal → c ≠ '=')
  := by
  cases h with
  | word hne hcs =>
    obtain ⟨c, cs', rfl⟩ := List.exists_cons_of_ne_nil hne
    use c, cs', rfl
    rintro - - rfl
    cases hcs '=' (by simp)
  | number hne hcs =>
    obtain ⟨c, cs', rfl⟩ := List.exists_cons_of_ne_nil hne
    use c, cs', rfl
    rintro - - rfl
    cases hcs '=' (by simp)
  | @pair a b kind hpair =>
    use a, [b], rfl
    rintro - hequal rfl
    rw [ofPair.eq_def] at hpair
    split at hpair
    next =>
      cases hpair
      apply hequal rfl
    next ha => exact absurd ha (by decide)
    next => cases hpair
  | @symbol c =>
    use c, [], rfl
    rintro hassign - rfl
    apply hassign rfl

end Kind

namespace Cursor

/-! ### Reading a spelling -/

/-- Skipping layout stops at a character that is none. -/
theorem skipLayout_cons {c : Char} (h : isLayout c = false) (n : Nat) (cs : List Char) :
  (ofRest n (c :: cs)).skipLayout = ofRest n (c :: cs)
  := by
  simp [skipLayout, takeRun_ofRest, h]

/-- Layout is skipped before whatever comes after it. -/
theorem skipLayout_append {gap : List Char} (hgap : ∀ c ∈ gap, isLayout c = true) (n : Nat)
    (cs : List Char) :
  (ofRest n (gap ++ cs)).skipLayout = (ofRest (n + gap.length) cs).skipLayout
  := by
  simp only [skipLayout, takeRun_ofRest, List.takeWhile_append_of_pos hgap,
    List.dropWhile_append_of_pos hgap, List.length_append, Nat.add_assoc]

/-- Layout makes no difference to the token after it. -/
theorem next_append {gap : List Char} (hgap : ∀ c ∈ gap, isLayout c = true) (n : Nat)
    (cs : List Char) :
  (ofRest n (gap ++ cs)).next = (ofRest (n + gap.length) cs).next
  := by
  rw [next, next, skipLayout_append hgap]

/-- A run of characters of a class is taken as a whole. -/
theorem takeRun_append {p : Char → Bool} {cs rest : List Char} (hcs : ∀ c ∈ cs, p c = true)
    (hrest : ∀ c ∈ rest.head?, p c = false) (n : Nat) :
  (ofRest n (cs ++ rest)).takeRun p = (String.ofList cs, ofRest (n + cs.length) rest)
  := by
  have htake : rest.takeWhile p = [] := by
    cases rest with
    | nil => rfl
    | cons c rest => simp [hrest c (by simp)]
  have hdrop : rest.dropWhile p = rest := by
    cases rest with
    | nil => rfl
    | cons c rest => simp [hrest c (by simp)]
  rw [takeRun_ofRest, List.takeWhile_append_of_pos hcs, List.dropWhile_append_of_pos hcs, htake,
    hdrop, List.append_nil]

/-- A spelling is read from the start of the characters, unless the next one lengthens it. -/
theorem next_of_spells {kind : Kind} {cs rest : List Char} (h : kind.Spells cs)
    (hrest : ∀ c ∈ rest.head?, kind.isLengthenedBy c = false) (n : Nat) :
  (ofRest n (cs ++ rest)).next = (⟨kind, String.ofList cs, n⟩, ofRest (n + cs.length) rest)
  := by
  cases h with
  | word hne hcs =>
    obtain ⟨c, cs, rfl⟩ := List.exists_cons_of_ne_nil hne
    have hc := hcs c (by simp)
    simp only [Kind.isLengthenedBy_ofWord] at hrest
    have hrun := takeRun_append hcs hrest n
    rw [List.cons_append] at hrun ⊢
    simp [next, skipLayout_cons (isLayout_of_isLetter hc), current, readLexeme, hc, readWord, hrun]
  | number hne hcs =>
    obtain ⟨c, cs, rfl⟩ := List.exists_cons_of_ne_nil hne
    have hc := hcs c (by simp)
    have hrun := takeRun_append (p := isDigit) hcs hrest n
    rw [List.cons_append] at hrun ⊢
    simp [next, skipLayout_cons (isLayout_of_isDigit hc), current, readLexeme,
      isLetter_of_isDigit hc, hc, readNumber, hrun]
  | pair hpair =>
    obtain ⟨hletter, hdigit, hlayout⟩ := classes_of_ofPair hpair
    simp [next, skipLayout_cons hlayout, current, readLexeme, hletter, hdigit, peek, hpair]
  | @symbol c hletter hdigit hlayout =>
    have hpeek : rest.head?.bind (Kind.ofPair c) = none := by
      cases rest with
      | nil => rfl
      | cons d rest => exact Kind.ofPair_of_isLengthenedBy (hrest d (by simp))
    simp [next, skipLayout_cons hlayout, current, readLexeme, hletter, hdigit, peek, hpeek]

/-- Once layout has been skipped, the current character is none. -/
theorem isLayout_head_skipLayout {c : Cursor} {ch : Char} (h : c.skipLayout.current = some ch) :
  isLayout ch = false
  := by
  have hhead := List.head?_dropWhile_not isLayout c.rest
  rw [current] at h
  simp only [skipLayout, takeRun] at h
  rw [h] at hhead
  simpa using hhead

/-- A lexeme has the spelling of its kind. -/
theorem spells_readLexeme {c : Cursor} {ch : Char} {cs : List Char} (hrest : c.rest = ch :: cs)
    (hlayout : isLayout ch = false) :
  (c.readLexeme ch).1.kind.Spells (c.readLexeme ch).1.text.toList
  := by
  rw [readLexeme]
  split
  next hletter =>
    simp only [readWord, takeRun, hrest, String.toList_ofList]
    apply Kind.Spells.word
    · simp [hletter]
    · intro d hd
      apply List.mem_takeWhile_imp hd
  next hletter =>
    split
    next hdigit =>
      simp only [readNumber, takeRun, hrest, String.toList_ofList]
      apply Kind.Spells.number
      · simp [hdigit]
      · intro d hd
        apply List.mem_takeWhile_imp hd
    next hdigit =>
      split
      next kind hpair =>
        obtain ⟨d, hd, hpair⟩ := Option.bind_eq_some_iff.mp hpair
        obtain ⟨ds, rfl⟩ : ∃ ds, cs = d :: ds := by
          rw [peek, hrest] at hd
          apply List.head?_eq_some_iff.mp hd
        simp only [hrest, String.toList_ofList, List.take]
        apply Kind.Spells.pair hpair
      next =>
        simp only [String.toList_ofList]
        apply Kind.Spells.symbol
        · simpa using hletter
        · simpa using hdigit
        · apply hlayout

/-- Whatever is read has the spelling of its kind. -/
theorem spells_of_next {c : Cursor} (h : c.next.1.kind ≠ .endOfInput) :
  c.next.1.kind.Spells c.next.1.text.toList
  := by
  rcases hch : c.skipLayout.current with _ | ch
  · simp [next, hch] at h
  · obtain ⟨cs, hrest⟩ := List.head?_eq_some_iff.mp hch
    simp only [next, hch]
    apply spells_readLexeme hrest (isLayout_head_skipLayout hch)

end Cursor

/-! ### Lexemes -/

namespace Token

/-- A token without its place: its offset is `0`. -/
def unplaced (t : Token) : Token :=
  { t with position := 0 }

@[simp]
theorem kind_unplaced (t : Token) :
  t.unplaced.kind = t.kind
  := rfl

@[simp]
theorem text_unplaced (t : Token) :
  t.unplaced.text = t.text
  := rfl

/-- Tokens are the same without places if they have the same kind and text. -/
theorem unplaced_eq_iff {t u : Token} :
  t.unplaced = u.unplaced ↔ t.kind = u.kind ∧ t.text = u.text
  := by
  simp [unplaced]

/-- The token of a kind that has only one spelling. -/
def ofKind (kind : Kind) : Token :=
  ⟨kind, kind.spelling?.getD "", 0⟩

/-- A token with the kind that is read from its text. -/
def IsLexeme (t : Token) : Prop :=
  (Cursor.ofSource t.text).next.1 = t.unplaced

instance (t : Token) : Decidable t.IsLexeme :=
  inferInstanceAs (Decidable ((Cursor.ofSource t.text).next.1 = t.unplaced))

/-- A lexeme is a token whose kind spells its text. -/
theorem isLexeme_iff {t : Token} (h : t.kind ≠ .endOfInput) :
  t.IsLexeme ↔ t.kind.Spells t.text.toList
  := by
  constructor
  · intro ht
    have hspells := Cursor.spells_of_next (c := .ofSource t.text) (by rwa [ht])
    rw [ht] at hspells
    apply hspells
  · intro ht
    have hnext : (Cursor.ofRest 0 (t.text.toList ++ [])).next = _ :=
      Cursor.next_of_spells ht (by simp) 0
    rw [List.append_nil] at hnext
    rw [IsLexeme, Cursor.ofSource, hnext, String.ofList_toList]
    rfl

end Token

/-- The end of the input is read only at the end. -/
theorem Cursor.next_of_kind {c : Cursor} (h : c.next.1.kind = .endOfInput) :
  c.next.1 = .endAt c.skipLayout.position
  := by
  rcases hch : c.skipLayout.current with _ | ch
  · simp only [next, hch]
  · exfalso
    simp only [next, hch] at h
    rw [readLexeme] at h
    split at h
    · apply Kind.ofWord_ne_endOfInput _ h
    · split at h
      · cases h
      · split at h
        next kind hpair =>
          obtain ⟨d, -, hpair⟩ := Option.bind_eq_some_iff.mp hpair
          apply (Kind.Spells.pair hpair).ne_endOfInput h
        next => apply Kind.ofSymbol_ne_endOfInput _ h

/-- The kinds with only one spelling tell the text of a lexeme. -/
theorem Token.IsLexeme.text_eq {t : Token} (h : t.IsLexeme) {kind : Kind} (hkind : t.kind = kind)
    {text : String} (htext : kind.spelling? = some text) :
  t.text = text
  := by
  subst hkind
  by_cases hend : t.kind = .endOfInput
  · have hnext : (Cursor.ofSource t.text).next.1.kind = .endOfInput := by
      rw [h]
      apply hend
    have hempty : t.text = "" := congrArg Token.text (h.symm.trans (Cursor.next_of_kind hnext))
    rw [hend] at htext
    cases htext
    apply hempty
  · have heq := ((isLexeme_iff hend).mp h).eq_of_spelling htext
    rwa [String.ofList_toList] at heq

/-- Whatever is read is a lexeme. -/
theorem Cursor.isLexeme_next (c : Cursor) :
  c.next.1.IsLexeme
  := by
  by_cases hend : c.next.1.kind = .endOfInput
  · rw [next_of_kind hend]
    rfl
  · rw [Token.isLexeme_iff hend]
    apply spells_of_next hend

/-- The tokens of a source are lexemes. -/
theorem isLexeme_of_mem_tokens {t : Token} {c : Cursor} (h : t ∈ c.tokens) :
  t.IsLexeme
  := by
  induction hn : c.rest.length using Nat.strongRecOn generalizing c with
  | ind n ih =>
    subst hn
    rw [Cursor.tokens_eq] at h
    split at h
    next =>
      obtain rfl := List.mem_singleton.mp h
      apply Cursor.isLexeme_next
    next hend =>
      rcases List.mem_cons.mp h with rfl | hmem
      · apply Cursor.isLexeme_next
      · apply ih _ (Cursor.length_rest_next_lt hend) hmem rfl

/-- The tokens of a source end with the end of the input, which is not among the others. -/
theorem Cursor.exists_tokens (c : Cursor) :
  ∃ ts position, c.tokens = ts ++ [.endAt position] ∧ ∀ t ∈ ts, t.kind ≠ .endOfInput
  := by
  induction hn : c.rest.length using Nat.strongRecOn generalizing c with
  | ind n ih =>
    subst hn
    rw [tokens_eq]
    split
    next hend =>
      rw [next_of_kind hend]
      exact ⟨[], c.skipLayout.position, rfl, by simp⟩
    next hend =>
      obtain ⟨ts, position, htokens, hts⟩ := ih _ (length_rest_next_lt hend) c.next.2 rfl
      use c.next.1 :: ts, position
      rw [htokens]
      constructor
      · rfl
      · intro t ht
        rcases List.mem_cons.mp ht with rfl | hmem
        · apply hend
        · apply hts t hmem

/-! ### The tokens of a text -/

/-- The tokens that are read from characters, wherever they stand in a source. -/
def Lexes (cs : List Char) (ts : List Token) : Prop :=
  ∀ n : Nat, (Cursor.ofRest n cs).tokens.map Token.unplaced = ts

namespace Lexes

variable {rest : List Char} {ts : List Token}

/-- Where there are no characters, the only token is the end of the input. -/
theorem nil :
  Lexes [] [.endAt 0]
  := by
  intro n
  rw [Cursor.tokens_eq]
  rfl

/-- Layout is passed over. -/
theorem gap {gap : List Char} (hgap : ∀ c ∈ gap, isLayout c = true) (h : Lexes rest ts) :
  Lexes (gap ++ rest) ts
  := by
  intro n
  rw [Cursor.tokens_eq, Cursor.next_append hgap, ← Cursor.tokens_eq]
  apply h

/-- A character of layout makes no difference to the tokens. -/
theorem layout {c : Char} (hc : isLayout c = true) (h : Lexes rest ts) :
  Lexes (c :: rest) ts
  := by
  have hgap : ∀ d ∈ [c], isLayout d = true := by simpa using hc
  apply h.gap hgap

/-- A spelling is read as a token, before the tokens of the characters that follow. -/
theorem spelling {kind : Kind} {cs : List Char} (hspells : kind.Spells cs)
    (hrest : ∀ c ∈ rest.head?, kind.isLengthenedBy c = false) (h : Lexes rest ts) :
  Lexes (cs ++ rest) (⟨kind, String.ofList cs, 0⟩ :: ts)
  := by
  intro n
  rw [Cursor.tokens_eq, Cursor.next_of_spells hspells hrest n]
  rw [if_neg hspells.ne_endOfInput, List.map_cons, h]
  rfl

/-- A lexeme is read as itself. -/
theorem lexeme {t : Token} (ht : t.IsLexeme) (hend : t.kind ≠ .endOfInput)
    (hrest : ∀ c ∈ rest.head?, t.kind.isLengthenedBy c = false) (h : Lexes rest ts) :
  Lexes (t.text.toList ++ rest) (t.unplaced :: ts)
  := by
  have hspells := (Token.isLexeme_iff hend).mp ht
  have hlexes := h.spelling hspells hrest
  rwa [String.ofList_toList] at hlexes

/-- The token of a kind is read from its only spelling. -/
theorem ofKind {kind : Kind} {text : String} (htext : kind.spelling? = some text)
    (hspells : kind.Spells text.toList)
    (hrest : ∀ c ∈ rest.head?, kind.isLengthenedBy c = false) (h : Lexes rest ts) :
  Lexes (text.toList ++ rest) (.ofKind kind :: ts)
  := by
  have hlexes := h.spelling hspells hrest
  rw [String.ofList_toList] at hlexes
  rwa [Token.ofKind, htext]

/-- Punctuation is read as a token by itself. -/
theorem punctuation {c : Char} (hc : c ∈ ['(', ')', '\x7b', '\x7d', ',', ';'])
    (h : Lexes rest ts) :
  Lexes (c :: rest) (.ofKind (.ofSymbol c) :: ts)
  := by
  have hsymbol : isLetter c = false ∧ isDigit c = false ∧ isLayout c = false ∧
      (Kind.ofSymbol c).spelling? = some (String.ofList [c]) ∧
      ∀ d, (Kind.ofSymbol c).isLengthenedBy d = false := by
    simp only [List.mem_cons, List.not_mem_nil, or_false] at hc
    rcases hc with rfl | rfl | rfl | rfl | rfl | rfl
    all_goals exact ⟨rfl, rfl, rfl, rfl, fun _ => rfl⟩
  obtain ⟨hletter, hdigit, hlayout, htext, hlengthened⟩ := hsymbol
  have hspells : (Kind.ofSymbol c).Spells (String.ofList [c]).toList := by
    rw [String.toList_ofList]
    exact .symbol hletter hdigit hlayout
  have hlexes := h.ofKind htext hspells (fun d _ => hlengthened d)
  rwa [String.toList_ofList] at hlexes

end Lexes

end MonkeySyntax
