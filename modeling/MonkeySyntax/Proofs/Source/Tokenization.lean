import Mathlib.Logic.Function.Iterate
import MonkeySyntax.Proofs.Source.Spelling

/-!
# Tokenizations

A tokenization of a source accounts for every character of it.  Its tokens stand at their
offsets, one after the other, and end with the end of the input; whatever is between them is
layout; each has the spelling of its kind, and is not lengthened by the character after it.
A source has exactly one tokenization, the tokens that are read from it.

`Munches n cs ts` describes the same tokens from left to right, and is what the proofs go by:
layout, the spelling of a token, and the same again for the characters after it.
-/

namespace MonkeySyntax

/-! ### Spellings at the start -/

namespace Kind

/-- A symbol is not lengthened by a character with which it forms no pair. -/
theorem isLengthenedBy_ofSymbol {a b : Char} (h : ofPair a b = none) :
  (ofSymbol a).isLengthenedBy b = false
  := by
  rw [ofSymbol.eq_def]
  split
  case h_1 =>
    by_contra hb
    rw [Bool.not_eq_false] at hb
    obtain rfl := beq_iff_eq.mp hb
    cases h
  case h_4 =>
    by_contra hb
    rw [Bool.not_eq_false] at hb
    obtain rfl := beq_iff_eq.mp hb
    cases h
  all_goals rfl

/-- A pair is not lengthened by any character. -/
theorem isLengthenedBy_ofPair {a b : Char} {kind : Kind} (h : ofPair a b = some kind) (c : Char) :
  kind.isLengthenedBy c = false
  := by
  rw [ofPair.eq_def] at h
  split at h
  · cases h
    rfl
  · cases h
    rfl
  · cases h

/-- Layout does not lengthen any token. -/
theorem isLengthenedBy_of_isLayout {c : Char} (h : isLayout c = true) (kind : Kind) :
  kind.isLengthenedBy c = false
  := by
  have hletter : isLetter c = false := by
    by_contra hletter
    rw [isLayout_of_isLetter ((Bool.not_eq_false _).mp hletter)] at h
    cases h
  have hdigit : MonkeySyntax.isDigit c = false := by
    by_contra hdigit
    rw [isLayout_of_isDigit ((Bool.not_eq_false _).mp hdigit)] at h
    cases h
  have hequals : (c == '=') = false := by
    rw [beq_eq_false_iff_ne]
    rintro rfl
    cases h
  cases kind <;> first | rfl | apply hletter | apply hdigit | apply hequals

/-- There is no layout in the spelling of a token. -/
theorem Spells.isLayout {kind : Kind} {cs : List Char} (h : kind.Spells cs) :
  ∀ c ∈ cs, MonkeySyntax.isLayout c = false
  := by
  intro c hc
  cases h with
  | word _ hcs => apply isLayout_of_isLetter (hcs c hc)
  | number _ hcs => apply isLayout_of_isDigit (hcs c hc)
  | pair hpair =>
    rw [ofPair.eq_def] at hpair
    split at hpair
    · simp only [List.mem_cons, List.not_mem_nil, or_false, or_self] at hc
      rw [hc]
      rfl
    · simp only [List.mem_cons, List.not_mem_nil, or_false] at hc
      rcases hc with rfl | rfl <;> rfl
    · cases hpair
  | symbol _ _ hlayout =>
    obtain rfl := List.mem_singleton.mp hc
    apply hlayout

/-- The spelling of a token has a character. -/
theorem Spells.ne_nil {kind : Kind} {cs : List Char} (h : kind.Spells cs) :
  cs ≠ []
  := by
  obtain ⟨c, cs', rfl, -⟩ := h.exists_first
  simp

/-- Whatever is no layout starts with a spelling, which is not lengthened by what follows. -/
theorem exists_spells {c : Char} (hlayout : MonkeySyntax.isLayout c = false) (cs : List Char) :
  ∃ kind text rest, c :: cs = text ++ rest ∧ Spells kind text ∧
    ∀ d ∈ rest.head?, kind.isLengthenedBy d = false
  := by
  have hrun (p : Char → Bool) : ∀ d ∈ ((c :: cs).dropWhile p).head?, p d = false := by
    intro d hd
    have hhead := List.head?_dropWhile_not p (c :: cs)
    rw [hd] at hhead
    simpa using hhead
  by_cases hletter : isLetter c = true
  · refine ⟨_, (c :: cs).takeWhile isLetter, (c :: cs).dropWhile isLetter,
      List.takeWhile_append_dropWhile.symm, .word ?_ (fun _ => List.mem_takeWhile_imp), ?_⟩
    · simp [hletter]
    · simp only [isLengthenedBy_ofWord]
      apply hrun
  · by_cases hdigit : MonkeySyntax.isDigit c = true
    · refine ⟨_, (c :: cs).takeWhile MonkeySyntax.isDigit, (c :: cs).dropWhile MonkeySyntax.isDigit,
        List.takeWhile_append_dropWhile.symm, .number ?_ (fun _ => List.mem_takeWhile_imp), ?_⟩
      · simp [hdigit]
      · apply hrun
    · have hsymbol : Spells (ofSymbol c) [c] :=
        .symbol (eq_false_of_ne_true hletter) (eq_false_of_ne_true hdigit) hlayout
      cases cs with
      | nil => exact ⟨_, [c], [], rfl, hsymbol, by simp⟩
      | cons d cs =>
        rcases hpair : ofPair c d with _ | kind
        · refine ⟨_, [c], d :: cs, rfl, hsymbol, ?_⟩
          simpa using isLengthenedBy_ofSymbol hpair
        · exact ⟨kind, [c, d], cs, rfl, .pair hpair, fun e _ => isLengthenedBy_ofPair hpair e⟩

end Kind

/-! ### Munching -/

/-- The tokens that are read from the characters `cs`, the first of which is at the offset `n`,
up to the end of the input. -/
inductive Munches : Nat → List Char → List Token → Prop
  | nil {n : Nat} {gap : List Char} (hgap : ∀ c ∈ gap, isLayout c = true) : Munches n gap []
  | cons {n : Nat} {gap text rest : List Char} {kind : Kind} {ts : List Token}
      (hgap : ∀ c ∈ gap, isLayout c = true) (hspells : kind.Spells text)
      (hrest : ∀ c ∈ rest.head?, kind.isLengthenedBy c = false)
      (h : Munches (n + gap.length + text.length) rest ts) :
      Munches n (gap ++ (text ++ rest)) (⟨kind, String.ofList text, ↑(n + gap.length)⟩ :: ts)

/-- All characters are munched. -/
theorem exists_munches (n : Nat) (cs : List Char) :
  ∃ ts, Munches n cs ts
  := by
  induction hlength : cs.length using Nat.strongRecOn generalizing n cs with
  | ind length ih =>
    subst hlength
    have hgap : ∀ c ∈ cs.takeWhile isLayout, isLayout c = true :=
      fun _ => List.mem_takeWhile_imp
    rcases hcs : cs.dropWhile isLayout with _ | ⟨c, cs'⟩
    · use []
      apply Munches.nil
      simpa using hcs
    · have hlayout : isLayout c = false := by
        have hhead := List.head?_dropWhile_not isLayout cs
        rw [hcs] at hhead
        simpa using hhead
      obtain ⟨kind, text, rest, htext, hspells, hrest⟩ := Kind.exists_spells hlayout cs'
      have hsplit : cs.takeWhile isLayout ++ (text ++ rest) = cs := by
        rw [← htext, ← hcs, List.takeWhile_append_dropWhile]
      have hpos := List.length_pos_iff.mpr hspells.ne_nil
      have hlt : rest.length < cs.length := by
        rw [← hsplit, List.length_append, List.length_append]
        omega
      obtain ⟨ts, hts⟩ := ih _ hlt (n + (cs.takeWhile isLayout).length + text.length) rest rfl
      have hmunches := Munches.cons hgap hspells hrest hts
      rw [hsplit] at hmunches
      exact ⟨_, hmunches⟩

/-- Before nothing but layout the next token is the end of the input. -/
theorem Cursor.next_of_gap (n : Nat) {gap : List Char} (hgap : ∀ c ∈ gap, isLayout c = true) :
  (Cursor.ofRest n gap).next = (.endAt ↑(n + gap.length), .ofRest (n + gap.length) [])
  := by
  rw [← List.append_nil gap, Cursor.next_append hgap]
  simp [Cursor.next, Cursor.skipLayout, Cursor.takeRun_ofRest, Cursor.current]

namespace Munches

variable {n : Nat} {cs : List Char} {ts : List Token}

/-- The tokens from a cursor on are those that are munched, and the end of the input. -/
theorem tokens_eq (h : Munches n cs ts) :
  (Cursor.ofRest n cs).tokens = ts ++ [.endAt ↑(n + cs.length)]
  := by
  induction h with
  | nil hgap =>
    rw [Cursor.tokens_eq, Cursor.next_of_gap _ hgap]
    rfl
  | @cons n gap text rest kind ts hgap hspells hrest h ih =>
    rw [Cursor.tokens_eq, Cursor.next_append hgap, Cursor.next_of_spells hspells hrest,
      if_neg hspells.ne_endOfInput, ih]
    simp [Nat.add_assoc]

/-- There is no token in layout, and only there. -/
theorem eq_nil_iff (h : Munches n cs ts) :
  ts = [] ↔ ∀ c ∈ cs, isLayout c = true
  := by
  constructor
  · rintro rfl
    cases h with
    | nil hgap => exact hgap
  · intro hlayout
    have htokens := h.tokens_eq.symm.trans (Munches.nil hlayout).tokens_eq
    rwa [List.append_cancel_right_eq] at htokens

/-- What is munched is read, wherever it stands. -/
theorem lexes (h : Munches n cs ts) :
  Lexes cs (ts.map Token.unplaced ++ [.endAt 0])
  := by
  induction h with
  | nil hgap =>
    have hlexes := Lexes.nil.gap hgap
    rwa [List.append_nil] at hlexes
  | cons hgap hspells hrest h ih => apply (ih.spelling hspells hrest).gap hgap

end Munches

/-! ### Accounting for every character -/

namespace Token

/-- The offset after the text of a token. -/
def limit (t : Token) : Int :=
  t.position + t.text.length

/-- A token stands at its offset among characters of which the first is at the offset `n`, with
the spelling of its kind, and is not lengthened by the character after it. -/
def StandsIn (n : Nat) (cs : List Char) (t : Token) : Prop :=
  ∃ before after, cs = before ++ (t.text.toList ++ after) ∧
    t.position = ↑(n + before.length) ∧ t.kind.Spells t.text.toList ∧
      ∀ c ∈ after.head?, t.kind.isLengthenedBy c = false

end Token

/-- The tokens `ts` stand one after the other among the characters `cs`, of which the first is
at the offset `n`, and all other characters are layout. -/
structure Accounts (n : Nat) (cs : List Char) (ts : List Token) : Prop where
  stands : ∀ t ∈ ts, t.StandsIn n cs
  ordered : ts.Pairwise (fun t u => t.limit ≤ u.position)
  layout : ∀ i c, cs[i]? = some c →
    isLayout c = true ∨ ∃ t ∈ ts, t.position ≤ ↑(n + i) ∧ ↑(n + i) < t.limit

namespace Token

variable {n : Nat} {cs : List Char} {t : Token}

/-- A token stands no earlier than the characters it stands in. -/
theorem StandsIn.le_position (h : t.StandsIn n cs) :
  ↑n ≤ t.position
  := by
  obtain ⟨before, after, -, hposition, -⟩ := h
  omega

/-- The text of a token that stands somewhere has a character. -/
theorem StandsIn.position_lt_limit (h : t.StandsIn n cs) :
  t.position < t.limit
  := by
  obtain ⟨before, after, -, -, hspells, -⟩ := h
  have hpos := List.length_pos_iff.mpr hspells.ne_nil
  rw [String.length_toList] at hpos
  rw [limit]
  omega

/-- A token ends no later than the characters it stands in. -/
theorem StandsIn.limit_le (h : t.StandsIn n cs) :
  t.limit ≤ ↑(n + cs.length)
  := by
  obtain ⟨before, after, rfl, hposition, -⟩ := h
  rw [limit, hposition, List.length_append, List.length_append, String.length_toList]
  omega

/-- A token stands at its offset with more characters before those among which it stands. -/
theorem StandsIn.append {before : List Char} (h : t.StandsIn (n + before.length) cs) :
  t.StandsIn n (before ++ cs)
  := by
  obtain ⟨before', after, rfl, hposition, hspells, hafter⟩ := h
  refine ⟨before ++ before', after, by simp, ?_, hspells, hafter⟩
  rw [hposition, List.length_append, Nat.add_assoc]

/-- A token stands at its offset without the characters before it. -/
theorem StandsIn.of_append {before : List Char} (h : t.StandsIn n (before ++ cs))
    (hposition : ↑(n + before.length) ≤ t.position) :
  t.StandsIn (n + before.length) cs
  := by
  obtain ⟨before', after, hcs, hposition', hspells, hafter⟩ := h
  have hprefix : before <+: before' := by
    apply List.prefix_of_prefix_length_le (List.prefix_append before cs)
    · rw [hcs]
      apply List.prefix_append
    · omega
  obtain ⟨between, rfl⟩ := hprefix
  rw [List.append_assoc, List.append_cancel_left_eq] at hcs
  refine ⟨between, after, hcs, ?_, hspells, hafter⟩
  rw [hposition', List.length_append, Nat.add_assoc]

end Token

/-- What is munched accounts for every character. -/
theorem Munches.accounts {n : Nat} {cs : List Char} {ts : List Token} (h : Munches n cs ts) :
  Accounts n cs ts
  := by
  induction h with
  | nil hgap => exact ⟨by simp, .nil, fun i c hc => .inl (hgap c (List.mem_of_getElem? hc))⟩
  | @cons n gap text rest kind ts hgap hspells hrest h ih =>
    have hlimit : (Token.mk kind (String.ofList text) ↑(n + gap.length)).limit =
        ↑(n + gap.length + text.length) := by
      simp [Token.limit]
    have hstands : ∀ u ∈ ts, u.StandsIn n (gap ++ (text ++ rest)) :=
      fun u hu => (ih.stands u hu).append.append
    constructor
    · rw [List.forall_mem_cons]
      refine ⟨⟨gap, rest, ?_, rfl, ?_, hrest⟩, hstands⟩
      · simp
      · simpa using hspells
    · apply List.Pairwise.cons _ ih.ordered
      intro u hu
      rw [hlimit]
      apply (ih.stands u hu).le_position
    · intro i c hc
      rcases Nat.lt_or_ge i gap.length with hi | hi
      · rw [List.getElem?_append_left hi] at hc
        exact .inl (hgap c (List.mem_of_getElem? hc))
      · rw [List.getElem?_append_right hi] at hc
        rcases Nat.lt_or_ge (i - gap.length) text.length with hi' | hi'
        · refine .inr ⟨_, List.mem_cons_self, ?_⟩
          rw [hlimit]
          dsimp only
          omega
        · rw [List.getElem?_append_right hi'] at hc
          rcases ih.layout _ c hc with hlayout | ⟨u, hu, hcovers⟩
          · exact .inl hlayout
          · refine .inr ⟨u, List.mem_cons_of_mem _ hu, ?_⟩
            omega

/-- Layout before characters that are munched is passed over. -/
theorem Munches.gap {n : Nat} {gap cs : List Char} {ts : List Token}
    (h : Munches (n + gap.length) cs ts) (hgap : ∀ c ∈ gap, isLayout c = true) :
  Munches n (gap ++ cs) ts
  := by
  cases h with
  | nil hgap' => exact .nil (List.forall_mem_append.mpr ⟨hgap, hgap'⟩)
  | @cons _ gap' text rest kind ts hgap' hspells hrest h =>
    have hlength : n + gap.length + gap'.length = n + (gap ++ gap').length := by
      rw [List.length_append, Nat.add_assoc]
    rw [hlength] at h ⊢
    rw [← List.append_assoc]
    exact .cons (List.forall_mem_append.mpr ⟨hgap, hgap'⟩) hspells hrest h

/-- What is munched from one list of characters after another, if no token at the end of the first
is lengthened by the second. -/
theorem Munches.append {n : Nat} {cs cs' : List Char} {ts ts' : List Token} (h : Munches n cs ts)
    (h' : Munches (n + cs.length) cs' ts')
    (hjoin : ∀ t ∈ ts, t.limit = ↑(n + cs.length) →
      ∀ c ∈ cs'.head?, t.kind.isLengthenedBy c = false) :
  Munches n (cs ++ cs') (ts ++ ts')
  := by
  induction h with
  | nil hgap => apply h'.gap hgap
  | @cons n gap text rest kind ts hgap hspells hrest h ih =>
    have hlength : n + (gap ++ (text ++ rest)).length =
        n + gap.length + text.length + rest.length := by
      simp [Nat.add_assoc]
    rw [hlength, List.forall_mem_cons] at hjoin
    obtain ⟨hfirst, hjoin⟩ := hjoin
    rw [hlength] at h'
    rw [List.append_assoc, List.append_assoc]
    apply Munches.cons hgap hspells _ (ih h' hjoin)
    cases rest with
    | nil =>
      apply hfirst
      simp [Token.limit]
    | cons c rest => apply hrest

/-- A token moved towards the end by a number of characters. -/
def Token.shift (k : Nat) (t : Token) : Token :=
  { t with position := t.position + k }

/-- Characters that stand further on are munched alike, and their tokens are moved. -/
theorem Munches.shift {n : Nat} {cs : List Char} {ts : List Token} (h : Munches n cs ts)
    (k : Nat) :
  Munches (n + k) cs (ts.map (Token.shift k))
  := by
  induction h with
  | nil hgap => apply Munches.nil hgap
  | @cons n gap text rest kind ts hgap hspells hrest h ih =>
    have htoken : Token.shift k ⟨kind, String.ofList text, ↑(n + gap.length)⟩ =
        ⟨kind, String.ofList text, ↑(n + k + gap.length)⟩ := by
      rw [Token.shift, Token.mk.injEq]
      refine ⟨rfl, rfl, ?_⟩
      dsimp only
      omega
    rw [List.map_cons, htoken]
    apply Munches.cons hgap hspells hrest
    rwa [show n + k + gap.length + text.length = n + gap.length + text.length + k by omega]

/-- Tokens that account for every character are munched.  Before the first token there is only
layout, since the other tokens start after it. -/
theorem Accounts.munches {n : Nat} {cs : List Char} {ts : List Token} (h : Accounts n cs ts) :
  Munches n cs ts
  := by
  induction ts generalizing n cs with
  | nil =>
    apply Munches.nil
    intro c hc
    obtain ⟨i, hi⟩ := List.mem_iff_getElem?.mp hc
    simpa using h.layout i c hi
  | cons t ts ih =>
    obtain ⟨hstands, hrest⟩ := List.forall_mem_cons.mp h.stands
    obtain ⟨hafter, hordered⟩ := List.pairwise_cons.mp h.ordered
    obtain ⟨before, after, rfl, hposition, hspells, hlengthened⟩ := hstands
    have hlimit : t.limit = ↑(n + before.length + t.text.toList.length) := by
      rw [Token.limit, hposition, String.length_toList, ← Int.natCast_add]
    have hgap : ∀ c ∈ before, isLayout c = true := by
      intro c hc
      obtain ⟨i, hi⟩ := List.mem_iff_getElem?.mp hc
      obtain ⟨hlt, -⟩ := List.getElem?_eq_some_iff.mp hi
      rw [← List.getElem?_append_left hlt] at hi
      rcases h.layout i c hi with hlayout | ⟨u, hu, hle, -⟩
      · apply hlayout
      · rcases List.mem_cons.mp hu with rfl | hu
        · omega
        · have hu' := hafter u hu
          omega
    have hmunches : Munches (n + before.length + t.text.toList.length) after ts := by
      apply ih
      constructor
      · intro u hu
        have hu' := hafter u hu
        have hbefore : (↑(n + before.length) : Int) ≤ u.position := by omega
        apply ((hrest u hu).of_append hbefore).of_append
        omega
      · apply hordered
      · intro i c hi
        have hi' : (before ++ (t.text.toList ++ after))[before.length +
            (t.text.toList.length + i)]? = some c := by
          rwa [List.getElem?_append_right (by omega), List.getElem?_append_right (by omega),
            Nat.add_sub_cancel_left, Nat.add_sub_cancel_left]
        rcases h.layout _ c hi' with hlayout | ⟨u, hu, hcovers⟩
        · exact .inl hlayout
        · rcases List.mem_cons.mp hu with rfl | hu
          · omega
          · refine .inr ⟨u, hu, ?_⟩
            omega
    have hcons := Munches.cons hgap hspells hlengthened hmunches
    rw [String.ofList_toList, ← hposition] at hcons
    apply hcons

/-- Tokens that account for every character of a source, and the end of the input. -/
def IsTokenization (source : String) (ts : List Token) : Prop :=
  ∃ us, ts = us ++ [.endAt source.length] ∧ Accounts 0 source.toList us

/-- The tokens of a source are those that are munched, and the end of the input. -/
theorem Munches.tokenize_eq {source : String} {ts : List Token}
    (h : Munches 0 source.toList ts) :
  tokenize source = ts ++ [.endAt source.length]
  := by
  rw [tokenize, Cursor.ofSource, h.tokens_eq, Nat.zero_add, String.length_toList]

/-- The tokens from a place of a source on are those of the rest as a source by itself, moved. -/
theorem Cursor.tokens_eq_shift (n : Nat) (cs : List Char) :
  (Cursor.ofRest n cs).tokens = (tokenize (String.ofList cs)).map (Token.shift n)
  := by
  obtain ⟨ts, hts⟩ := exists_munches 0 cs
  have hmoved := hts.shift n
  rw [Nat.zero_add] at hmoved
  have hend : Token.shift n (.endAt ↑cs.length) = .endAt ↑(n + cs.length) := by
    simp [Token.shift, Token.endAt, Int.add_comm]
  have hrest : Munches 0 (String.ofList cs).toList ts := by rwa [String.toList_ofList]
  rw [hmoved.tokens_eq, hrest.tokenize_eq, String.length_ofList, List.map_append,
    List.map_singleton, hend]

/-- The tokens that are munched are those that are read one by one, and after them the end of the
input is read for ever. -/
theorem Munches.get_eq_next {n : Nat} {cs : List Char} {ts : List Token} (h : Munches n cs ts)
    (i : Nat) :
  (TokenStream.mk (ts ++ [.endAt ↑(n + cs.length)]) ↑(n + cs.length)).get i =
    ((fun c : Cursor => c.next.2)^[i] (.ofRest n cs)).next.1
  := by
  induction h generalizing i with
  | @nil n gap hgap =>
    have hnext := Cursor.next_of_gap n hgap
    cases i with
    | zero => rw [Function.iterate_zero, id, hnext, TokenStream.get_zero]; rfl
    | succ i =>
      have hend := Cursor.next_of_gap (n + gap.length) (List.forall_mem_nil _)
      have hfixed : (fun c : Cursor => c.next.2)^[i] (.ofRest (n + gap.length) []) =
          .ofRest (n + gap.length) [] := by
        apply Function.iterate_fixed
        rw [hend]
        rfl
      rw [Function.iterate_succ_apply, hnext, hfixed, hend, TokenStream.get_of_length_le (by simp)]
      rfl
  | @cons n gap text rest kind ts hgap hspells hrest h ih =>
    have hnext := Cursor.next_append hgap n (text ++ rest)
    rw [Cursor.next_of_spells hspells hrest] at hnext
    have hstop : n + (gap ++ (text ++ rest)).length =
        n + gap.length + text.length + rest.length := by
      simp [Nat.add_assoc]
    rw [hstop]
    cases i with
    | zero => rw [Function.iterate_zero, id, hnext, TokenStream.get_zero]; rfl
    | succ i =>
      rw [Function.iterate_succ_apply, hnext, ← ih i]
      rfl

/-- The stream of a source has the tokens that are read from it one by one. -/
theorem TokenStream.get_ofSource (source : String) (i : Nat) :
  (TokenStream.ofSource source).get i =
    ((fun c : Cursor => c.next.2)^[i] (.ofSource source)).next.1
  := by
  obtain ⟨ts, hts⟩ := exists_munches 0 source.toList
  have hget := hts.get_eq_next i
  rwa [Nat.zero_add, String.length_toList, ← hts.tokenize_eq] at hget

/-- The tokens that are read from a source are its only tokenization. -/
theorem isTokenization_iff (source : String) (ts : List Token) :
  IsTokenization source ts ↔ ts = tokenize source
  := by
  constructor
  · rintro ⟨us, rfl, haccounts⟩
    rw [haccounts.munches.tokenize_eq]
  · rintro rfl
    obtain ⟨us, hus⟩ := exists_munches 0 source.toList
    exact ⟨us, hus.tokenize_eq, hus.accounts⟩

end MonkeySyntax
