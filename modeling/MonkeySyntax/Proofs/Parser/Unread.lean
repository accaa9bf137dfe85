import Mathlib.Data.List.TakeWhile
import MonkeySyntax.Proofs.Source.Spelling
import MonkeySyntax.Proofs.Parser.Conduct

/-!
# What a parser has yet to read

The proper tokens of a stream are those before the first end of the input.  A stream is
settled when only the end of the input comes after them, as in the streams of lists without
such tokens, and in the streams of sources.  `Parser.unread` lists the proper tokens of the
stream of a parser: the current token and those after it.
-/

namespace MonkeySyntax

/-- The kind of the first token of a list, and the end of the input for no token. -/
def firstKind (ts : List Token) : Kind :=
  (ts.head?.map Token.kind).getD .endOfInput

@[simp]
theorem firstKind_nil :
  firstKind [] = .endOfInput
  := rfl

@[simp]
theorem firstKind_cons (t : Token) (ts : List Token) :
  firstKind (t :: ts) = t.kind
  := rfl

namespace TokenStream

/-- The tokens before the first end of the input. -/
def proper (s : TokenStream) : List Token :=
  s.tokens.takeWhile (fun t => t.kind != .endOfInput)

/-- After the first end of the input there is nothing else. -/
def IsSettled (s : TokenStream) : Prop :=
  ∀ t ∈ s.tokens.dropWhile (fun t => t.kind != .endOfInput), t.kind = .endOfInput

/-- A stream starts with a token of the kind that its proper tokens start with. -/
theorem kind_head (s : TokenStream) :
  s.head.kind = firstKind s.proper
  := by
  obtain ⟨tokens, stop⟩ := s
  cases tokens with
  | nil => rfl
  | cons t ts =>
    by_cases h : t.kind = .endOfInput
    · simp [head, proper, h]
    · simp [head, proper, h]

/-- The first token is one of the list, unless it is the end of the input. -/
theorem head_mem {s : TokenStream} (h : s.head.kind ≠ .endOfInput) :
  s.head ∈ s.tokens
  := by
  obtain ⟨tokens, stop⟩ := s
  cases tokens with
  | nil => cases h rfl
  | cons t ts => apply List.mem_cons_self

/-- No proper token is the end of the input. -/
theorem kind_of_mem_proper {s : TokenStream} {t : Token} (h : t ∈ s.proper) :
  t.kind ≠ .endOfInput
  := by
  have hkind := List.mem_takeWhile_imp h
  simpa using hkind

/-- A stream that does not start with the end of the input starts with a proper token. -/
theorem proper_of_kind_head {s : TokenStream} (h : s.head.kind ≠ .endOfInput) :
  s.proper = s.head :: s.tail.proper
  := by
  obtain ⟨tokens, stop⟩ := s
  cases tokens with
  | nil => simp [head] at h
  | cons t ts =>
    have ht : t.kind ≠ .endOfInput := h
    simp [head, tail, proper, ht]

/-- Past the first end of the input there are no proper tokens. -/
theorem IsSettled.proper_tail {s : TokenStream} (hs : s.IsSettled)
    (h : s.head.kind = .endOfInput) :
  s.tail.proper = []
  := by
  obtain ⟨tokens, stop⟩ := s
  cases tokens with
  | nil => rfl
  | cons t ts =>
    have ht : t.kind = .endOfInput := h
    cases ts with
    | nil => rfl
    | cons u us =>
      have hu := hs u
      simp [ht] at hu
      simp [tail, proper, hu]

/-- A stream that has settled down has done so without its first token. -/
theorem IsSettled.tail {s : TokenStream} (hs : s.IsSettled) :
  s.tail.IsSettled
  := by
  obtain ⟨tokens, stop⟩ := s
  cases tokens with
  | nil => apply hs
  | cons t ts =>
    intro u hu
    apply hs u
    by_cases ht : t.kind = .endOfInput
    · have hmem : u ∈ ts := (List.dropWhile_suffix _).subset hu
      simp [ht, hmem]
    · simp only [ht, List.dropWhile_cons, bne_iff_ne, ne_eq, not_false_eq_true, if_true]
      apply hu

/-- A stream that has settled down has done so without its first tokens. -/
theorem IsSettled.drop {s : TokenStream} (hs : s.IsSettled) (n : Nat) :
  (s.drop n).IsSettled
  := by
  induction n generalizing s with
  | zero => apply hs
  | succ n ih =>
    rw [Nat.add_comm, ← drop_drop, drop_one]
    apply ih hs.tail

/-- Tokens without an end of the input are the proper tokens of their stream. -/
theorem proper_ofList {ts : List Token} (h : ∀ t ∈ ts, t.kind ≠ .endOfInput) :
  (ofList ts).proper = ts
  := List.takeWhile_eq_self_iff.mpr (by simpa [ofList] using h)

/-- The stream of tokens without an end of the input has settled down. -/
theorem isSettled_ofList {ts : List Token} (h : ∀ t ∈ ts, t.kind ≠ .endOfInput) :
  (ofList ts).IsSettled
  := by
  intro t ht
  have hdrop : ts.dropWhile (fun t => t.kind != .endOfInput) = [] :=
    List.dropWhile_eq_nil_iff.mpr (by simpa using h)
  simp [ofList, hdrop] at ht

/-- In the stream of a source the proper tokens come before the one end of the input. -/
theorem exists_tokens_ofSource (source : String) :
  ∃ position, (ofSource source).tokens = (ofSource source).proper ++ [.endAt position]
  := by
  obtain ⟨ts, position, htokens, hts⟩ := (Cursor.ofSource source).exists_tokens
  have hstream : (ofSource source).tokens = ts ++ [.endAt position] := htokens
  have hproper : (ofSource source).proper = ts := by
    rw [proper, hstream, List.takeWhile_append_of_pos (by simpa using hts)]
    simp
  exact ⟨position, by rw [hproper, hstream]⟩

/-- The stream of a source has settled down, since it ends with the only end of the input. -/
theorem isSettled_ofSource (source : String) :
  (ofSource source).IsSettled
  := by
  obtain ⟨ts, position, htokens, hts⟩ := (Cursor.ofSource source).exists_tokens
  have hstream : (ofSource source).tokens = ts ++ [.endAt position] := htokens
  intro t ht
  rw [hstream, List.dropWhile_append_of_pos (by simpa using hts)] at ht
  obtain rfl : t = .endAt position := by simpa using ht
  rfl

end TokenStream

namespace Parser

/-- The proper tokens from the current one on. -/
def unread (p : Parser) : List Token :=
  p.stream.proper

/-- The current token is of the kind that the unread tokens start with. -/
theorem kind_current (p : Parser) :
  p.current.kind = firstKind p.unread
  := p.stream.kind_head

@[simp]
theorem current_advance (p : Parser) :
  p.advance.current = p.next
  := rfl

theorem kind_next (p : Parser) :
  p.next.kind = firstKind p.advance.unread
  := p.advance.kind_current

@[simp]
theorem nextIs_iff (kind : Kind) (p : Parser) :
  p.nextIs kind = true ↔ p.next.kind = kind
  := by
  simp [nextIs]

@[simp]
theorem currentIs_iff (kind : Kind) (p : Parser) :
  p.currentIs kind = true ↔ p.current.kind = kind
  := by
  simp [currentIs]

/-- The current token is the first of the unread ones, unless it is the end of the input. -/
theorem unread_of_kind_current {p : Parser} (h : p.current.kind ≠ .endOfInput) :
  p.unread = p.current :: p.advance.unread
  := TokenStream.proper_of_kind_head h

/-- A current token of a kind other than the end is the first of the unread ones. -/
theorem unread_of_current {p : Parser} {kind : Kind} (h : p.current.kind = kind)
    (hkind : (kind == .endOfInput) = false) :
  p.unread = p.current :: p.advance.unread
  := by
  subst h
  apply unread_of_kind_current (beq_eq_false_iff_ne.mp hkind)

theorem unread_of_next {p : Parser} {kind : Kind} (h : p.next.kind = kind)
    (hkind : (kind == .endOfInput) = false) :
  p.advance.unread = p.next :: p.advance.advance.unread
  := unread_of_current (p := p.advance) h hkind

theorem current_of_unread {p : Parser} {t : Token} {ts : List Token} (h : p.unread = t :: ts) :
  p.current = t
  := by
  have hkind : t.kind ≠ .endOfInput := by
    have hmem : t ∈ p.unread := by simp [h]
    simpa using List.mem_takeWhile_imp hmem
  have hcurrent : p.current.kind ≠ .endOfInput := by
    rw [kind_current, h]
    apply hkind
  have hp := unread_of_kind_current hcurrent
  rw [h] at hp
  injection hp with ht
  rw [ht]

/-- When the end of the input is reached, there are no tokens left for the stream's loops to
count. -/
theorem kind_next_of_tokens {p : Parser} (h : p.stream.tokens = []) :
  p.next.kind = .endOfInput
  := by
  simp [next, TokenStream.tail, TokenStream.head, h]

/-- Past its list a parser is at the end of the input. -/
theorem kind_current_of_tokens {p : Parser} (h : p.stream.tokens = []) :
  p.current.kind = .endOfInput
  := by
  simp [current, TokenStream.head, h]

theorem current_of_tokens {p : Parser} {t : Token} {ts : List Token}
    (h : p.stream.tokens = t :: ts) :
  p.current = t
  := by
  simp [current, TokenStream.head, h]

theorem tokens_advance_of_tokens {p : Parser} {t : Token} {ts : List Token}
    (h : p.stream.tokens = t :: ts) :
  p.advance.stream.tokens = ts
  := by
  simp [advance, TokenStream.tail, h]

theorem kind_next_of_tokens_cons {p : Parser} {t : Token} {ts : List Token}
    (h : p.stream.tokens = t :: ts) :
  p.next.kind = firstKind ts
  := by
  cases ts <;> simp [next, TokenStream.tail, TokenStream.head, h]

theorem length_tokens_advance (p : Parser) :
  p.advance.stream.tokens.length = p.stream.tokens.length - 1
  := by
  simp [advance, TokenStream.tail]

/-- A stream that has settled down stays so as tokens are passed. -/
theorem Reaches.isSettled {p q : Parser} (h : p.Reaches q) (hp : p.stream.IsSettled) :
  q.stream.IsSettled
  := by
  obtain ⟨n, hn, -⟩ := h.passed
  rw [hn]
  apply hp.drop

/-- At the end of the input nothing is unread. -/
theorem unread_nil_of_kind_current {p : Parser} (h : p.current.kind = .endOfInput) :
  p.unread = []
  := by
  by_contra hne
  obtain ⟨t, ts, ht⟩ := List.exists_cons_of_ne_nil hne
  have hmem : t ∈ p.unread := by simp [ht]
  have hkind := List.mem_takeWhile_imp hmem
  rw [← current_of_unread ht, h] at hkind
  simp at hkind

/-- In a stream that has settled down, passing a token leaves the unread ones after the first. -/
theorem unread_advance {p : Parser} (hp : p.stream.IsSettled) :
  p.advance.unread = p.unread.tail
  := by
  by_cases h : p.current.kind = .endOfInput
  · rw [unread_nil_of_kind_current h]
    apply hp.proper_tail h
  · rw [unread_of_kind_current h]
    rfl

end Parser

end MonkeySyntax
