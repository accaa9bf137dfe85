import MonkeySyntax.Proofs.Parser.Simulation

/-!
# Parsing without places

The parser takes the tokens of its stream one by one, and looks at their kinds and texts, never at
their places.  So when the tokens of a stream are relabelled, with kinds and texts as they are,
parsing gives the same diagnostics, and the same tree with its tokens relabelled.  In particular a
stream without the places of its tokens gives the tree without the places of its tokens.

Nor does it matter how the end of a stream is written: tokens that come last in the list, and are
the same as the end of the input after it, may be left out.
-/

namespace MonkeySyntax

/-- A change of streams that goes token by token. -/
structure Restreaming extends Relabeling where
  /-- The stream in the other run. -/
  stream : TokenStream → TokenStream
  head_stream (s : TokenStream) : (stream s).head = token s.head
  tail_stream (s : TokenStream) : (stream s).tail = stream s.tail

namespace Parser

/-- A token passed before others is one more. -/
theorem advanceBy_advance (n : Nat) (p : Parser) :
  p.advance.advanceBy n = p.advanceBy (n + 1)
  := by
  simp [advance, advanceBy, ← TokenStream.drop_one, Nat.add_comm 1 n, Nat.add_right_comm,
    Nat.add_assoc]

/-- At a token that ends a statement nothing is skipped. -/
theorem skipToTerminator_of_current {p : Parser} (h : isTerminator p.current.kind = true) :
  p.skipToTerminator = p
  := by
  have hskipped : p.stream.tokens.takeWhile (fun t => !isTerminator t.kind) = [] := by
    rcases htokens : p.stream.tokens with _ | ⟨t, ts⟩
    · rfl
    · rw [current, TokenStream.head, htokens, List.headD_cons] at h
      rw [List.takeWhile_cons_of_neg (by simp [h])]
  rw [skipToTerminator, hskipped]
  rfl

/-- Another token is the first one that is skipped. -/
theorem skipToTerminator_advance {p : Parser} (h : isTerminator p.current.kind = false) :
  p.advance.skipToTerminator = p.skipToTerminator
  := by
  have hend : p.current.kind ≠ .endOfInput := by
    rintro hend
    rw [hend] at h
    cases h
  obtain ⟨t, ts, htokens⟩ := List.exists_cons_of_length_pos (length_tokens_pos_of_current hend)
  rw [current, TokenStream.head, htokens, List.headD_cons] at h
  have hadvance : p.advance.stream.tokens = ts := congrArg List.tail htokens
  rw [skipToTerminator, skipToTerminator, htokens, hadvance,
    List.takeWhile_cons_of_pos (by simp [h]), List.length_cons, advanceBy_advance]

end Parser

namespace Restreaming

variable (r : Restreaming)

/-- A parser of a changed stream. -/
def restream (p : Parser) : Parser :=
  { p with stream := r.stream p.stream }

/-- The current token of a changed stream is the changed one. -/
theorem current_restream (p : Parser) :
  (r.restream p).current = r.token p.current
  := r.head_stream p.stream

/-- A parser passes a token of a changed stream as it passes that of the stream. -/
theorem restream_advance (p : Parser) :
  r.restream p.advance = (r.restream p).advance
  := by
  simp only [restream, Parser.advance, r.tail_stream]

/-- The next token of a changed stream is of the same kind. -/
theorem kind_next_restream (p : Parser) :
  (r.restream p).next.kind = p.next.kind
  := by
  rw [← Parser.current_advance, ← restream_advance, current_restream, r.kind_token,
    Parser.current_advance]

/-- A statement is skipped in a changed stream as it is in the stream. -/
theorem restream_skipToTerminator (p : Parser) :
  r.restream p.skipToTerminator = (r.restream p).skipToTerminator
  := by
  induction hn : p.stream.tokens.length generalizing p with
  | zero =>
    have hend := Parser.kind_current_of_tokens (List.length_eq_zero_iff.mp hn)
    rw [Parser.skipToTerminator_of_current (by rw [hend]; rfl),
      Parser.skipToTerminator_of_current (by rw [current_restream, r.kind_token, hend]; rfl)]
  | succ n ih =>
    cases hkind : Parser.isTerminator p.current.kind with
    | true =>
      rw [Parser.skipToTerminator_of_current hkind,
        Parser.skipToTerminator_of_current (by rw [current_restream, r.kind_token, hkind])]
    | false =>
      have hlength := Parser.length_tokens_advance p
      rw [← Parser.skipToTerminator_advance hkind, ih p.advance (by omega), restream_advance,
        Parser.skipToTerminator_advance (by rw [current_restream, r.kind_token, hkind])]

/-- A run beside the run of a changed stream. -/
def simulation : Simulation where
  toRelabeling := r.toRelabeling
  parser := r.restream
  Fresh _ := True
  Ready _ := True
  Open _ := True
  Failed _ := True
  ready_of_fresh h := h
  fresh_of_ready h _ := h
  ready_of_open h := h
  open_of_ready h _ := h
  current_eq _ := r.current_restream _
  depth_eq _ := rfl
  kind_next _ := r.kind_next_restream _
  advance h _ := ⟨r.restream_advance _, h⟩
  report _ h := ⟨rfl, h⟩
  descend h := ⟨rfl, h⟩
  open_ascend h := ⟨rfl, h⟩
  failed_ascend h := ⟨rfl, h⟩
  failed_skip h := ⟨r.restream_skipToTerminator _, h⟩
  failed_next _ := by rw [Parser.nextIs, Parser.nextIs, r.kind_next_restream]
  failed_advance h _ := ⟨r.restream_advance _, h⟩

/-- A change of streams does not depend on what the parser does. -/
theorem isTotal_simulation :
  r.simulation.IsTotal
  where
  isOpen h := h
  advance h := ⟨r.restream_advance _, h⟩
  countKept h := ⟨rfl, h⟩
  countDropped h := ⟨rfl, h⟩

/-- A changed stream gives the program with its tokens changed, and the same diagnostics. -/
theorem parseStream_stream (s : TokenStream) :
  parseStream (r.stream s) =
    ⟨(parseStream s).program.mapTokens r.token r.token, (parseStream s).diagnostics⟩
  := by
  have hcloses : Parse.closesProgram .endOfInput = true := rfl
  have htotal := r.isTotal_simulation
  obtain ⟨hstatements, -⟩ := htotal.statements htotal.carries hcloses (p := .ofStream s) trivial
  have hstream : Parser.ofStream (r.stream s) = r.simulation.parser (.ofStream s) := rfl
  simp only [parseStream, Parsed.ofParser, Parser.program, hstream, hstatements,
    Program.mapTokens, Stmt.mapTokensEach_eq_map]
  rfl

end Restreaming

/-! ### Other places -/

namespace Relabeling

variable (r : Relabeling)

/-- The end of the input, relabelled, is the end of the input at some place. -/
theorem token_endAt (position : Int) :
  r.token (.endAt position) = .endAt (r.token (.endAt position)).position
  := by
  have hkind := r.kind_token (.endAt position)
  have htext := r.text_token (.endAt position)
  rcases htoken : r.token (.endAt position) with ⟨kind, text, place⟩
  rw [htoken] at hkind htext
  obtain rfl : kind = .endOfInput := hkind
  obtain rfl : text = "" := htext
  rfl

/-- The change that takes away the places of tokens. -/
def unplaced : Relabeling :=
  ⟨Token.unplaced, Token.kind_unplaced, Token.text_unplaced⟩

end Relabeling

namespace TokenStream

/-- A stream with its tokens relabelled. -/
def relabel (r : Relabeling) (s : TokenStream) : TokenStream :=
  ⟨s.tokens.map r.token, (r.token (.endAt s.stop)).position⟩

/-- A stream without the places of its tokens. -/
def unplaced (s : TokenStream) : TokenStream :=
  ⟨s.tokens.map Token.unplaced, 0⟩

/-- The tokens of a relabelled stream are the relabelled tokens. -/
theorem get_relabel (r : Relabeling) (s : TokenStream) (i : Nat) :
  (s.relabel r).get i = r.token (s.get i)
  := by
  rw [get, get, relabel, ← r.token_endAt, List.getElem?_map, Option.getD_map]

/-- The tokens of a stream without places are those without their places. -/
theorem get_unplaced (s : TokenStream) (i : Nat) :
  s.unplaced.get i = (s.get i).unplaced
  := s.get_relabel .unplaced i

/-- The tokens before the end do not depend on places. -/
theorem proper_unplaced (s : TokenStream) :
  s.unplaced.proper = s.proper.map Token.unplaced
  := by
  simp only [proper, unplaced, List.takeWhile_map]
  rfl

/-- A stream that has settled down has done so without its places. -/
theorem IsSettled.unplaced {s : TokenStream} (h : s.IsSettled) :
  s.unplaced.IsSettled
  := by
  intro t ht
  simp only [TokenStream.unplaced, List.dropWhile_map, List.mem_map] at ht
  obtain ⟨u, hu, rfl⟩ := ht
  apply h u hu

end TokenStream

/-- Relabelling tokens one by one. -/
def Relabeling.restreaming (r : Relabeling) : Restreaming where
  toRelabeling := r
  stream := TokenStream.relabel r
  head_stream s := by rw [← TokenStream.get_zero, ← TokenStream.get_zero, TokenStream.get_relabel]
  tail_stream s := by simp only [TokenStream.tail, TokenStream.relabel, List.map_tail]

/-- A stream with its tokens relabelled gives the program with its tokens relabelled, and the same
diagnostics. -/
theorem parseStream_relabel (r : Relabeling) (s : TokenStream) :
  parseStream (s.relabel r) =
    ⟨(parseStream s).program.mapTokens r.token r.token, (parseStream s).diagnostics⟩
  := r.restreaming.parseStream_stream s

/-- A stream without places gives the program without places, and the same diagnostics. -/
theorem parseStream_unplaced (s : TokenStream) :
  parseStream s.unplaced = ⟨(parseStream s).program.unplaced, (parseStream s).diagnostics⟩
  := parseStream_relabel .unplaced s

/-! ### Other ends -/

/-- Tokens without those that come last and are the end of the input at `stop`. -/
def Token.withoutEnds (stop : Int) : List Token → List Token
  | [] => []
  | t :: ts =>
    if withoutEnds stop ts = [] ∧ t = .endAt stop then [] else t :: withoutEnds stop ts

/-- A stream with no token in its list that is but the end of the input after it. -/
def TokenStream.trim (s : TokenStream) : TokenStream :=
  ⟨Token.withoutEnds s.stop s.tokens, s.stop⟩

/-- Of tokens that are all the end of the input none is left. -/
theorem Token.withoutEnds_eq_nil {stop : Int} {ts : List Token} (h : ∀ t ∈ ts, t = .endAt stop) :
  withoutEnds stop ts = []
  := by
  induction ts with
  | nil => rfl
  | cons t ts ih =>
    obtain ⟨ht, hts⟩ := List.forall_mem_cons.mp h
    rw [withoutEnds, if_pos ⟨ih hts, ht⟩]

/-- Leaving out the tokens one by one. -/
def Restreaming.trim : Restreaming where
  toRelabeling := .refl
  stream := TokenStream.trim
  head_stream s := by
    obtain ⟨ts, stop⟩ := s
    cases ts with
    | nil => rfl
    | cons t ts =>
      simp only [TokenStream.trim, Token.withoutEnds]
      split
      next h => exact h.2.symm
      next => rfl
  tail_stream s := by
    obtain ⟨ts, stop⟩ := s
    cases ts with
    | nil => rfl
    | cons t ts =>
      simp only [TokenStream.trim, TokenStream.tail, Token.withoutEnds, List.tail_cons]
      split
      next h => rw [h.1, List.tail_nil]
      next => rfl

/-- Streams of the same tokens are the same but for their last tokens. -/
theorem TokenStream.trim_eq_of_get {s s' : TokenStream} (h : ∀ i, s.get i = s'.get i) :
  s.trim = s'.trim
  := by
  obtain ⟨ts, stop⟩ := s
  obtain ⟨ts', stop'⟩ := s'
  have hstop : Token.endAt stop = Token.endAt stop' := by
    have hend := h (max ts.length ts'.length)
    rwa [get_of_length_le (Nat.le_max_left _ _), get_of_length_le (Nat.le_max_right _ _)] at hend
  obtain rfl : stop = stop' := congrArg Token.position hstop
  have hmem {us : List Token} (hus : ∀ i, (TokenStream.mk us stop).get i = .endAt stop) :
      ∀ t ∈ us, t = .endAt stop := by
    intro t ht
    obtain ⟨i, hi⟩ := List.mem_iff_getElem?.mp ht
    rw [← hus i, get, hi, Option.getD_some]
  have htokens : Token.withoutEnds stop ts = Token.withoutEnds stop ts' := by
    induction ts generalizing ts' with
    | nil => rw [Token.withoutEnds_eq_nil (hmem fun i => (h i).symm), Token.withoutEnds]
    | cons t ts ih =>
      cases ts' with
      | nil => rw [Token.withoutEnds_eq_nil (hmem h), Token.withoutEnds]
      | cons t' ts' =>
        obtain rfl : t = t' := h 0
        rw [Token.withoutEnds, Token.withoutEnds, ih ts' fun i => h (i + 1)]
  rw [trim, trim, htokens]

/-- Streams of the same tokens give the same, however many of their last tokens are in the
list. -/
theorem parseStream_congr {s s' : TokenStream} (h : ∀ i, s.get i = s'.get i) :
  parseStream s = parseStream s'
  := by
  have htrim (s : TokenStream) : parseStream s.trim = parseStream s := by
    have hstream := Restreaming.trim.parseStream_stream s
    rwa [show Restreaming.trim.token = id from rfl, Program.mapTokens_id] at hstream
  rw [← htrim s, TokenStream.trim_eq_of_get h, htrim s']

end MonkeySyntax
