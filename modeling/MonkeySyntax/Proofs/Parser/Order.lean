import MonkeySyntax.Proofs.Parser.Formation
import MonkeySyntax.Proofs.Parser.Place
import MonkeySyntax.Proofs.Source.Tokenization
import MonkeySyntax.Proofs.Tree.Marks

/-!
# The order of the tokens of a tree

The tokens of a tree stand in its stream in the order in which the tree has them, and the tree has
none of them twice.  This is shown of a stream in which the place of every token is its index, so
that a token tells where in the stream it is, and how many tokens have been pulled when it is the
current one.  What is given between two states of the parser has its indices between the two
(`Spans`).  The parser does not look at places, so the indices are the same for all streams with
these kinds and texts.
-/

namespace MonkeySyntax

/-! ### Streams with indices for places -/

/-- The index that a token has as its place. -/
def Token.index (t : Token) : Nat :=
  t.position.toNat

/-- A stream with the index of each token as its place. -/
def TokenStream.numbered (s : TokenStream) : TokenStream :=
  ⟨s.tokens.mapIdx (fun i t => { t with position := i }), s.tokens.length⟩

/-- The change of tokens with indices for places that gives them the places in a stream. -/
def TokenStream.placing (s : TokenStream) : Relabeling :=
  ⟨fun t => { t with position := (s.get t.index).position }, fun _ => rfl, fun _ => rfl⟩

namespace TokenStream

/-- Within its list a stream has the tokens of the list. -/
theorem getElem?_tokens {s : TokenStream} {i : Nat} (h : i < s.tokens.length) :
  s.tokens[i]? = some (s.get i)
  := by
  rw [get, List.getElem?_eq_getElem h, Option.getD_some]

/-- A numbered stream has the index of each token as its place. -/
theorem getElem?_numbered (s : TokenStream) (i : Nat) :
  s.numbered.tokens[i]? = s.tokens[i]?.map (fun t => { t with position := i })
  := by
  rw [numbered, List.getElem?_mapIdx]

/-- The tokens of a stream that has been numbered are the ones at their indices. -/
theorem exists_of_mem_numbered {s : TokenStream} {t : Token} (h : t ∈ s.numbered.tokens) :
  t.index < s.tokens.length ∧ t.unplaced = (s.get t.index).unplaced
  := by
  obtain ⟨i, hi⟩ := List.mem_iff_getElem?.mp h
  rw [getElem?_numbered, Option.map_eq_some_iff] at hi
  obtain ⟨u, hu, rfl⟩ := hi
  obtain ⟨hlt, -⟩ := List.getElem?_eq_some_iff.mp hu
  rw [get, show (Token.mk u.kind u.text i).index = i from rfl, hu]
  exact ⟨hlt, rfl⟩

/-- Streams that are equal up to places have as many tokens. -/
theorem length_tokens_of_unplaced {s s' : TokenStream} (h : s'.unplaced = s.unplaced) :
  s'.tokens.length = s.tokens.length
  := by
  have hlength := congrArg (fun u => u.tokens.length) h
  simpa [TokenStream.unplaced] using hlength

/-- Streams that are equal up to places have equal tokens up to places. -/
theorem unplaced_get_of_unplaced {s s' : TokenStream} (h : s'.unplaced = s.unplaced) (i : Nat) :
  (s'.get i).unplaced = (s.get i).unplaced
  := by
  rw [← get_unplaced, h, get_unplaced]

/-- A token of the kind and text that a stream has at its index, with the place from there. -/
theorem placing_token {s : TokenStream} {t : Token}
    (h : t.unplaced = (s.get t.index).unplaced) :
  s.placing.token t = s.get t.index
  := by
  obtain ⟨hkind, htext⟩ := Token.unplaced_eq_iff.mp h
  change Token.mk t.kind t.text (s.get t.index).position = s.get t.index
  rw [hkind, htext]

/-- A numbered stream with other places. -/
theorem numbered_relabel {s s' : TokenStream} (h : s'.unplaced = s.unplaced) :
  s.numbered.relabel s'.placing = s'
  := by
  have hlength := length_tokens_of_unplaced h
  have htoken (i : Nat) : s'.placing.token { s.get i with position := i } = s'.get i :=
    placing_token (t := { s.get i with position := i }) (unplaced_get_of_unplaced h i).symm
  have htokens : (s.numbered.relabel s'.placing).tokens = s'.tokens := by
    apply List.ext_getElem?
    intro i
    rw [relabel, List.getElem?_map, getElem?_numbered]
    rcases Nat.lt_or_ge i s.tokens.length with hi | hi
    · rw [getElem?_tokens hi, getElem?_tokens (by omega), Option.map_some, Option.map_some,
        htoken]
    · rw [List.getElem?_eq_none hi, List.getElem?_eq_none (by omega)]
      rfl
  have hstop : (s.numbered.relabel s'.placing).stop = s'.stop := by
    change (s'.get s.tokens.length).position = s'.stop
    rw [get_of_length_le (by omega)]
    rfl
  exact congrArg₂ TokenStream.mk htokens hstop

end TokenStream

namespace Parser

/-- Every token ahead has its index as its place: when it is the current one, two more tokens
have been pulled than there are before it. -/
def Numbered (p : Parser) : Prop :=
  ∀ i t, p.stream.tokens[i]? = some t → t.index + 2 = p.pulled + i

/-- A parser of a numbered stream has every token ahead at its index. -/
theorem numbered_ofStream (s : TokenStream) :
  (ofStream s.numbered).Numbered
  := by
  intro i t ht
  rw [ofStream, TokenStream.getElem?_numbered, Option.map_eq_some_iff] at ht
  obtain ⟨u, -, rfl⟩ := ht
  exact Nat.add_comm i 2

namespace Numbered

variable {p q : Parser}

/-- Tokens keep their indices as the parser passes others. -/
theorem reaches (h : p.Numbered) (hq : p.Reaches q) :
  q.Numbered
  := by
  obtain ⟨n, hstream, hpulled⟩ := hq.passed
  intro i t ht
  rw [hstream, TokenStream.drop, List.getElem?_drop] at ht
  rw [h (n + i) t ht, hpulled, Nat.add_assoc]

theorem advance (h : p.Numbered) :
  p.advance.Numbered
  := h.reaches (.advance p)

/-- Two more tokens have been pulled than there are before the current one, unless it is the end of
the input. -/
theorem index_current (h : p.Numbered) (hend : p.current.kind ≠ .endOfInput) :
  p.current.index + 2 = p.pulled
  := by
  obtain ⟨t, ts, htokens⟩ := List.exists_cons_of_length_pos (length_tokens_pos_of_current hend)
  rw [current, TokenStream.head, htokens]
  exact h 0 t (by simp [htokens])

end Numbered

end Parser

/-! ### Spans -/

/-- The marked tokens have indices for places, which are in order, and such that at least `lo` and
less than `hi` tokens have been pulled when one of them is the current one. -/
structure Spans (lo hi : Nat) (ms : List (Mark Token)) : Prop where
  le : lo ≤ hi
  ordered : (ms.map (Mark.map Token.index)).Pairwise Mark.Precedes
  within : ∀ m ∈ ms, lo ≤ m.value.index + 2 ∧ m.value.index + 2 < hi

namespace Spans

variable {lo mid hi lo' hi' : Nat} {ms ms' : List (Mark Token)}

/-- An empty list of tokens spans any number of pulled tokens. -/
theorem nil (h : lo ≤ hi) :
  Spans lo hi []
  := ⟨h, .nil, by simp⟩

/-- Spans one after the other make up a span. -/
theorem append (h : Spans lo mid ms) (h' : Spans mid hi ms') :
  Spans lo hi (ms ++ ms')
  := by
  have hle := h.le
  have hle' := h'.le
  constructor
  · omega
  · rw [List.map_append, List.pairwise_append]
    refine ⟨h.ordered, h'.ordered, ?_⟩
    rw [List.forall_mem_map]
    intro m hm
    rw [List.forall_mem_map]
    intro m' hm'
    apply Mark.precedes_of_lt
    rw [Mark.value_map, Mark.value_map]
    have hm := h.within m hm
    have hm' := h'.within m' hm'
    omega
  · intro m hm
    rcases List.mem_append.mp hm with hm | hm
    · have hm := h.within m hm
      omega
    · have hm := h'.within m hm
      omega

/-- A span is within any longer one. -/
theorem mono (h : Spans lo hi ms) (hlo : lo' ≤ lo) (hhi : hi ≤ hi') :
  Spans lo' hi' ms
  := by
  have hle := h.le
  refine ⟨by omega, h.ordered, fun m hm => ?_⟩
  have hm := h.within m hm
  omega

/-- A token that is kept spans one pulled token. -/
theorem kept {t : Token} (h : t.index + 2 = lo) :
  Spans lo (lo + 1) [.kept t]
  := by
  refine ⟨by omega, List.pairwise_singleton _ _, ?_⟩
  rw [List.forall_mem_singleton, Mark.value]
  omega

/-- The token that a tree starts with may be marked again as its start. -/
theorem start {t u : Token} (h : Spans lo hi (.kept u :: ms)) (ht : t.index + 2 = lo) :
  Spans lo hi (.start t :: .kept u :: ms)
  := by
  obtain ⟨hu, hms⟩ := List.forall_mem_cons.mp h.within
  obtain ⟨hfirst, -⟩ := List.pairwise_cons.mp h.ordered
  rw [Mark.value] at hu
  refine ⟨h.le, List.pairwise_cons.mpr ⟨?_, h.ordered⟩, ?_⟩
  · rw [List.map_cons, List.forall_mem_cons]
    constructor
    · change t.index ≤ u.index
      omega
    · intro m hm
      have hum : u.index < m.value := hfirst m hm
      apply Mark.precedes_of_lt
      change t.index < m.value
      omega
  · rw [List.forall_mem_cons, Mark.value]
    exact ⟨by omega, h.within⟩

end Spans

/-- The current token, before what has been given from the next one on. -/
theorem Parser.Numbered.spans_cons {p : Parser} {kind : Kind} {hi : Nat} {ms : List (Mark Token)}
    (h : p.Numbered) (hkind : p.current.kind = kind) (hend : kind ≠ .endOfInput)
    (hms : Spans p.advance.pulled hi ms) :
  Spans p.pulled hi (.kept p.current :: ms)
  := by
  apply (Spans.kept (h.index_current _)).append hms
  rwa [hkind]

namespace Parse

variable {p q : Parser}

/-- Whatever is given as an expression has its tokens in order, from the current token on and not
after the token that is current when it has been given. -/
def InOrder (inner : Inner) : Prop :=
  ∀ strength p e q, p.Numbered → (inner strength).Gives p e q →
    p.current.kind ≠ .endOfInput ∧ Spans p.pulled (q.pulled + 1) e.marks

/-! ### Names -/

/-- The names after a name span the tokens pulled for them. -/
theorem spans_parametersAfter {lo : Nat} {ahead : List Token} {read ids : List Ident}
    (hp : p.Numbered)
    (hread : Spans lo (p.pulled + 1) (read.reverse.map (fun id => .kept id.token)))
    (h : (parametersAfter ahead read).Gives p ids q) :
  Spans lo (q.pulled + 1) (ids.map (fun id => .kept id.token))
  := by
  induction ahead generalizing read p with
  | nil =>
    obtain ⟨rfl, rfl⟩ := gives_parametersAfter_nil.mp h
    apply hread
  | cons t ahead ih =>
    rw [gives_parametersAfter_cons] at h
    split at h
    · obtain ⟨hname, hids⟩ := h
      have hname' := hp.advance.advance.spans_cons hname (by decide) (Spans.nil le_rfl)
      apply ih hp.advance.advance _ hids
      rw [List.reverse_cons, List.map_append]
      apply (hread.mono le_rfl (Nat.le_succ _)).append hname'
    · obtain ⟨rfl, rfl⟩ := h
      apply hread

/-- Parameters span the tokens pulled for them. -/
theorem spans_parameters {ids : List Ident} (hp : p.Numbered) (h : parameters.Gives p ids q) :
  Spans p.advance.pulled (q.pulled + 1) (ids.map (fun id => .kept id.token))
  := by
  rw [gives_parameters] at h
  split at h
  · obtain ⟨rfl, rfl⟩ := h
    apply Spans.nil (Nat.le_succ _)
  · obtain ⟨hname, r, hids, -, rfl⟩ := h
    have hname' := hp.advance.spans_cons hname (by decide) (Spans.nil le_rfl)
    have hspans := spans_parametersAfter hp.advance hname' hids
    apply hspans.mono le_rfl (Nat.le_succ _)

section

variable {inner : Inner}

/-! ### Statements -/

theorem InOrder.letStatement (hinner : InOrder inner) (hp : p.Numbered)
    (hkind : p.current.kind = .letWord) {s : Stmt} (h : (letStatement inner).Gives p s q) :
  Spans p.pulled (q.pulled + 1) s.marks
  := by
  obtain ⟨hname, -, value, r, hvalue, -, rfl, rfl⟩ := gives_letStatement.mp h
  obtain ⟨-, hspans⟩ := hinner _ _ _ _ hp.advance.advance.advance hvalue
  apply hp.spans_cons hkind (by decide)
  apply hp.advance.spans_cons hname (by decide)
  apply hspans.mono (Nat.le_succ _) (Nat.le_succ _)

theorem InOrder.returnStatement (hinner : InOrder inner) (hp : p.Numbered)
    (hkind : p.current.kind = .returnWord) {s : Stmt} (h : (returnStatement inner).Gives p s q) :
  Spans p.pulled (q.pulled + 1) s.marks
  := by
  rw [gives_returnStatement] at h
  split at h
  · obtain ⟨rfl, rfl⟩ := h
    apply hp.spans_cons hkind (by decide)
    apply Spans.nil (Nat.le_succ _)
  · obtain ⟨value, r, hvalue, -, rfl, rfl⟩ := h
    obtain ⟨-, hspans⟩ := hinner _ _ _ _ hp.advance hvalue
    apply hp.spans_cons hkind (by decide)
    apply hspans.mono le_rfl (Nat.le_succ _)

theorem InOrder.expressionStatement (hinner : InOrder inner) (hp : p.Numbered) {s : Stmt}
    (h : (expressionStatement inner).Gives p s q) :
  Spans p.pulled (q.pulled + 1) s.marks
  := by
  obtain ⟨value, r, hvalue, rfl, rfl⟩ := gives_expressionStatement.mp h
  obtain ⟨hend, hspans⟩ := hinner _ _ _ _ hp hvalue
  obtain ⟨t, ms, hmarks⟩ := value.exists_marks_eq_cons
  rw [hmarks] at hspans
  rw [Stmt.marks, hmarks]
  apply (hspans.start (hp.index_current hend)).mono le_rfl
  split
  · apply Nat.le_succ
  · apply le_rfl

/-- A statement spans the tokens pulled for it. -/
theorem InOrder.statement (hinner : InOrder inner) (hp : p.Numbered) {s : Stmt}
    (h : (statement inner).Gives p s q) :
  Spans p.pulled (q.pulled + 1) s.marks
  := by
  obtain ⟨r, hr, rfl⟩ := (gives_accounted _ p s q).mp h
  change Spans p.pulled (r.pulled + 1) s.marks
  dsimp only [Gives] at hr
  split at hr
  next hkind => apply hinner.letStatement hp hkind hr
  next hkind => apply hinner.returnStatement hp hkind hr
  next => apply hinner.expressionStatement hp hr

variable [∀ strength, (inner strength).Orderly]

/-- The statements of a loop are one after the other, whichever have been given up between
them. -/
theorem InOrder.statementsAfter (hinner : InOrder inner) {closes : Kind → Bool}
    {ahead : List Token} (hp : p.Numbered) :
  Spans p.pulled (statementsAfter inner closes ahead [] p).2.pulled
    (Stmt.marksEach (statementsAfter inner closes ahead [] p).1)
  := by
  induction ahead generalizing p with
  | nil => apply Spans.nil le_rfl
  | cons t ahead ih =>
    rw [Parse.statementsAfter]
    split
    · apply Spans.nil le_rfl
    · rcases hs : Parse.statement inner p with ⟨_ | s, q⟩
      · have hreaches := (Orderly.reaches_of_apply hs).trans (.advance q)
        apply (ih (hp.reaches hreaches)).mono hreaches.pulled_le le_rfl
      · have hq := (hp.reaches (Orderly.reaches_of_apply hs)).advance
        dsimp only
        rw [statementsAfter_eq_append]
        apply (hinner.statement hp hs).append (ih hq)

/-- A block spans the tokens pulled for it, whatever has been left out of it. -/
theorem InOrder.block (hinner : InOrder inner) (hp : p.Numbered)
    (hkind : p.current.kind = .leftBrace) {b : Block} (h : (block inner).Gives p b q) :
  Spans p.pulled (q.pulled + 1) b.marks
  := by
  obtain ⟨rfl, rfl⟩ := gives_block.mp h
  apply hp.spans_cons hkind (by decide)
  apply (hinner.statementsAfter hp.advance).mono le_rfl (Nat.le_succ _)

/-! ### Expressions -/

omit [∀ strength, (inner strength).Orderly] in
theorem InOrder.unary (hinner : InOrder inner) (hp : p.Numbered)
    (hend : p.current.kind ≠ .endOfInput) {e : Expr} (h : (unary inner).Gives p e q) :
  Spans p.pulled (q.pulled + 1) e.marks
  := by
  obtain ⟨right, hright, rfl⟩ := gives_unary.mp h
  obtain ⟨-, hspans⟩ := hinner _ _ _ _ hp.advance hright
  apply hp.spans_cons rfl hend hspans

omit [∀ strength, (inner strength).Orderly] in
theorem InOrder.group (hinner : InOrder inner) (hp : p.Numbered) {e : Expr}
    (h : (group inner).Gives p e q) :
  Spans p.pulled (q.pulled + 1) e.marks
  := by
  obtain ⟨r, he, -, rfl⟩ := gives_group.mp h
  obtain ⟨-, hspans⟩ := hinner _ _ _ _ hp.advance he
  apply hspans.mono (Nat.le_succ _) (Nat.le_succ _)

/-- A second block spans the tokens pulled after the first one. -/
theorem InOrder.alternative (hinner : InOrder inner) (hp : p.Numbered) {b : Option Block}
    (h : (alternative inner).Gives p b q) :
  Spans (p.pulled + 1) (q.pulled + 1) (Block.marksElse b)
  := by
  rw [gives_alternative] at h
  split at h
  · obtain ⟨hbrace, b', hb, rfl⟩ := h
    apply (hinner.block hp.advance.advance hbrace hb).mono (Nat.le_succ _) le_rfl
  · obtain ⟨rfl, rfl⟩ := h
    apply Spans.nil le_rfl

theorem InOrder.conditional (hinner : InOrder inner) (hp : p.Numbered)
    (hkind : p.current.kind = .ifWord) {e : Expr} (h : (conditional inner).Gives p e q) :
  Spans p.pulled (q.pulled + 1) e.marks
  := by
  obtain ⟨-, condition, r, hcondition, -, hbrace, consequence, r', hconsequence, second, hsecond,
    rfl⟩ := gives_conditional.mp h
  have hp' := hp.advance.advance
  have hr := (hp'.reaches hcondition.reaches).advance.advance
  have hr' := hr.reaches hconsequence.reaches
  obtain ⟨-, hspans⟩ := hinner _ _ _ _ hp' hcondition
  have hblock := hinner.block hr hbrace hconsequence
  apply hp.spans_cons hkind (by decide)
  apply (hspans.mono (Nat.le_succ _) (Nat.le_succ _)).append
  apply hblock.append (hinner.alternative hr' hsecond)

theorem InOrder.function (hinner : InOrder inner) (hp : p.Numbered)
    (hkind : p.current.kind = .functionWord) {e : Expr} (h : (function inner).Gives p e q) :
  Spans p.pulled (q.pulled + 1) e.marks
  := by
  obtain ⟨-, ids, r, hids, hbrace, body, hbody, rfl⟩ := gives_function.mp h
  have hr := (hp.advance.reaches hids.reaches).advance
  have hparameters := spans_parameters hp.advance hids
  apply hp.spans_cons hkind (by decide)
  apply (hparameters.mono (Nat.le_succ _) le_rfl).append (hinner.block hr hbrace hbody)

theorem InOrder.expressionsAfter (hinner : InOrder inner) {lo : Nat} {ahead : List Token}
    {read es : List Expr} (hp : p.Numbered)
    (hread : Spans lo (p.pulled + 1) (Expr.marksEach read.reverse))
    (h : (expressionsAfter inner ahead read).Gives p es q) :
  Spans lo (q.pulled + 1) (Expr.marksEach es)
  := by
  induction ahead generalizing read p with
  | nil =>
    obtain ⟨rfl, rfl⟩ := gives_expressionsAfter_nil.mp h
    apply hread
  | cons t ahead ih =>
    rw [gives_expressionsAfter_cons] at h
    split at h
    · obtain ⟨e, r, he, hes⟩ := h
      have hp' := hp.advance.advance
      obtain ⟨-, hspans⟩ := hinner _ _ _ _ hp' he
      apply ih (hp'.reaches he.reaches) _ hes
      rw [List.reverse_cons, Expr.marksEach_append, Expr.marksEach_singleton]
      apply (hread.mono le_rfl (Nat.le_succ _)).append hspans
    · obtain ⟨rfl, rfl⟩ := h
      apply hread

/-- Expressions with commas between them span the tokens pulled for them. -/
theorem InOrder.expressionList (hinner : InOrder inner) {closing : Kind} (hp : p.Numbered)
    {es : List Expr} (h : (expressionList inner closing).Gives p es q) :
  Spans (p.pulled + 1) (q.pulled + 1) (Expr.marksEach es)
  := by
  rw [gives_expressionList] at h
  split at h
  · obtain ⟨rfl, rfl⟩ := h
    apply Spans.nil (Nat.le_succ _)
  · obtain ⟨first, r, hfirst, r', hes, -, rfl⟩ := h
    obtain ⟨-, hspans⟩ := hinner _ _ _ _ hp.advance hfirst
    have hr := hp.advance.reaches hfirst.reaches
    rw [← Expr.marksEach_singleton] at hspans
    apply (hinner.expressionsAfter hr hspans hes).mono le_rfl (Nat.le_succ _)

/-- An operand starts with a token and spans those pulled for it. -/
theorem InOrder.operand (hinner : InOrder inner) (hp : p.Numbered) {e : Expr}
    (h : (operand inner).Gives p e q) :
  p.current.kind ≠ .endOfInput ∧ Spans p.pulled (q.pulled + 1) e.marks
  := by
  have hleaf (hend : p.current.kind ≠ .endOfInput) :
      Spans p.pulled (p.pulled + 1) [.kept p.current] := .kept (hp.index_current hend)
  rw [Gives, Parse.operand] at h
  split at h
  next hkind =>
    obtain ⟨rfl, rfl⟩ := (gives_pure _ p e q).mp h
    exact ⟨by simp [hkind], hleaf (by simp [hkind])⟩
  next hkind =>
    obtain ⟨value, -, rfl, rfl⟩ := gives_integer.mp h
    exact ⟨by simp [hkind], hleaf (by simp [hkind])⟩
  next hkind =>
    obtain ⟨rfl, rfl⟩ := (gives_boolean p e q).mp h
    exact ⟨by simp [hkind], hleaf (by simp [hkind])⟩
  next hkind =>
    obtain ⟨rfl, rfl⟩ := (gives_boolean p e q).mp h
    exact ⟨by simp [hkind], hleaf (by simp [hkind])⟩
  next hkind => exact ⟨by simp [hkind], hinner.unary hp (by simp [hkind]) h⟩
  next hkind => exact ⟨by simp [hkind], hinner.unary hp (by simp [hkind]) h⟩
  next hkind => exact ⟨by simp [hkind], hinner.group hp h⟩
  next hkind => exact ⟨by simp [hkind], hinner.conditional hp hkind h⟩
  next hkind => exact ⟨by simp [hkind], hinner.function hp hkind h⟩
  next => simp at h

/-- The token that extends an expression comes after it and before the rest. -/
theorem InOrder.extension (hinner : InOrder inner) (hp : p.Numbered)
    (hend : p.current.kind ≠ .endOfInput) {lo : Nat} {left e : Expr}
    (hleft : Spans lo p.pulled left.marks) (h : (extension inner left).Gives p e q) :
  Spans lo (q.pulled + 1) e.marks
  := by
  rw [gives_extension] at h
  split at h
  · obtain ⟨arguments, harguments, rfl⟩ := gives_call.mp h
    apply hleft.append (hp.spans_cons rfl hend (hinner.expressionList hp harguments))
  · obtain ⟨right, hright, rfl⟩ := gives_binary.mp h
    obtain ⟨-, hspans⟩ := hinner _ _ _ _ hp.advance hright
    apply hleft.append (hp.spans_cons rfl hend hspans)

/-- What an expression is extended to spans the tokens pulled for all of it. -/
theorem InOrder.extensions (hinner : InOrder inner) {strength : Precedence} {lo : Nat}
    {ahead : List Token} {left e : Expr} (hp : p.Numbered)
    (hleft : Spans lo (p.pulled + 1) left.marks)
    (h : extensions inner strength ahead left p = (some e, q)) :
  Spans lo (q.pulled + 1) e.marks
  := by
  induction ahead generalizing left p with
  | nil =>
    obtain ⟨rfl, rfl⟩ := extensions_nil_eq_some.mp h
    apply hleft
  | cons t ahead ih =>
    rw [extensions_cons_eq_some] at h
    split at h
    next hnext =>
      obtain ⟨e', r, hextension, hrest⟩ := h
      have hend := Kind.ne_endOfInput_of_lt hnext
      have hspans := hinner.extension hp.advance hend hleft hextension
      apply ih (hp.advance.reaches hextension.reaches) hspans hrest
    next =>
      obtain ⟨rfl, rfl⟩ := h
      apply hleft

/-- If the expressions within a climb span the tokens pulled for them, so does the one it gives. -/
theorem InOrder.climb (hinner : InOrder inner) {strength : Precedence} (hp : p.Numbered)
    {e : Expr} (h : (climb inner strength).Gives p e q) :
  p.current.kind ≠ .endOfInput ∧ Spans p.pulled (q.pulled + 1) e.marks
  := by
  obtain ⟨left, r, hleft, hrest⟩ := gives_climb.mp h
  obtain ⟨hend, hspans⟩ := hinner.operand hp hleft
  exact ⟨hend, hinner.extensions (hp.reaches hleft.reaches) hspans hrest⟩

end

/-- Expressions have their tokens in order with any number of levels. -/
theorem inOrder_expressionWithin (levels : Nat) :
  InOrder (expressionWithin levels)
  := by
  induction levels with
  | zero =>
    intro strength p e q _ h
    rw [expressionWithin, refuseDepth, gives_recovering] at h
    cases not_gives_giveUp _ _ _ _ h
  | succ levels ih =>
    intro strength p e q hp h
    rw [expressionWithin, gives_nested] at h
    obtain ⟨r, hr, rfl⟩ := h
    have hdescend : p.descend.Numbered := hp
    apply ih.climb hdescend hr

/-- Expressions span the tokens pulled for them, at any depth. -/
theorem inOrder_expression :
  InOrder expression
  := by
  intro strength p e q hp h
  apply inOrder_expressionWithin (maxNesting - p.depth) strength p e q hp h

end Parse

/-! ### The tokens of a program -/

namespace TokenStream

variable (s : TokenStream)

/-- The indices of the tokens that the program of a stream has. -/
def places : List (Mark Nat) :=
  (parseStream s.numbered).program.marks.map (Mark.map Token.index)

/-- The indices of the tokens of a program are in order. -/
theorem pairwise_places :
  s.places.Pairwise Mark.Precedes
  := (Parse.inOrder_expression.statementsAfter (Parser.numbered_ofStream s)).ordered

/-- A program has proper tokens of its stream. -/
theorem isProper_places :
  ∀ m ∈ s.places, m.value < s.tokens.length ∧ (s.get m.value).kind ≠ .endOfInput ∧
    (s.get m.value).kind ≠ .illegal
  := by
  rw [places, List.forall_mem_map]
  intro m hm
  obtain ⟨ht, hend, hillegal⟩ := (Program.isFormed_parseStream s.numbered).isProper m hm
  obtain ⟨hlt, hunplaced⟩ := exists_of_mem_numbered ht
  obtain ⟨hkind, -⟩ := Token.unplaced_eq_iff.mp hunplaced
  rw [Mark.value_map, ← hkind]
  exact ⟨hlt, hend, hillegal⟩

variable {s}

/-- A stream gives what the stream with indices for places gives, with the places put back. -/
theorem parseStream_eq_placing {s' : TokenStream} (h : s'.unplaced = s.unplaced) :
  parseStream s' =
    ⟨(parseStream s.numbered).program.mapTokens s'.placing.token s'.placing.token,
      (parseStream s.numbered).diagnostics⟩
  := by
  rw [← parseStream_relabel, numbered_relabel h]

/-- Streams with the same kinds and texts have programs with tokens at the same indices. -/
theorem marks_program {s' : TokenStream} (h : s'.unplaced = s.unplaced) :
  (parseStream s').program.marks = s.places.map (Mark.map s'.get)
  := by
  rw [parseStream_eq_placing h, Program.marks_mapTokens, places, List.map_map]
  apply List.map_congr_left
  intro m hm
  obtain ⟨ht, -⟩ := (Program.isFormed_parseStream s.numbered).isProper m hm
  obtain ⟨-, hunplaced⟩ := exists_of_mem_numbered ht
  rw [← unplaced_get_of_unplaced h] at hunplaced
  have htoken := placing_token hunplaced
  cases m with
  | start t => exact congrArg Mark.start htoken
  | kept t => exact congrArg Mark.kept htoken

/-- The tokens at increasing indices are a part of the tokens of a stream. -/
theorem sublist_map_get {indices : List Nat} (h : indices.Pairwise (· < ·))
    (hlt : ∀ i ∈ indices, i < s.tokens.length) :
  (indices.map s.get).Sublist s.tokens
  := by
  have hpairwise : (indices.pmap Fin.mk hlt).Pairwise (· < ·) := by
    rw [List.pairwise_pmap]
    apply h.imp
    intro i j hij _ _
    apply hij
  have hget : (indices.pmap Fin.mk hlt).map (fun i => s.tokens[i]) = indices.map s.get := by
    rw [List.map_pmap, ← List.pmap_eq_map hlt]
    apply List.pmap_congr_left
    intro i _ hi _
    rw [Fin.getElem_fin, get, List.getElem?_eq_getElem hi, Option.getD_some]
  rw [← hget]
  apply List.map_getElem_sublist hpairwise

variable (s)

/-- The tokens of a program are tokens of its stream, in their order there and none twice. -/
theorem sublist_tokens_program :
  (parseStream s).program.tokens.Sublist s.tokens
  := by
  have htokens : (parseStream s).program.tokens = (s.places.filterMap Mark.kept?).map s.get := by
    rw [Program.tokens, marks_program rfl, List.filterMap_map, List.map_filterMap]
    apply List.filterMap_congr
    intro m _
    apply m.kept?_map
  rw [htokens]
  apply sublist_map_get
  · apply List.Pairwise.filterMap _ _ s.pairwise_places
    intro m n hmn i hi j hj
    apply hmn.kept_lt hi hj
  · intro i hi
    obtain ⟨m, hm, hkept⟩ := List.mem_filterMap.mp hi
    rw [← Mark.value_of_kept? hkept]
    apply (s.isProper_places m hm).1

end TokenStream

/-- The tokens of the program of a source are among those that stand in it.  The end of the input is
not among them. -/
theorem exists_accounts_parse (source : String) :
  ∃ ts, Accounts 0 source.toList ts ∧ (parse source).program.tokens.Sublist ts
  := by
  obtain ⟨ts, hts⟩ := exists_munches 0 source.toList
  refine ⟨ts, hts.accounts, ?_⟩
  have hsublist : (parse source).program.tokens.Sublist (tokenize source) :=
    (TokenStream.ofSource source).sublist_tokens_program
  rw [hts.tokenize_eq] at hsublist
  obtain ⟨us, us', htokens, hus, hus'⟩ := List.sublist_append_iff.mp hsublist
  rcases List.sublist_singleton.mp hus' with rfl | rfl
  · rwa [htokens, List.append_nil]
  · have hend : .endAt source.length ∈ (parse source).program.tokens := by
      rw [htokens]
      apply List.mem_append_right us (List.mem_singleton_self _)
    obtain ⟨-, hkind, -⟩ := (Program.isFormed_parseStream _).isProper_tokens _ hend
    cases hkind rfl

/-- The tokens of the program of a source are in the order of their offsets. -/
theorem pairwise_tokens_parse (source : String) :
  (parse source).program.tokens.Pairwise (fun t u => t.position < u.position) ∧
    ∀ t ∈ (parse source).program.tokens, 0 ≤ t.position ∧ t.position < source.length
  := by
  obtain ⟨ts, haccounts, hsublist⟩ := exists_accounts_parse source
  constructor
  · apply List.Pairwise.imp_of_mem _ (haccounts.ordered.sublist hsublist)
    intro t u ht _ hlimit
    have hlt := (haccounts.stands t (hsublist.subset ht)).position_lt_limit
    omega
  · intro t ht
    have hstands := haccounts.stands t (hsublist.subset ht)
    have hle := hstands.le_position
    have hlt := hstands.position_lt_limit
    have hlimit := hstands.limit_le
    rw [String.length_toList] at hlimit
    omega

/-- The tokens of a program are at increasing indices of its stream, whatever has been given up
between them.  The indices are the same for all streams with these kinds and texts.  A statement
may start at the first index that it keeps, and otherwise no index is used twice; and at none is
the end of the input or an illegal token.  In a source the offsets of the tokens increase as
well. -/
theorem exists_places :
  (∀ s : TokenStream, (parseStream s).program.tokens.Sublist s.tokens ∧
    ∃ places : List (Mark Nat), places.Pairwise Mark.Precedes ∧
      (∀ m ∈ places, m.value < s.tokens.length ∧ (s.get m.value).kind ≠ .endOfInput ∧
        (s.get m.value).kind ≠ .illegal) ∧
      ∀ s' : TokenStream, s'.unplaced = s.unplaced →
        (parseStream s').program.marks = places.map (Mark.map s'.get)) ∧
  ∀ source : String,
    (parse source).program.tokens.Pairwise (fun t u => t.position < u.position) ∧
      ∀ t ∈ (parse source).program.tokens, 0 ≤ t.position ∧ t.position < source.length
  := by
  constructor
  · intro s
    use s.sublist_tokens_program, s.places, s.pairwise_places, s.isProper_places
    intro s' h
    apply TokenStream.marks_program h
  · apply pairwise_tokens_parse

/-- The tokens of `(a; (b) c`. -/
def groupTokens : List Token :=
  [⟨.leftParen, "(", 0⟩, ⟨.identifier, "a", 1⟩, ⟨.semicolon, ";", 2⟩, ⟨.leftParen, "(", 4⟩,
    ⟨.identifier, "b", 5⟩, ⟨.rightParen, ")", 6⟩, ⟨.identifier, "c", 8⟩]

/-- In `(a; (b) c` the first statement is given up, and the second one starts before its first
token. -/
theorem exists_places_group :
  ∃ places : List (Mark Nat), places.Pairwise Mark.Precedes ∧
    (TokenStream.ofList groupTokens).unplaced.unplaced =
      (TokenStream.ofList groupTokens).unplaced ∧
    (parseStream (TokenStream.ofList groupTokens).unplaced).program.marks =
      places.map (Mark.map (TokenStream.ofList groupTokens).unplaced.get) ∧
    (parseStream (TokenStream.ofList groupTokens).unplaced).program.marks =
      [.start ⟨.leftParen, "(", 0⟩, .kept ⟨.identifier, "b", 0⟩,
        .start ⟨.identifier, "c", 0⟩, .kept ⟨.identifier, "c", 0⟩]
  := by
  obtain ⟨-, places, hordered, -, hplaces⟩ := exists_places.1 (.ofList groupTokens)
  exact ⟨places, hordered, rfl, hplaces _ rfl, rfl⟩

end MonkeySyntax
