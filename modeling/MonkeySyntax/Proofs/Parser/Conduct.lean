import Mathlib.Data.List.Basic
import Mathlib.Order.Basic
import MonkeySyntax.Parser.Program

/-!
# The conduct of parsing actions

A parser only moves forward and only adds to its diagnostics: `Parser.Reaches p q` says that
`q` has come from `p` in this way, at the same depth.  An action is `Parse.Orderly` when it
reaches the parser it leaves, and gives up only with a report.  Sequences and branches of
orderly actions are orderly, so every action of the parser is if the parser of the inner
expressions is, and the parser of expressions itself is orderly with any number of levels.
-/

namespace MonkeySyntax

namespace Parser

/-- The parser `q` has come from `p` by passing tokens and reporting, and is as deep. -/
structure Reaches (p q : Parser) : Prop where
  passed : ∃ n, q.stream = p.stream.drop n ∧ q.pulled = p.pulled + n
  depth_eq : q.depth = p.depth
  reported_suffix : p.reported <:+ q.reported

namespace Reaches

/-- A parser reaches itself. -/
theorem refl (p : Parser) :
  p.Reaches p
  where
  passed := ⟨0, by simp⟩
  depth_eq := rfl
  reported_suffix := List.suffix_refl _

/-- What is reached from a parser that is reached is reached. -/
theorem trans {p q r : Parser} (h : p.Reaches q) (h' : q.Reaches r) :
  p.Reaches r
  := by
  obtain ⟨m, hm, hm'⟩ := h.passed
  obtain ⟨n, hn, hn'⟩ := h'.passed
  constructor
  · use m + n
    simp [hm, hm', hn, hn', Nat.add_assoc]
  · rw [h'.depth_eq, h.depth_eq]
  · apply h.reported_suffix.trans h'.reported_suffix

theorem advanceBy (n : Nat) (p : Parser) :
  p.Reaches (p.advanceBy n)
  where
  passed := ⟨n, rfl, rfl⟩
  depth_eq := rfl
  reported_suffix := List.suffix_refl _

theorem advance (p : Parser) :
  p.Reaches p.advance
  where
  passed := ⟨1, by simp [Parser.advance, TokenStream.drop_one]⟩
  depth_eq := rfl
  reported_suffix := List.suffix_refl _

theorem skipToTerminator (p : Parser) :
  p.Reaches p.skipToTerminator
  := Reaches.advanceBy _ p

theorem report (d : Diagnostic) (p : Parser) :
  p.Reaches (p.report d)
  where
  passed := ⟨0, by simp [Parser.report]⟩
  depth_eq := rfl
  reported_suffix := List.suffix_cons d _

theorem countKept (p : Parser) :
  p.Reaches p.countKept
  := ⟨(refl p).passed, rfl, List.suffix_refl _⟩

theorem countDropped (p : Parser) :
  p.Reaches p.countDropped
  := ⟨(refl p).passed, rfl, List.suffix_refl _⟩

/-- What is reached one level deeper is reached when the level is left again. -/
theorem ascend {p q : Parser} (h : p.descend.Reaches q) :
  p.Reaches q.ascend
  where
  passed := h.passed
  depth_eq := by simp [Parser.ascend, h.depth_eq, Parser.descend]
  reported_suffix := h.reported_suffix

variable {p q r : Parser}

/-- Reports are never taken back. -/
theorem length_reported_le (h : p.Reaches q) :
  p.reported.length ≤ q.reported.length
  := h.reported_suffix.length_le

/-- No more tokens are ahead than there were. -/
theorem length_tokens_le (h : p.Reaches q) :
  q.stream.tokens.length ≤ p.stream.tokens.length
  := by
  obtain ⟨n, hn, -⟩ := h.passed
  rw [hn]
  simp [TokenStream.drop]

/-- No fewer tokens have been pulled than before. -/
theorem pulled_le (h : p.Reaches q) :
  p.pulled ≤ q.pulled
  := by
  obtain ⟨n, -, hpulled⟩ := h.passed
  omega

/-- If nothing has been reported on the way to `r`, then nothing has been on the way to
`q`. -/
theorem reported_eq (h : p.Reaches q) (h' : q.Reaches r) (hr : r.reported = p.reported) :
  q.reported = p.reported
  := by
  symm
  apply h.reported_suffix.eq_of_length_le
  rw [← hr]
  apply h'.length_reported_le

end Reaches

end Parser

namespace Parse

variable {α β : Type}

/-- An action that reaches the parser it leaves, and gives up only with a report. -/
class Orderly (x : Parse α) : Prop where
  reaches : ∀ p : Parser, p.Reaches (x p).2
  reports : ∀ p : Parser, (x p).1 = none → p.reported.length < (x p).2.reported.length

namespace Orderly

/-- An action that gives a value and leaves the parser as it is. -/
theorem of_apply {x : Parse α} (a : Parser → α) (h : ∀ p, x p = (some (a p), p)) :
  x.Orderly
  where
  reaches p := by
    rw [h]
    apply Parser.Reaches.refl
  reports p := by simp [h]

/-- An action that does at each parser what an orderly action does there. -/
theorem of_agrees {x : Parse α} (h : ∀ p, ∃ y : Parse α, y.Orderly ∧ x p = y p) :
  x.Orderly
  := by
  constructor
  · intro p
    obtain ⟨y, hy, hxy⟩ := h p
    rw [hxy]
    apply hy.reaches
  · intro p
    obtain ⟨y, hy, hxy⟩ := h p
    rw [hxy]
    apply hy.reports

instance (a : α) : (pure a : Parse α).Orderly :=
  of_apply (fun _ => a) (fun _ => rfl)

instance orderly_bind {x : Parse α} {f : α → Parse β} [hx : x.Orderly]
    [hf : ∀ a, (f a).Orderly] : (x >>= f).Orderly where
  reaches p := by
    have h := hx.reaches p
    rw [bind_apply]
    rcases hxp : x p with ⟨_ | a, q⟩
    · simpa [hxp] using h
    · rw [hxp] at h
      apply h.trans ((hf a).reaches q)
  reports p := by
    have h := hx.reaches p
    have h' := hx.reports p
    rw [bind_apply]
    rcases hxp : x p with ⟨_ | a, q⟩
    · simpa [hxp] using h'
    · rw [hxp] at h
      intro hnone
      apply Nat.lt_of_le_of_lt h.length_reported_le ((hf a).reports q hnone)

instance {c : Prop} [Decidable c] {x y : Parse α} [hx : x.Orderly] [hy : y.Orderly] :
    (if c then x else y).Orderly := by
  split
  · apply hx
  · apply hy

instance : current.Orderly :=
  of_apply _ (fun _ => rfl)

instance (kind : Kind) : (nextIs kind).Orderly :=
  of_apply _ (fun _ => rfl)

instance : ahead.Orderly :=
  of_apply _ (fun _ => rfl)

instance : identifier.Orderly :=
  of_apply _ (fun _ => rfl)

instance : boolean.Orderly :=
  of_apply _ (fun _ => rfl)

instance : advance.Orderly where
  reaches := Parser.Reaches.advance
  reports p := by simp [advance]

instance (d : Diagnostic) : (giveUp d : Parse α).Orderly where
  reaches := Parser.Reaches.report d
  reports p := by simp [giveUp, Parser.report]

instance (kind : Kind) : (expectNext kind).Orderly where
  reaches p := by
    rw [expectNext]
    split
    · apply Parser.Reaches.advance
    · apply Parser.Reaches.report
  reports p := by
    rw [expectNext]
    split <;> simp [Parser.report]

instance {x : Parse α} [hx : x.Orderly] : (recovering x).Orderly where
  reaches p := by
    have h := hx.reaches p
    rw [recovering]
    rcases hxp : x p with ⟨_ | a, q⟩
    · rw [hxp] at h
      apply h.trans (Parser.Reaches.skipToTerminator q)
    · rw [hxp] at h
      apply h
  reports p := by
    have h := hx.reports p
    rw [recovering]
    rcases hxp : x p with ⟨_ | a, q⟩
    · rw [hxp] at h
      apply h
    · simp

instance {x : Parse α} [hx : x.Orderly] : (nested x).Orderly where
  reaches p := (hx.reaches p.descend).ascend
  reports p := hx.reports p.descend

instance orderly_accounted {x : Parse α} [hx : x.Orderly] : (accounted x).Orderly where
  reaches p := by
    have h := hx.reaches p
    rw [accounted]
    rcases hxp : x p with ⟨_ | a, q⟩
    · rw [hxp] at h
      apply h.trans (Parser.Reaches.countDropped q)
    · rw [hxp] at h
      apply h.trans (Parser.Reaches.countKept q)
  reports p := by
    have h := hx.reports p
    rw [accounted]
    rcases hxp : x p with ⟨_ | a, q⟩
    · rw [hxp] at h
      apply h
    · simp

/-! ### Statements -/

section Statements

variable {inner : Inner} [∀ strength, (inner strength).Orderly]

instance : (letStatement inner).Orderly := by
  rw [letStatement]
  infer_instance

instance : (returnStatement inner).Orderly := by
  rw [returnStatement]
  infer_instance

instance : (expressionStatement inner).Orderly where
  reaches p := by
    have h := Orderly.reaches (x := inner .lowest) p
    rw [expressionStatement]
    rcases hxp : inner .lowest p with ⟨value, q⟩
    rw [hxp] at h
    dsimp only
    split
    · apply h.trans (Parser.Reaches.advance q)
    · apply h
  reports p := by
    have h := Orderly.reports (x := inner .lowest) p
    rw [expressionStatement]
    rcases hxp : inner .lowest p with ⟨value, q⟩
    rw [hxp] at h
    simp only [Option.map_eq_none_iff]
    intro hnone
    split
    · apply h hnone
    · apply h hnone

instance : (statement inner).Orderly := by
  apply @orderly_accounted _ _ (of_agrees _)
  intro p
  split
  · use letStatement inner, inferInstance
  · use returnStatement inner, inferInstance
  · use expressionStatement inner, inferInstance

/-- The loop of statements reaches the parser it leaves, though it gives no value by itself. -/
theorem reaches_statementsAfter (closes : Kind → Bool) (ahead : List Token)
    (read : List Stmt) (p : Parser) :
  p.Reaches (statementsAfter inner closes ahead read p).2
  := by
  induction ahead generalizing read p with
  | nil => apply Parser.Reaches.refl
  | cons t ahead ih =>
    have h := Orderly.reaches (x := statement inner) p
    rw [statementsAfter]
    split
    · apply Parser.Reaches.refl
    · rcases hs : statement inner p with ⟨_ | s, q⟩
      · rw [hs] at h
        apply h.trans ((Parser.Reaches.advance q).trans (ih _ _))
      · rw [hs] at h
        apply h.trans ((Parser.Reaches.advance q).trans (ih _ _))

/-- The loop goes on from where the first statement leaves the parser. -/
theorem reaches_statementsAfter_cons {closes : Kind → Bool} {t : Token} {ahead : List Token}
    {read : List Stmt} {p : Parser} (h : ¬ closes p.current.kind = true) :
  (statement inner p).2.Reaches (statementsAfter inner closes (t :: ahead) read p).2
  := by
  rw [statementsAfter, if_neg h]
  rcases statement inner p with ⟨_ | s, q⟩
  · apply (Parser.Reaches.advance q).trans (reaches_statementsAfter _ _ _ _)
  · apply (Parser.Reaches.advance q).trans (reaches_statementsAfter _ _ _ _)

/-- Statements reach the parser they leave. -/
theorem reaches_statements (closes : Kind → Bool) (p : Parser) :
  p.Reaches (statements inner closes p).2
  := reaches_statementsAfter _ _ _ p

instance : (block inner).Orderly where
  reaches p := (Parser.Reaches.advance p).trans (reaches_statements _ _)
  reports p := by simp [block]

end Statements

/-! ### Expressions -/

instance : integer.Orderly := by
  apply of_agrees
  intro p
  rw [integer]
  split
  next value _ =>
    use pure (Expr.integer p.current value), inferInstance
    rfl
  next =>
    use giveUp (.badInteger p.current.text), inferInstance
    rfl

instance (ahead : List Token) (read : List Ident) : (parametersAfter ahead read).Orderly := by
  induction ahead generalizing read with
  | nil =>
    rw [parametersAfter]
    infer_instance
  | cons t ahead ih =>
    rw [parametersAfter]
    infer_instance

instance : parameters.Orderly := by
  rw [parameters]
  infer_instance

section Expressions

variable {inner : Inner} [∀ strength, (inner strength).Orderly]

instance : (unary inner).Orderly := by
  rw [unary]
  infer_instance

instance : (group inner).Orderly := by
  rw [group]
  infer_instance

instance : (alternative inner).Orderly := by
  rw [alternative]
  infer_instance

set_option synthInstance.maxSize 512 in
instance : (conditional inner).Orderly := by
  rw [conditional]
  infer_instance

instance : (function inner).Orderly := by
  rw [function]
  infer_instance

instance (ahead : List Token) (read : List Expr) :
    (expressionsAfter inner ahead read).Orderly := by
  induction ahead generalizing read with
  | nil =>
    rw [expressionsAfter]
    infer_instance
  | cons t ahead ih =>
    rw [expressionsAfter]
    infer_instance

instance (closing : Kind) : (expressionList inner closing).Orderly := by
  rw [expressionList]
  infer_instance

instance : (operand inner).Orderly := by
  apply of_agrees
  intro p
  rw [operand]
  split
  · use pure (Expr.name ⟨p.current, p.current.text⟩), inferInstance
    rfl
  · use integer, inferInstance
  · use boolean, inferInstance
  · use boolean, inferInstance
  · use unary inner, inferInstance
  · use unary inner, inferInstance
  · use group inner, inferInstance
  · use conditional inner, inferInstance
  · use function inner, inferInstance
  · use giveUp (.noOperand p.current.kind), inferInstance
    rfl

instance (left : Expr) : (binary inner left).Orderly := by
  rw [binary]
  infer_instance

instance (function : Expr) : (call inner function).Orderly := by
  rw [call]
  infer_instance

instance (left : Expr) : (extension inner left).Orderly := by
  apply of_agrees
  intro p
  rw [extension]
  split
  · use call inner left, inferInstance
  · use binary inner left, inferInstance

instance (strength : Precedence) (ahead : List Token) (left : Expr) :
    Orderly (extensions inner strength ahead left) := by
  induction ahead generalizing left with
  | nil => exact of_apply (fun _ => left) (fun _ => rfl)
  | cons t ahead ih =>
    constructor
    · intro p
      have h := Orderly.reaches (x := extension inner left) p.advance
      rw [extensions]
      split
      · rcases hxp : extension inner left p.advance with ⟨_ | e, q⟩
        · rw [hxp] at h
          apply (Parser.Reaches.advance p).trans h
        · rw [hxp] at h
          apply (Parser.Reaches.advance p).trans (h.trans ((ih e).reaches q))
      · apply Parser.Reaches.refl
    · intro p
      have h := Orderly.reaches (x := extension inner left) p.advance
      have h' := Orderly.reports (x := extension inner left) p.advance
      rw [extensions]
      split
      · rcases hxp : extension inner left p.advance with ⟨_ | e, q⟩
        · rw [hxp] at h'
          apply h'
        · rw [hxp] at h
          intro hnone
          apply Nat.lt_of_le_of_lt h.length_reported_le ((ih e).reports q hnone)
      · simp

instance (strength : Precedence) : (climb inner strength).Orderly := by
  rw [climb]
  apply @orderly_bind _ _ _ _ _ (fun left => @orderly_bind _ _ _ _ _ (fun ahead => _))
  infer_instance

end Expressions

instance : refuseDepth.Orderly := by
  rw [refuseDepth]
  infer_instance

instance (levels : Nat) (strength : Precedence) : (expressionWithin levels strength).Orderly := by
  induction levels generalizing strength with
  | zero =>
    rw [expressionWithin]
    infer_instance
  | succ levels ih =>
    rw [expressionWithin]
    infer_instance

instance (strength : Precedence) : (expression strength).Orderly := by
  apply of_agrees
  intro p
  use expressionWithin (maxNesting - p.depth) strength, inferInstance
  rfl

end Orderly

end Parse

end MonkeySyntax
