import MonkeySyntax.Proofs.Parser.Formation

/-!
# What is reported

A diagnostic is due at a parser when it tells what is wrong there: the next token is of another
kind than the one wanted, no expression starts with the current token, or the text of the current
token, which is an integer token, is no integer.

`Parser.IsInvariant P` says that `P` goes on to hold whatever the parser does in one step, where a
report is one that is due.  Then it goes on to hold in every action, and so in the whole run.  In
this way every diagnostic of a run is traced to a token: what is reported as no integer is the
text of an integer token of the stream.
-/

namespace MonkeySyntax

/-- A diagnostic that tells what is wrong with the tokens in view. -/
inductive Diagnostic.IsDue (p : Parser) : Diagnostic → Prop
  | unexpected {wanted : Kind} (h : p.next.kind ≠ wanted) :
      IsDue p (.unexpected wanted p.next.kind)
  | noOperand (h : p.current.kind.startsExpr = false) : IsDue p (.noOperand p.current.kind)
  | badInteger (hkind : p.current.kind = .integer)
      (h : Parse.integerValue? p.current.text = none) : IsDue p (.badInteger p.current.text)
  | tooDeep : IsDue p .tooDeep

/-- What goes on to hold of a parser in each step by itself. -/
class Parser.IsInvariant (P : Parser → Prop) : Prop where
  advance {p : Parser} : P p → P p.advance
  skipToTerminator {p : Parser} : P p → P p.skipToTerminator
  report {p : Parser} {d : Diagnostic} : d.IsDue p → P p → P (p.report d)
  descend {p : Parser} : P p → P p.descend
  ascend {p : Parser} : P p → P p.ascend
  countKept {p : Parser} : P p → P p.countKept
  countDropped {p : Parser} : P p → P p.countDropped

namespace Parse

variable {α β : Type}

/-- An action after which `P` holds if it has held before. -/
class Preserves (P : Parser → Prop) (x : Parse α) : Prop where
  holds : ∀ p, P p → P (x p).2

namespace Preserves

variable {P : Parser → Prop}

/-- An action that leaves the parser as it is. -/
theorem of_apply {x : Parse α} (h : ∀ p, (x p).2 = p) :
  Preserves P x
  where
  holds p hp := by
    rw [h]
    apply hp

instance (a : α) : Preserves P (pure a : Parse α) :=
  of_apply (fun _ => rfl)

instance preserves_bind {x : Parse α} {f : α → Parse β} [hx : Preserves P x]
    [hf : ∀ a, Preserves P (f a)] : Preserves P (x >>= f) where
  holds p hp := by
    have h := hx.holds p hp
    rw [bind_apply]
    rcases hxp : x p with ⟨_ | a, q⟩
    · rw [hxp] at h
      apply h
    · rw [hxp] at h
      apply (hf a).holds q h

instance {c : Prop} [Decidable c] {x y : Parse α} [hx : Preserves P x] [hy : Preserves P y] :
    Preserves P (if c then x else y) := by
  split
  · apply hx
  · apply hy

instance : Preserves P current :=
  of_apply (fun _ => rfl)

instance (kind : Kind) : Preserves P (nextIs kind) :=
  of_apply (fun _ => rfl)

instance : Preserves P ahead :=
  of_apply (fun _ => rfl)

instance : Preserves P identifier :=
  of_apply (fun _ => rfl)

instance : Preserves P boolean :=
  of_apply (fun _ => rfl)

variable [hP : Parser.IsInvariant P]

instance : Preserves P advance where
  holds _ := hP.advance

instance (kind : Kind) : Preserves P (expectNext kind) where
  holds p hp := by
    rw [expectNext]
    split
    next => apply hP.advance hp
    next hno =>
      have hkind : p.next.kind ≠ kind := fun hkind => hno ((Parser.nextIs_iff kind p).mpr hkind)
      apply hP.report (.unexpected hkind) hp

instance {x : Parse α} [hx : Preserves P x] : Preserves P (recovering x) where
  holds p hp := by
    have h := hx.holds p hp
    rw [recovering]
    rcases hxp : x p with ⟨_ | a, q⟩
    · rw [hxp] at h
      apply hP.skipToTerminator h
    · rw [hxp] at h
      apply h

instance {x : Parse α} [hx : Preserves P x] : Preserves P (nested x) where
  holds p hp := hP.ascend (hx.holds p.descend (hP.descend hp))

/-- What reports and moves keep is kept when a statement is entered in the account. -/
theorem accounted {x : Parse α} {p : Parser} (h : P (x p).2) :
  P (Parse.accounted x p).2
  := by
  rw [Parse.accounted]
  rcases hxp : x p with ⟨_ | a, q⟩
  · rw [hxp] at h
    apply hP.countDropped h
  · rw [hxp] at h
    apply hP.countKept h

/-! ### Statements -/

section Statements

variable {inner : Inner} [hinner : ∀ strength, Preserves P (inner strength)]

instance : Preserves P (letStatement inner) := by
  rw [letStatement]
  infer_instance

instance : Preserves P (returnStatement inner) := by
  rw [returnStatement]
  infer_instance

instance : Preserves P (expressionStatement inner) where
  holds p hp := by
    have h := (hinner .lowest).holds p hp
    rw [expressionStatement]
    dsimp only
    split
    · apply hP.advance h
    · apply h

instance : Preserves P (statement inner) where
  holds p hp := by
    apply accounted
    split
    · apply holds p hp
    · apply holds p hp
    · apply holds p hp

/-- What a statement keeps is kept by the loop of statements. -/
theorem statementsAfter (closes : Kind → Bool) (ahead : List Token) (read : List Stmt)
    {p : Parser} (hp : P p) :
  P (Parse.statementsAfter inner closes ahead read p).2
  := by
  induction ahead generalizing read p with
  | nil => apply hp
  | cons t ahead ih =>
    have h := holds (P := P) (x := statement inner) p hp
    rw [Parse.statementsAfter]
    split
    · apply hp
    · rcases hs : statement inner p with ⟨_ | s, q⟩
      · rw [hs] at h
        apply ih _ (hP.advance h)
      · rw [hs] at h
        apply ih _ (hP.advance h)

instance : Preserves P (block inner) where
  holds _ hp := statementsAfter closesBlock _ _ (hP.advance hp)

end Statements

/-! ### Expressions -/

/-- An integer token is reported when its text is no integer. -/
theorem integer {p : Parser} (hkind : p.current.kind = .integer) (hp : P p) :
  P (Parse.integer p).2
  := by
  rw [Parse.integer]
  split
  next => apply hp
  next hnone => apply hP.report (.badInteger hkind hnone) hp

instance (ahead : List Token) (read : List Ident) : Preserves P (parametersAfter ahead read) := by
  induction ahead generalizing read with
  | nil =>
    rw [parametersAfter]
    infer_instance
  | cons t ahead ih =>
    rw [parametersAfter]
    infer_instance

instance : Preserves P parameters := by
  rw [parameters]
  infer_instance

section Expressions

variable {inner : Inner} [hinner : ∀ strength, Preserves P (inner strength)]

instance : Preserves P (unary inner) := by
  rw [unary]
  infer_instance

instance : Preserves P (group inner) := by
  rw [group]
  infer_instance

instance : Preserves P (alternative inner) := by
  rw [alternative]
  infer_instance

set_option synthInstance.maxSize 512 in
instance : Preserves P (conditional inner) := by
  rw [conditional]
  infer_instance

instance : Preserves P (function inner) := by
  rw [function]
  infer_instance

instance (ahead : List Token) (read : List Expr) :
    Preserves P (expressionsAfter inner ahead read) := by
  induction ahead generalizing read with
  | nil =>
    rw [expressionsAfter]
    infer_instance
  | cons t ahead ih =>
    rw [expressionsAfter]
    infer_instance

instance (closing : Kind) : Preserves P (expressionList inner closing) := by
  rw [expressionList]
  infer_instance

instance : Preserves P (operand inner) where
  holds p hp := by
    rw [operand]
    split
    next => apply hp
    next hkind => apply integer hkind hp
    next => apply holds p hp
    next => apply holds p hp
    next => apply holds p hp
    next => apply holds p hp
    next => apply holds p hp
    next => apply holds p hp
    next => apply holds p hp
    next =>
      have hstarts : p.current.kind.startsExpr = false := by
        rw [Kind.startsExpr.eq_def]
        split <;> first | rfl | contradiction
      apply hP.report (.noOperand hstarts) hp

instance (left : Expr) : Preserves P (binary inner left) := by
  rw [binary]
  infer_instance

instance (function : Expr) : Preserves P (call inner function) := by
  rw [call]
  infer_instance

instance (left : Expr) : Preserves P (extension inner left) where
  holds p hp := by
    rw [extension]
    split
    · apply holds p hp
    · apply holds p hp

instance (strength : Precedence) (ahead : List Token) (left : Expr) :
    Preserves P (extensions inner strength ahead left) := by
  induction ahead generalizing left with
  | nil => exact of_apply (fun _ => rfl)
  | cons t ahead ih =>
    constructor
    intro p hp
    have h := holds (P := P) (x := extension inner left) p.advance (hP.advance hp)
    rw [extensions]
    split
    · rcases hxp : extension inner left p.advance with ⟨_ | e, q⟩
      · rw [hxp] at h
        apply h
      · rw [hxp] at h
        apply (ih e).holds q h
    · apply hp

instance (strength : Precedence) : Preserves P (climb inner strength) := by
  rw [climb]
  apply @preserves_bind _ _ _ _ _ _ (fun left => @preserves_bind _ _ _ _ _ _ (fun ahead => _))
  infer_instance

end Expressions

instance (levels : Nat) (strength : Precedence) :
    Preserves P (expressionWithin levels strength) := by
  induction levels generalizing strength with
  | zero =>
    constructor
    intro p hp
    apply hP.skipToTerminator (hP.report .tooDeep hp)
  | succ levels ih =>
    rw [expressionWithin]
    infer_instance

instance (strength : Precedence) : Preserves P (expression strength) where
  holds p hp := holds (x := expressionWithin (maxNesting - p.depth) strength) p hp

end Preserves

end Parse

namespace Parser

/-- What is invariant holds at the end of a program. -/
theorem IsInvariant.program {P : Parser → Prop} [IsInvariant P] {p : Parser} (hp : P p) :
  P p.program.2
  := Parse.Preserves.statementsAfter _ _ _ hp

end Parser

/-! ### Tokens that are reported -/

/-- A diagnostic that is founded on the tokens of which `T` holds: a text that is reported as no
integer is that of an integer token, and other diagnostics name kinds alone. -/
def Diagnostic.IsFounded (T : Token → Prop) : Diagnostic → Prop
  | unexpected wanted found => found ≠ wanted
  | noOperand found => found.startsExpr = false
  | badInteger text =>
    ∃ t, T t ∧ t.kind = .integer ∧ t.text = text ∧ Parse.integerValue? text = none
  | tooDeep => True

namespace Parser

variable {T : Token → Prop}

/-- A diagnostic that is due is founded on the tokens ahead. -/
theorem Among.isFounded {p : Parser} (h : p.Among T) {d : Diagnostic} (hd : d.IsDue p) :
  d.IsFounded T
  := by
  cases hd with
  | unexpected hkind => exact hkind
  | noOperand hstarts => exact hstarts
  | badInteger hkind hnone => exact ⟨p.current, h.current (by simp [hkind]), hkind, rfl, hnone⟩
  | tooDeep => trivial

/-- Only tokens of which `T` holds are ahead, and what has been reported is founded on them. -/
structure IsFounded (T : Token → Prop) (p : Parser) : Prop where
  among : p.Among T
  reported : ∀ d ∈ p.reported, d.IsFounded T

instance : IsInvariant (IsFounded T) where
  advance h := ⟨h.among.advance, h.reported⟩
  skipToTerminator h := ⟨h.among.reaches (.skipToTerminator _), h.reported⟩
  report hd h := ⟨h.among, List.forall_mem_cons.mpr ⟨h.among.isFounded hd, h.reported⟩⟩
  descend h := ⟨h.among, h.reported⟩
  ascend h := ⟨h.among, h.reported⟩
  countKept h := ⟨h.among, h.reported⟩
  countDropped h := ⟨h.among, h.reported⟩

end Parser

/-- What is reported of a stream is founded on its tokens. -/
theorem isFounded_diagnostics (s : TokenStream) :
  ∀ d ∈ (parseStream s).diagnostics, d.IsFounded (· ∈ s.tokens)
  := by
  intro d hd
  have hstart : (Parser.ofStream s).IsFounded (· ∈ s.tokens) :=
    ⟨fun _ ht => ht, List.forall_mem_nil _⟩
  have hend := Parser.IsInvariant.program hstart
  apply hend.reported d (List.mem_reverse.mp hd)

end MonkeySyntax
