import MonkeySyntax.Proofs.Tree.Formed

/-!
# The tokens of a tree in order

`marks` goes through the tokens of a tree in the order in which a source has them: an operator
between two operands comes after the left one, the parenthesis of a call after the function, and
every other token before the parts of its construct.

The token of an expression statement is not one more token.  It is where the statement starts,
which is either the first token of the expression or a parenthesis before it.  So it is marked as
a start, and all others as kept, and `tokens` leaves the starts out.
-/

namespace MonkeySyntax

/-- A token of a tree, or its index in a stream. -/
inductive Mark (α : Type) where
  /-- An expression statement starts here. -/
  | start (a : α)
  /-- The tree keeps what stands here. -/
  | kept (a : α)
deriving DecidableEq, Repr

namespace Mark

variable {α β : Type}

/-- What is marked. -/
def value : Mark α → α
  | start a => a
  | kept a => a

/-- What the tree keeps. -/
def kept? : Mark α → Option α
  | start _ => none
  | kept a => some a

/-- The same mark for something else. -/
def map (f : α → β) : Mark α → Mark β
  | start a => start (f a)
  | kept a => kept (f a)

@[simp]
theorem value_map (f : α → β) (m : Mark α) :
  (m.map f).value = f m.value
  := by
  cases m <;> rfl

/-- What a changed mark keeps is what the mark keeps, changed. -/
theorem kept?_map (f : α → β) (m : Mark α) :
  (m.map f).kept? = m.kept?.map f
  := by
  cases m <;> rfl

/-- What is kept is what is marked. -/
theorem value_of_kept? {m : Mark α} {a : α} (h : m.kept? = some a) :
  m.value = a
  := by
  cases m with
  | start a => cases h
  | kept b => exact Option.some.inj h

/-- The order of two marked indices.  A statement may start at the first index that it keeps, and
two indices are different otherwise. -/
def Precedes : Mark Nat → Mark Nat → Prop
  | start i, kept j => i ≤ j
  | start i, start j => i < j
  | kept i, m => i < m.value

/-- A lesser index comes first, whatever the marks are. -/
theorem precedes_of_lt {m n : Mark Nat} (h : m.value < n.value) :
  m.Precedes n
  := by
  cases m with
  | start i =>
    cases n with
    | start j => exact h
    | kept j => exact Nat.le_of_lt h
  | kept i => exact h

/-- What the tree keeps is in strict order. -/
theorem Precedes.kept_lt {m n : Mark Nat} {i j : Nat} (h : m.Precedes n) (hm : m.kept? = some i)
    (hn : n.kept? = some j) :
  i < j
  := by
  cases m with
  | start k => cases hm
  | kept k =>
    obtain rfl : k = i := Option.some.inj hm
    rwa [← value_of_kept? hn]

end Mark

mutual

/-- The marks of an expression. -/
def Expr.marks : Expr → List (Mark Token)
  | .name id => [.kept id.token]
  | .integer token _ => [.kept token]
  | .boolean token _ => [.kept token]
  | .unary token _ right => .kept token :: right.marks
  | .binary token left _ right => left.marks ++ .kept token :: right.marks
  | .conditional token condition consequence alternative =>
    .kept token :: (condition.marks ++ (consequence.marks ++ Block.marksElse alternative))
  | .function token parameters body =>
    .kept token :: (parameters.map (fun id => .kept id.token) ++ body.marks)
  | .call token function arguments =>
    function.marks ++ .kept token :: Expr.marksEach arguments

/-- The marks of expressions, one after the other. -/
def Expr.marksEach : List Expr → List (Mark Token)
  | [] => []
  | e :: es => e.marks ++ Expr.marksEach es

/-- The marks of a statement. -/
def Stmt.marks : Stmt → List (Mark Token)
  | .binding token name value => .kept token :: .kept name.token :: value.marks
  | .returning token none => [.kept token]
  | .returning token (some value) => .kept token :: value.marks
  | .expression token value => .start token :: value.marks
  | .block body => body.marks

/-- The marks of statements, one after the other. -/
def Stmt.marksEach : List Stmt → List (Mark Token)
  | [] => []
  | s :: ss => s.marks ++ Stmt.marksEach ss

/-- The marks of a block. -/
def Block.marks : Block → List (Mark Token)
  | .mk token statements => .kept token :: Stmt.marksEach statements

/-- The marks of the second block of a choice, if there is one. -/
def Block.marksElse : Option Block → List (Mark Token)
  | none => []
  | some b => b.marks

end

/-- The marks of a program. -/
def Program.marks (p : Program) : List (Mark Token) :=
  Stmt.marksEach p.statements

/-- The tokens of a program in order, without those of its expression statements. -/
def Program.tokens (p : Program) : List Token :=
  p.marks.filterMap Mark.kept?

/-- The marks of expressions come one after the other. -/
theorem Expr.marksEach_append (es es' : List Expr) :
  Expr.marksEach (es ++ es') = Expr.marksEach es ++ Expr.marksEach es'
  := by
  induction es with
  | nil => rfl
  | cons e es ih => simp only [List.cons_append, Expr.marksEach, ih, List.append_assoc]

theorem Expr.marksEach_singleton (e : Expr) :
  Expr.marksEach [e] = e.marks
  := List.append_nil e.marks

/-- An expression keeps the first of its tokens. -/
theorem Expr.exists_marks_eq_cons (e : Expr) :
  ∃ t ms, e.marks = .kept t :: ms
  := by
  cases e with
  | binary token left operator right =>
    obtain ⟨t, ms, hleft⟩ := left.exists_marks_eq_cons
    use t, ms ++ .kept token :: right.marks
    rw [Expr.marks, hleft, List.cons_append]
  | call token callee arguments =>
    obtain ⟨t, ms, hcallee⟩ := callee.exists_marks_eq_cons
    use t, ms ++ .kept token :: Expr.marksEach arguments
    rw [Expr.marks, hcallee, List.cons_append]
  | _ => exact ⟨_, _, rfl⟩

/-! ### Changing tokens -/

section

variable (f : Token → Token)

mutual

/-- The marks of a changed expression are its marks, changed. -/
theorem Expr.marks_mapTokens : ∀ e : Expr, (e.mapTokens f f).marks = e.marks.map (Mark.map f)
  | .name _ => rfl
  | .integer _ _ => rfl
  | .boolean _ _ => rfl
  | .unary _ _ right => by
    simp only [Expr.mapTokens, Expr.marks, Expr.marks_mapTokens right, List.map_cons, Mark.map]
  | .binary _ left _ right => by
    simp only [Expr.mapTokens, Expr.marks, Expr.marks_mapTokens left, Expr.marks_mapTokens right,
      List.map_cons, List.map_append, Mark.map]
  | .conditional _ condition consequence alternative => by
    simp only [Expr.mapTokens, Expr.marks, Expr.marks_mapTokens condition,
      Block.marks_mapTokens consequence, Block.marksElse_mapTokensElse alternative,
      List.map_cons, List.map_append, Mark.map]
  | .function _ parameters body => by
    simp only [Expr.mapTokens, Expr.marks, Block.marks_mapTokens body, List.map_cons,
      List.map_append, List.map_map, Function.comp_def, Ident.mapToken, Mark.map]
  | .call _ function arguments => by
    simp only [Expr.mapTokens, Expr.marks, Expr.marks_mapTokens function,
      Expr.marksEach_mapTokensEach arguments, List.map_cons, List.map_append, Mark.map]

theorem Expr.marksEach_mapTokensEach : ∀ es : List Expr,
    Expr.marksEach (Expr.mapTokensEach f f es) = (Expr.marksEach es).map (Mark.map f)
  | [] => rfl
  | e :: es => by
    simp only [Expr.mapTokensEach, Expr.marksEach, Expr.marks_mapTokens e,
      Expr.marksEach_mapTokensEach es, List.map_append]

theorem Stmt.marks_mapTokens : ∀ s : Stmt, (s.mapTokens f f).marks = s.marks.map (Mark.map f)
  | .binding _ _ value => by
    simp only [Stmt.mapTokens, Stmt.marks, Expr.marks_mapTokens value, List.map_cons,
      Ident.mapToken, Mark.map]
  | .returning _ none => rfl
  | .returning _ (some value) => by
    simp only [Stmt.mapTokens, Stmt.marks, Expr.marks_mapTokens value, List.map_cons, Mark.map]
  | .expression _ value => by
    simp only [Stmt.mapTokens, Stmt.marks, Expr.marks_mapTokens value, List.map_cons, Mark.map]
  | .block body => by simp only [Stmt.mapTokens, Stmt.marks, Block.marks_mapTokens body]

theorem Stmt.marksEach_mapTokensEach : ∀ ss : List Stmt,
    Stmt.marksEach (Stmt.mapTokensEach f f ss) = (Stmt.marksEach ss).map (Mark.map f)
  | [] => rfl
  | s :: ss => by
    simp only [Stmt.mapTokensEach, Stmt.marksEach, Stmt.marks_mapTokens s,
      Stmt.marksEach_mapTokensEach ss, List.map_append]

theorem Block.marks_mapTokens : ∀ b : Block, (b.mapTokens f f).marks = b.marks.map (Mark.map f)
  | .mk _ statements => by
    simp only [Block.mapTokens, Block.marks, Stmt.marksEach_mapTokensEach statements,
      List.map_cons, Mark.map]

theorem Block.marksElse_mapTokensElse : ∀ b : Option Block,
    Block.marksElse (Block.mapTokensElse f f b) = (Block.marksElse b).map (Mark.map f)
  | none => rfl
  | some b => by simp only [Block.mapTokensElse, Block.marksElse, Block.marks_mapTokens b]

end

theorem Program.marks_mapTokens (p : Program) :
  (p.mapTokens f f).marks = p.marks.map (Mark.map f)
  := Stmt.marksEach_mapTokensEach f p.statements

end

/-! ### Changing marked tokens alike -/

section

variable {f g : Token → Token}

mutual

/-- Changes that do the same to the marked tokens of an expression do the same to the expression. -/
theorem Expr.mapTokens_congr : ∀ {e : Expr}, (∀ m ∈ e.marks, f m.value = g m.value) →
    e.mapTokens f f = e.mapTokens g g
  | .name id, h => by
    simp only [Expr.marks, List.forall_mem_singleton, Mark.value] at h
    rw [Expr.mapTokens, Expr.mapTokens, Ident.mapToken, Ident.mapToken, h]
  | .integer _ _, h => by
    simp only [Expr.marks, List.forall_mem_singleton, Mark.value] at h
    rw [Expr.mapTokens, Expr.mapTokens, h]
  | .boolean _ _, h => by
    simp only [Expr.marks, List.forall_mem_singleton, Mark.value] at h
    rw [Expr.mapTokens, Expr.mapTokens, h]
  | .unary _ _ _, h => by
    simp only [Expr.marks, List.forall_mem_cons, Mark.value] at h
    rw [Expr.mapTokens, Expr.mapTokens, h.1, Expr.mapTokens_congr h.2]
  | .binary _ _ _ _, h => by
    simp only [Expr.marks, List.forall_mem_append, List.forall_mem_cons, Mark.value] at h
    obtain ⟨hleft, htoken, hright⟩ := h
    rw [Expr.mapTokens, Expr.mapTokens, htoken, Expr.mapTokens_congr hleft,
      Expr.mapTokens_congr hright]
  | .conditional _ _ _ _, h => by
    simp only [Expr.marks, List.forall_mem_append, List.forall_mem_cons, Mark.value] at h
    obtain ⟨htoken, hcondition, hconsequence, halternative⟩ := h
    rw [Expr.mapTokens, Expr.mapTokens, htoken, Expr.mapTokens_congr hcondition,
      Block.mapTokens_congr hconsequence, Block.mapTokensElse_congr halternative]
  | .function _ parameters _, h => by
    simp only [Expr.marks, List.forall_mem_append, List.forall_mem_cons, List.forall_mem_map,
      Mark.value] at h
    obtain ⟨htoken, hnames, hbody⟩ := h
    have hparameters : parameters.map (Ident.mapToken f) = parameters.map (Ident.mapToken g) := by
      apply List.map_congr_left
      intro id hid
      rw [Ident.mapToken, Ident.mapToken, hnames id hid]
    rw [Expr.mapTokens, Expr.mapTokens, htoken, hparameters, Block.mapTokens_congr hbody]
  | .call _ _ _, h => by
    simp only [Expr.marks, List.forall_mem_append, List.forall_mem_cons, Mark.value] at h
    obtain ⟨hfunction, htoken, harguments⟩ := h
    rw [Expr.mapTokens, Expr.mapTokens, htoken, Expr.mapTokens_congr hfunction,
      Expr.mapTokensEach_congr harguments]

theorem Expr.mapTokensEach_congr : ∀ {es : List Expr},
    (∀ m ∈ Expr.marksEach es, f m.value = g m.value) →
      Expr.mapTokensEach f f es = Expr.mapTokensEach g g es
  | [], _ => rfl
  | _ :: _, h => by
    rw [Expr.marksEach, List.forall_mem_append] at h
    rw [Expr.mapTokensEach, Expr.mapTokensEach, Expr.mapTokens_congr h.1,
      Expr.mapTokensEach_congr h.2]

theorem Stmt.mapTokens_congr : ∀ {s : Stmt}, (∀ m ∈ s.marks, f m.value = g m.value) →
    s.mapTokens f f = s.mapTokens g g
  | .binding _ _ _, h => by
    simp only [Stmt.marks, List.forall_mem_cons, Mark.value] at h
    obtain ⟨htoken, hname, hvalue⟩ := h
    rw [Stmt.mapTokens, Stmt.mapTokens, Ident.mapToken, Ident.mapToken, htoken, hname,
      Expr.mapTokens_congr hvalue]
  | .returning _ none, h => by
    simp only [Stmt.marks, List.forall_mem_singleton, Mark.value] at h
    rw [Stmt.mapTokens, Stmt.mapTokens, h]
  | .returning _ (some _), h => by
    simp only [Stmt.marks, List.forall_mem_cons, Mark.value] at h
    rw [Stmt.mapTokens, Stmt.mapTokens, h.1, Expr.mapTokens_congr h.2]
  | .expression _ _, h => by
    simp only [Stmt.marks, List.forall_mem_cons, Mark.value] at h
    rw [Stmt.mapTokens, Stmt.mapTokens, h.1, Expr.mapTokens_congr h.2]
  | .block _, h => by rw [Stmt.mapTokens, Stmt.mapTokens, Block.mapTokens_congr h]

theorem Stmt.mapTokensEach_congr : ∀ {ss : List Stmt},
    (∀ m ∈ Stmt.marksEach ss, f m.value = g m.value) →
      Stmt.mapTokensEach f f ss = Stmt.mapTokensEach g g ss
  | [], _ => rfl
  | _ :: _, h => by
    rw [Stmt.marksEach, List.forall_mem_append] at h
    rw [Stmt.mapTokensEach, Stmt.mapTokensEach, Stmt.mapTokens_congr h.1,
      Stmt.mapTokensEach_congr h.2]

theorem Block.mapTokens_congr : ∀ {b : Block}, (∀ m ∈ b.marks, f m.value = g m.value) →
    b.mapTokens f f = b.mapTokens g g
  | .mk _ _, h => by
    simp only [Block.marks, List.forall_mem_cons, Mark.value] at h
    rw [Block.mapTokens, Block.mapTokens, h.1, Stmt.mapTokensEach_congr h.2]

theorem Block.mapTokensElse_congr : ∀ {b : Option Block},
    (∀ m ∈ Block.marksElse b, f m.value = g m.value) →
      Block.mapTokensElse f f b = Block.mapTokensElse g g b
  | none, _ => rfl
  | some _, h => by rw [Block.mapTokensElse, Block.mapTokensElse, Block.mapTokens_congr h]

end

/-- The tokens of a program are those that are marked. -/
theorem Program.mapTokens_congr {p : Program} (h : ∀ m ∈ p.marks, f m.value = g m.value) :
  p.mapTokens f f = p.mapTokens g g
  := by
  rw [Program.mapTokens, Program.mapTokens, Stmt.mapTokensEach_congr h]

end

/-! ### Fully formed trees -/

section

variable {T : Token → Prop}

/-- A token of which `T` holds, and which is neither the end of the input nor illegal. -/
def Token.IsProper (T : Token → Prop) (t : Token) : Prop :=
  T t ∧ t.kind ≠ .endOfInput ∧ t.kind ≠ .illegal

/-- A token of some kind is proper, unless the kind is that of the end or of no token at all. -/
theorem Token.isProper_of_kind {t : Token} {kind : Kind} (ht : T t) (h : t.kind = kind)
    (hkind : kind ≠ .endOfInput ∧ kind ≠ .illegal) :
  t.IsProper T
  := ⟨ht, by rwa [h]⟩

/-- A token of a sort that has neither the end of the input nor illegal tokens. -/
theorem Token.isProper_of_sort {t : Token} {sort : Kind → Bool} (ht : T t)
    (h : sort t.kind = true) (hend : sort .endOfInput = false)
    (hillegal : sort .illegal = false) :
  t.IsProper T
  := by
  refine ⟨ht, ?_, ?_⟩
  · rintro hkind
    rw [hkind, hend] at h
    cases h
  · rintro hkind
    rw [hkind, hillegal] at h
    cases h

theorem Ident.IsFormed.isProper {id : Ident} (h : id.IsFormed T) :
  id.token.IsProper T
  := Token.isProper_of_kind h.1 h.2.1 (by decide)

mutual

/-- The tokens of an expression that is fully formed are proper. -/
theorem Expr.IsFormed.isProper : ∀ {e : Expr}, e.IsFormed T → ∀ m ∈ e.marks, m.value.IsProper T
  | .name _, h => List.forall_mem_singleton.mpr (Ident.IsFormed.isProper h)
  | .integer _ _, ⟨ht, hkind, _⟩ =>
    List.forall_mem_singleton.mpr (Token.isProper_of_kind ht hkind (by decide))
  | .boolean _ _, ⟨ht, hkind, _⟩ => by
    rw [Expr.marks, List.forall_mem_singleton]
    rcases hkind with hkind | hkind
    · apply Token.isProper_of_kind ht hkind (by decide)
    · apply Token.isProper_of_kind ht hkind (by decide)
  | .unary _ _ _, ⟨ht, hkind, _, hright⟩ => by
    rw [Expr.marks, List.forall_mem_cons]
    refine ⟨?_, hright.isProper⟩
    rcases hkind with hkind | hkind
    · apply Token.isProper_of_kind ht hkind (by decide)
    · apply Token.isProper_of_kind ht hkind (by decide)
  | .binary _ _ _ _, ⟨ht, hkind, _, hleft, hright⟩ => by
    rw [Expr.marks, List.forall_mem_append, List.forall_mem_cons]
    exact ⟨hleft.isProper, Token.isProper_of_sort ht hkind rfl rfl, hright.isProper⟩
  | .conditional _ _ _ _, ⟨ht, hkind, hcondition, hconsequence, halternative⟩ => by
    rw [Expr.marks, List.forall_mem_cons, List.forall_mem_append, List.forall_mem_append]
    exact ⟨Token.isProper_of_kind ht hkind (by decide), hcondition.isProper,
      hconsequence.isProper, Block.IsFormedElse.isProper halternative⟩
  | .function _ _ _, ⟨ht, hkind, hparameters, hbody⟩ => by
    rw [Expr.marks, List.forall_mem_cons, List.forall_mem_append, List.forall_mem_map]
    exact ⟨Token.isProper_of_kind ht hkind (by decide), fun id hid => (hparameters id hid).isProper,
      hbody.isProper⟩
  | .call _ _ _, ⟨ht, hkind, hfunction, harguments⟩ => by
    rw [Expr.marks, List.forall_mem_append, List.forall_mem_cons]
    exact ⟨hfunction.isProper, Token.isProper_of_kind ht hkind (by decide),
      Expr.AreFormed.isProper harguments⟩

theorem Expr.AreFormed.isProper : ∀ {es : List Expr}, Expr.AreFormed T es →
    ∀ m ∈ Expr.marksEach es, m.value.IsProper T
  | [], _ => List.forall_mem_nil _
  | _ :: _, ⟨he, hes⟩ => by
    rw [Expr.marksEach, List.forall_mem_append]
    exact ⟨he.isProper, Expr.AreFormed.isProper hes⟩

theorem Stmt.IsFormed.isProper : ∀ {s : Stmt}, s.IsFormed T → ∀ m ∈ s.marks, m.value.IsProper T
  | .binding _ _ _, ⟨ht, hkind, hname, hvalue⟩ => by
    rw [Stmt.marks, List.forall_mem_cons, List.forall_mem_cons]
    exact ⟨Token.isProper_of_kind ht hkind (by decide), hname.isProper, hvalue.isProper⟩
  | .returning _ none, ⟨ht, hkind⟩ =>
    List.forall_mem_singleton.mpr (Token.isProper_of_kind ht hkind (by decide))
  | .returning _ (some _), ⟨ht, hkind, hvalue⟩ => by
    rw [Stmt.marks, List.forall_mem_cons]
    exact ⟨Token.isProper_of_kind ht hkind (by decide), hvalue.isProper⟩
  | .expression _ _, ⟨ht, hstarts, hvalue⟩ => by
    rw [Stmt.marks, List.forall_mem_cons]
    exact ⟨Token.isProper_of_sort ht hstarts rfl rfl, hvalue.isProper⟩

theorem Stmt.AreFormed.isProper : ∀ {ss : List Stmt}, Stmt.AreFormed T ss →
    ∀ m ∈ Stmt.marksEach ss, m.value.IsProper T
  | [], _ => List.forall_mem_nil _
  | _ :: _, ⟨hs, hss⟩ => by
    rw [Stmt.marksEach, List.forall_mem_append]
    exact ⟨hs.isProper, Stmt.AreFormed.isProper hss⟩

theorem Block.IsFormed.isProper : ∀ {b : Block}, b.IsFormed T →
    ∀ m ∈ b.marks, m.value.IsProper T
  | .mk _ _, ⟨ht, hkind, hss⟩ => by
    rw [Block.marks, List.forall_mem_cons]
    exact ⟨Token.isProper_of_kind ht hkind (by decide), Stmt.AreFormed.isProper hss⟩

theorem Block.IsFormedElse.isProper : ∀ {b : Option Block}, Block.IsFormedElse T b →
    ∀ m ∈ Block.marksElse b, m.value.IsProper T
  | none, _ => List.forall_mem_nil _
  | some _, hb => Block.IsFormed.isProper hb

end

/-- The tokens of a fully formed program are proper. -/
theorem Program.IsFormed.isProper {p : Program} (h : p.IsFormed T) :
  ∀ m ∈ p.marks, m.value.IsProper T
  := Stmt.AreFormed.isProper h

/-- The tokens that a fully formed program keeps are proper. -/
theorem Program.IsFormed.isProper_tokens {p : Program} (h : p.IsFormed T) :
  ∀ t ∈ p.tokens, t.IsProper T
  := by
  intro t ht
  obtain ⟨m, hm, hkept⟩ := List.mem_filterMap.mp ht
  rw [← Mark.value_of_kept? hkept]
  apply h.isProper m hm

end

end MonkeySyntax
