import MonkeySyntax.Proofs.Parser.Rounds
import MonkeySyntax.Proofs.Tree.Tokens

/-!
# Simulations

A `Simulation` sets the parsers of one run beside those of another.  It has laws for what an
action can do to a parser by itself: look at a token, advance, report, go deeper.  From these,
`S.Simulates P g x y Q` follows for every action of the parser: from a parser where `P` holds,
the action `y` does in the other run what `x` does in the one, with a value that has its tokens
changed by `g`, and afterwards `Q` holds, or the action has given up and `S.Failed` holds.

When `parser` is the identity, there is only one run, and `Fresh`, `Ready`, `Open` and `Failed`
are what holds along it.  An action does not advance past the end of the input: it only advances
from a token that it has looked at, or to one.

How blocks are read is left open, since they are the place where statements, and so the account
of them, come into an expression.  `S.IsTotal` says that the parsers of both runs may always
advance together, and that the accounts agree; then the blocks are simulated as well.
-/

namespace MonkeySyntax

/-- A change of tokens that keeps their kinds and texts. -/
structure Relabeling where
  /-- The token in the other run. -/
  token : Token → Token
  kind_token (t : Token) : (token t).kind = t.kind
  text_token (t : Token) : (token t).text = t.text

/-- The change that leaves tokens as they are. -/
def Relabeling.refl : Relabeling :=
  ⟨id, fun _ => rfl, fun _ => rfl⟩

/-- The parsers of one run beside those of another. -/
structure Simulation extends Relabeling where
  /-- The parser in the other run. -/
  parser : Parser → Parser
  /-- What holds of a parser where an expression may start. -/
  Fresh : Parser → Prop
  /-- What holds of a parser whose current token may be looked at. -/
  Ready : Parser → Prop
  /-- What holds of a parser whose next token may be looked at as well. -/
  Open : Parser → Prop
  /-- What holds of a parser when an action has given up. -/
  Failed : Parser → Prop
  ready_of_fresh {p : Parser} : Fresh p → Ready p
  fresh_of_ready {p : Parser} : Ready p → p.current.kind ≠ .endOfInput → Fresh p
  ready_of_open {p : Parser} : Open p → Ready p
  open_of_ready {p : Parser} : Ready p → p.current.kind ≠ .semicolon → Open p
  current_eq {p : Parser} : Ready p → (parser p).current = token p.current
  depth_eq {p : Parser} : Ready p → (parser p).depth = p.depth
  kind_next {p : Parser} : Open p → (parser p).next.kind = p.next.kind
  advance {p : Parser} :
    Open p → p.current.kind ≠ .endOfInput ∨ p.next.kind ≠ .endOfInput →
      parser p.advance = (parser p).advance ∧ Fresh p.advance
  report {p : Parser} (d : Diagnostic) :
    Ready p → parser (p.report d) = (parser p).report d ∧ Failed (p.report d)
  descend {p : Parser} : Fresh p → parser p.descend = (parser p).descend ∧ Fresh p.descend
  open_ascend {p : Parser} : Open p → parser p.ascend = (parser p).ascend ∧ Open p.ascend
  failed_ascend {p : Parser} : Failed p → parser p.ascend = (parser p).ascend ∧ Failed p.ascend
  failed_skip {p : Parser} :
    Failed p → parser p.skipToTerminator = (parser p).skipToTerminator ∧ Failed p.skipToTerminator
  failed_next {p : Parser} :
    Failed p → (parser p).nextIs .semicolon = p.nextIs .semicolon
  failed_advance {p : Parser} :
    Failed p → p.next.kind = .semicolon → parser p.advance = (parser p).advance ∧ Failed p.advance

namespace Simulation

open Parse

variable (S : Simulation) {α β γ δ : Type}

/-- An expression in the other run. -/
def expr : Expr → Expr :=
  Expr.mapTokens S.token S.token

/-- A statement in the other run. -/
def stmt : Stmt → Stmt :=
  Stmt.mapTokens S.token S.token

/-- A block in the other run. -/
def block : Block → Block :=
  Block.mapTokens S.token S.token

/-- A name in the other run. -/
def ident : Ident → Ident :=
  Ident.mapToken S.token

/-- What holds of a parser at a token of a kind. -/
def ReadyAt (kind : Kind) (p : Parser) : Prop :=
  S.Ready p ∧ p.current.kind = kind

/-- Two outcomes of an action, of which one simulates the other. -/
def Agrees (Q : α → Parser → Prop) (g : α → β) :
    Option α × Parser → Option β × Parser → Prop
  | (some a, p), r => r = (some (g a), S.parser p) ∧ Q a p
  | (none, p), r => r = (none, S.parser p) ∧ S.Failed p

/-- From where `P` holds the action `y` does in the other run what `x` does in the one. -/
def Simulates (P : Parser → Prop) (g : α → β) (x : Parse α) (y : Parse β)
    (Q : α → Parser → Prop) : Prop :=
  ∀ p, P p → S.Agrees Q g (x p) (y (S.parser p))

/-- Expressions are simulated. -/
def Carries (inner : Inner) : Prop :=
  ∀ strength, S.Simulates S.Fresh S.expr (inner strength) (inner strength) (fun _ => S.Open)

/-- Blocks are simulated, from their opening brace on. -/
def CarriesBlocks (inner : Inner) : Prop :=
  S.Simulates (S.ReadyAt .leftBrace) S.block (Parse.block inner) (Parse.block inner)
    (fun _ => S.Open)

variable {S}

/-- At a token that ends no statement the next token may be looked at. -/
theorem ReadyAt.open {kind : Kind} {p : Parser} (h : S.ReadyAt kind p)
    (hkind : Parser.isTerminator kind = false) :
  S.Open p
  := by
  apply S.open_of_ready h.1
  rw [h.2]
  exact beq_eq_false_iff_ne.mp (Bool.or_eq_false_iff.mp hkind).1

/-- The next token is asked for alike in both runs. -/
theorem nextIs_eq {p : Parser} (h : S.Open p) (kind : Kind) :
  (S.parser p).nextIs kind = p.nextIs kind
  := by
  rw [Parser.nextIs, Parser.nextIs, S.kind_next h]

/-- The current token is asked for alike in both runs. -/
theorem currentIs_eq {p : Parser} (h : S.Ready p) (kind : Kind) :
  (S.parser p).currentIs kind = p.currentIs kind
  := by
  rw [Parser.currentIs, Parser.currentIs, S.current_eq h, S.kind_token]

/-- One token further, unless that is the end of the input, the token is the one that was
next. -/
theorem advance_of_next {p : Parser} (h : S.Open p) {kind : Kind} (hnext : p.next.kind = kind)
    (hkind : (kind == .endOfInput) = false) :
  S.parser p.advance = (S.parser p).advance ∧ S.ReadyAt kind p.advance
  := by
  obtain ⟨hparser, hfresh⟩ := S.advance h (.inr (by rw [hnext]; apply beq_eq_false_iff_ne.mp hkind))
  exact ⟨hparser, S.ready_of_fresh hfresh, hnext⟩

namespace Simulates

variable {P P' : Parser → Prop} {Q Q' : α → Parser → Prop} {R : γ → Parser → Prop}
variable {g : α → β} {h : γ → δ} {x : Parse α} {y : Parse β}

/-! ### Combinations -/

/-- A simulation may be used where more is known before it, or less is wanted after it. -/
theorem mono (hxy : S.Simulates P g x y Q) (hP : ∀ p, P' p → P p) (hQ : ∀ a p, Q a p → Q' a p) :
  S.Simulates P' g x y Q'
  := by
  intro p hp
  have hp' := hxy p (hP p hp)
  rcases hxp : x p with ⟨_ | a, q⟩
  · rw [hxp] at hp'
    exact hp'
  · rw [hxp] at hp'
    exact ⟨hp'.1, hQ a q hp'.2⟩

/-- At a token that ends no statement the next token may be looked at. -/
theorem of_readyAt {kind : Kind} (hxy : S.Simulates S.Open g x y Q)
    (hkind : Parser.isTerminator kind = false) :
  S.Simulates (S.ReadyAt kind) g x y Q
  := hxy.mono (fun _ hp => hp.open hkind) (fun _ _ hq => hq)

/-- A value is simulated by the value with its tokens changed. -/
theorem pure (P : Parser → Prop) (g : α → β) (a : α) :
  S.Simulates P g (Pure.pure a) (Pure.pure (g a)) (fun _ => P)
  := by
  intro p hp
  exact ⟨rfl, hp⟩

/-- A sequence is simulated when its first action is, and what is done with each of its values. -/
theorem bind {k : α → Parse γ} {l : β → Parse δ} (hxy : S.Simulates P g x y Q)
    (hkl : ∀ a, S.Simulates (Q a) h (k a) (l (g a)) R) :
  S.Simulates P h (x >>= k) (y >>= l) R
  := by
  intro p hp
  have hp' := hxy p hp
  rw [bind_apply, bind_apply]
  rcases hxp : x p with ⟨_ | a, q⟩
  · rw [hxp] at hp'
    obtain ⟨hy, hq⟩ := hp'
    rw [hy]
    exact ⟨rfl, hq⟩
  · rw [hxp] at hp'
    obtain ⟨hy, hq⟩ := hp'
    rw [hy]
    apply hkl a q hq

/-- Looking at the current token gives the changed token in the other run. -/
theorem current (hP : ∀ p, P p → S.Ready p) :
  S.Simulates P S.token Parse.current Parse.current (fun _ => P)
  := by
  intro p hp
  have hcurrent := S.current_eq (hP p hp)
  exact ⟨by rw [Parse.current, hcurrent], hp⟩

/-- A name is read alike from the current token, unless this ends a statement. -/
theorem identifier {kind : Kind} (hkind : Parser.isTerminator kind = false) :
  S.Simulates (S.ReadyAt kind) S.ident Parse.identifier Parse.identifier (fun _ => S.Open)
  := by
  intro p hp
  refine ⟨?_, hp.open hkind⟩
  rw [Parse.identifier, S.current_eq hp.1, S.text_token, ident]
  rfl

/-- What has been asked about the next token is known afterwards. -/
theorem nextIs (kind : Kind) (hP : ∀ p, P p → S.Open p) :
  S.Simulates P id (Parse.nextIs kind) (Parse.nextIs kind) (fun b p => P p ∧ p.nextIs kind = b)
  := by
  intro p hp
  refine ⟨?_, hp, rfl⟩
  rw [Parse.nextIs, nextIs_eq (hP p hp)]
  rfl

/-- A token that ends no statement is passed in both runs. -/
theorem advance {kind : Kind} (hkind : Parser.isTerminator kind = false) :
  S.Simulates (S.ReadyAt kind) id Parse.advance Parse.advance (fun _ => S.Fresh)
  := by
  intro p hp
  have hend : p.current.kind ≠ .endOfInput := by
    rw [hp.2]
    exact beq_eq_false_iff_ne.mp (Bool.or_eq_false_iff.mp hkind).2
  obtain ⟨hparser, hfresh⟩ := S.advance (hp.open hkind) (.inl hend)
  refine ⟨?_, hfresh⟩
  rw [Parse.advance, hparser]

/-- One token further, after the next token has been looked at. -/
theorem advanceTo {kind : Kind} (hkind : (kind == .endOfInput) = false)
    (hP : ∀ p, P p → S.Open p) :
  S.Simulates (fun p => P p ∧ p.nextIs kind = true) id Parse.advance Parse.advance
    (fun _ => S.ReadyAt kind)
  := by
  rintro p ⟨hp, hnext⟩
  obtain ⟨hparser, hready⟩ := advance_of_next (hP p hp) ((Parser.nextIs_iff kind p).mp hnext) hkind
  refine ⟨?_, hready⟩
  rw [Parse.advance, hparser]

/-- A token that is asked for is passed in both runs, or its lack is reported in both. -/
theorem expectNext {kind : Kind} (hkind : (kind == .endOfInput) = false) :
  S.Simulates S.Open id (Parse.expectNext kind) (Parse.expectNext kind) (fun _ => S.ReadyAt kind)
  := by
  intro p hp
  rw [Parse.expectNext, Parse.expectNext, nextIs_eq hp, S.kind_next hp]
  split
  next hnext =>
    obtain ⟨hparser, hready⟩ := advance_of_next hp ((Parser.nextIs_iff kind p).mp hnext) hkind
    refine ⟨?_, hready⟩
    rw [hparser]
  next =>
    obtain ⟨hparser, hfailed⟩ := S.report (.unexpected kind p.next.kind) (S.ready_of_open hp)
    refine ⟨?_, hfailed⟩
    rw [hparser]

/-- Both runs give up with the same report. -/
theorem giveUp (g : α → β) (d : Diagnostic) (Q : α → Parser → Prop) :
  S.Simulates S.Ready g (Parse.giveUp d) (Parse.giveUp d) Q
  := by
  intro p hp
  obtain ⟨hparser, hfailed⟩ := S.report d hp
  refine ⟨?_, hfailed⟩
  rw [Parse.giveUp, hparser]

/-- What is given up is skipped in both runs. -/
theorem recovering (hxy : S.Simulates P g x y Q) :
  S.Simulates P g (Parse.recovering x) (Parse.recovering y) Q
  := by
  intro p hp
  have hp' := hxy p hp
  rw [Parse.recovering, Parse.recovering]
  rcases hxp : x p with ⟨_ | a, q⟩
  · rw [hxp] at hp'
    obtain ⟨hy, hq⟩ := hp'
    obtain ⟨hparser, hfailed⟩ := S.failed_skip hq
    rw [hy]
    refine ⟨?_, hfailed⟩
    rw [hparser]
  · rw [hxp] at hp'
    obtain ⟨hy, hq⟩ := hp'
    rw [hy]
    exact ⟨rfl, hq⟩

/-- What is simulated is simulated one level deeper. -/
theorem nested (hxy : S.Simulates S.Fresh g x y (fun _ => S.Open)) :
  S.Simulates S.Fresh g (Parse.nested x) (Parse.nested y) (fun _ => S.Open)
  := by
  intro p hp
  obtain ⟨hparser, hfresh⟩ := S.descend hp
  have hp' := hxy p.descend hfresh
  rw [Parse.nested, Parse.nested, ← hparser]
  rcases hxp : x p.descend with ⟨_ | a, q⟩
  · rw [hxp] at hp'
    obtain ⟨hy, hq⟩ := hp'
    obtain ⟨hascend, hfailed⟩ := S.failed_ascend hq
    rw [hy]
    refine ⟨?_, hfailed⟩
    rw [hascend]
  · rw [hxp] at hp'
    obtain ⟨hy, hq⟩ := hp'
    obtain ⟨hascend, hopen⟩ := S.open_ascend hq
    rw [hy]
    refine ⟨?_, hopen⟩
    rw [hascend]

/-- A loop in the two runs, with the rounds that each of the runs has tokens for.  Any number of
rounds will do for both, if it is great enough. -/
theorem ahead {k : List Token → Parse α} {l : List Token → Parse β}
    (hk : ∀ p ts, p.stream.tokens.length ≤ ts.length → k p.stream.tokens p = k ts p)
    (hl : ∀ p ts, p.stream.tokens.length ≤ ts.length → l p.stream.tokens p = l ts p)
    (hkl : ∀ ts, S.Simulates P g (k ts) (l ts) Q) :
  S.Simulates P g (Parse.ahead >>= k) (Parse.ahead >>= l) Q
  := by
  intro p hp
  have hrounds := hkl (p.stream.tokens ++ (S.parser p).stream.tokens) p hp
  rw [← hk p _ (by simp), ← hl (S.parser p) _ (by simp)] at hrounds
  apply hrounds

section

variable {inner : Inner}

/-! ### Statements -/

/-- A `let` statement is simulated when expressions are. -/
theorem letStatement (hinner : S.Carries inner) :
  S.Simulates S.Open S.stmt (Parse.letStatement inner) (Parse.letStatement inner)
    (fun _ => S.Ready)
  := by
  apply recovering
  apply bind (current (fun _ => S.ready_of_open))
  intro word
  apply bind (expectNext rfl)
  intro _
  apply bind (identifier rfl)
  intro name
  apply bind (expectNext rfl)
  intro _
  apply bind (advance rfl)
  intro _
  apply bind (hinner .lowest)
  intro value
  apply bind (expectNext rfl)
  intro _
  apply (pure _ _ _).mono (fun _ hp => hp)
  intro _ _ hp
  apply hp.1

/-- A `return` statement is simulated when expressions are. -/
theorem returnStatement (hinner : S.Carries inner) :
  S.Simulates (S.ReadyAt .returnWord) S.stmt (Parse.returnStatement inner)
    (Parse.returnStatement inner) (fun _ => S.Ready)
  := by
  have hopen : ∀ p, S.ReadyAt .returnWord p → S.Open p := fun _ hp => hp.open rfl
  apply recovering
  apply bind (current (fun _ hp => hp.1))
  intro word
  apply bind (nextIs .semicolon hopen)
  rintro (_ | _)
  · apply bind ((advance rfl).mono (fun _ hp => hp.1) (fun _ _ hq => hq))
    intro _
    apply bind (hinner .lowest)
    intro value
    apply bind (expectNext rfl)
    intro _
    apply (pure _ _ _).mono (fun _ hp => hp)
    intro _ _ hp
    apply hp.1
  · apply bind (advanceTo rfl hopen)
    intro _
    apply (pure _ _ _).mono (fun _ hp => hp)
    intro _ _ hp
    apply hp.1

/-- An expression is simulated as a statement, with the semicolon after it. -/
theorem expressionStatement (hinner : S.Carries inner) :
  S.Simulates S.Fresh S.stmt (Parse.expressionStatement inner) (Parse.expressionStatement inner)
    (fun _ => S.Ready)
  := by
  intro p hp
  have hp' := hinner .lowest p hp
  rw [Parse.expressionStatement, Parse.expressionStatement, S.current_eq (S.ready_of_fresh hp)]
  rcases hxp : inner .lowest p with ⟨_ | e, q⟩
  · rw [hxp] at hp'
    obtain ⟨hy, hq⟩ := hp'
    rw [hy]
    dsimp only
    rw [S.failed_next hq]
    split
    next hnext =>
      obtain ⟨hparser, hfailed⟩ := S.failed_advance hq ((Parser.nextIs_iff _ q).mp hnext)
      refine ⟨?_, hfailed⟩
      rw [hparser]
      rfl
    next => exact ⟨rfl, hq⟩
  · rw [hxp] at hp'
    obtain ⟨hy, hq⟩ := hp'
    rw [hy]
    dsimp only
    rw [nextIs_eq hq]
    split
    next hnext =>
      obtain ⟨hparser, hready, -⟩ := advance_of_next hq ((Parser.nextIs_iff _ q).mp hnext) rfl
      refine ⟨?_, hready⟩
      rw [hparser]
      rfl
    next => exact ⟨rfl, S.ready_of_open hq⟩

/-! ### Expressions -/

/-- An integer is simulated, since its text is the same in both runs. -/
theorem integer :
  S.Simulates S.Open S.expr Parse.integer Parse.integer (fun _ => S.Open)
  := by
  intro p hp
  rw [Parse.integer, Parse.integer, S.current_eq (S.ready_of_open hp), S.text_token]
  split
  next value _ => exact ⟨rfl, hp⟩
  next => apply giveUp S.expr _ (fun _ => S.Open) p (S.ready_of_open hp)

theorem boolean :
  S.Simulates S.Open S.expr Parse.boolean Parse.boolean (fun _ => S.Open)
  := by
  intro p hp
  refine ⟨?_, hp⟩
  rw [Parse.boolean, S.current_eq (S.ready_of_open hp), currentIs_eq (S.ready_of_open hp)]
  rfl

/-- The loop of names is simulated, with the same number of rounds. -/
theorem parametersAfter (ahead : List Token) (read : List Ident) :
  S.Simulates S.Open (List.map S.ident) (Parse.parametersAfter ahead read)
    (Parse.parametersAfter ahead (read.map S.ident)) (fun _ => S.Open)
  := by
  induction ahead generalizing read with
  | nil =>
    rw [Parse.parametersAfter, Parse.parametersAfter, ← List.map_reverse]
    apply pure
  | cons t ahead ih =>
    rw [Parse.parametersAfter, Parse.parametersAfter, ← List.map_reverse]
    apply bind (nextIs .comma (fun _ hp => hp))
    rintro (_ | _)
    · apply (pure _ _ _).mono (fun _ hp => hp)
      intro _ _ hp
      apply hp.1
    · apply bind (advanceTo rfl (fun _ hp => hp))
      intro _
      apply bind ((expectNext rfl).of_readyAt rfl)
      intro _
      apply bind (identifier rfl)
      intro id
      apply ih (id :: read)

theorem parameters :
  S.Simulates S.Open (List.map S.ident) Parse.parameters Parse.parameters (fun _ => S.Open)
  := by
  apply bind (nextIs .rightParen (fun _ hp => hp))
  rintro (_ | _)
  · apply bind ((expectNext rfl).mono (fun _ hp => hp.1) (fun _ _ hq => hq))
    intro _
    apply bind (identifier rfl)
    intro first
    apply ahead
    · intro p ts h
      apply bind_congr_of_left
      apply parametersAfter_eq_of_length_le le_rfl h
    · intro p ts h
      apply bind_congr_of_left
      apply parametersAfter_eq_of_length_le le_rfl h
    · intro tokens
      apply bind (parametersAfter tokens [first])
      intro ids
      apply bind (expectNext rfl)
      intro _
      apply (pure _ _ _).mono (fun _ hp => hp)
      intro _ _ hp
      apply hp.open rfl
  · apply bind (advanceTo rfl (fun _ hp => hp))
    intro _
    apply (pure _ _ _).mono (fun _ hp => hp)
    intro _ _ hp
    apply hp.open rfl

theorem unary {kind : Kind} (hkind : Parser.isTerminator kind = false)
    (hinner : S.Carries inner) :
  S.Simulates (S.ReadyAt kind) S.expr (Parse.unary inner) (Parse.unary inner) (fun _ => S.Open)
  := by
  apply bind (current (fun _ hp => hp.1))
  intro operator
  rw [S.text_token]
  apply bind (advance hkind)
  intro _
  apply bind (hinner .unary)
  intro right
  apply pure

theorem group (hinner : S.Carries inner) :
  S.Simulates (S.ReadyAt .leftParen) S.expr (Parse.group inner) (Parse.group inner)
    (fun _ => S.Open)
  := by
  apply bind (advance rfl)
  intro _
  apply bind (hinner .lowest)
  intro e
  apply bind (expectNext rfl)
  intro _
  apply (pure _ _ _).mono (fun _ hp => hp)
  intro _ _ hp
  apply hp.open rfl

theorem alternative (hblock : S.CarriesBlocks inner) :
  S.Simulates S.Open (Block.mapTokensElse S.token S.token) (Parse.alternative inner)
    (Parse.alternative inner) (fun _ => S.Open)
  := by
  apply bind (nextIs .elseWord (fun _ hp => hp))
  rintro (_ | _)
  · apply (pure _ _ _).mono (fun _ hp => hp)
    intro _ _ hp
    apply hp.1
  · apply bind (advanceTo rfl (fun _ hp => hp))
    intro _
    apply bind ((expectNext rfl).of_readyAt rfl)
    intro _
    apply bind hblock
    intro b
    apply pure

theorem conditional (hinner : S.Carries inner) (hblock : S.CarriesBlocks inner) :
  S.Simulates S.Open S.expr (Parse.conditional inner) (Parse.conditional inner) (fun _ => S.Open)
  := by
  apply bind (current (fun _ => S.ready_of_open))
  intro word
  apply bind (expectNext rfl)
  intro _
  apply bind (advance rfl)
  intro _
  apply bind (hinner .lowest)
  intro condition
  apply bind (expectNext rfl)
  intro _
  apply bind ((expectNext rfl).of_readyAt rfl)
  intro _
  apply bind hblock
  intro consequence
  apply bind (alternative hblock)
  intro alternative
  apply pure

theorem function (hblock : S.CarriesBlocks inner) :
  S.Simulates S.Open S.expr (Parse.function inner) (Parse.function inner) (fun _ => S.Open)
  := by
  apply bind (current (fun _ => S.ready_of_open))
  intro word
  apply bind (expectNext rfl)
  intro _
  apply bind (parameters.of_readyAt rfl)
  intro parameters
  apply bind (expectNext rfl)
  intro _
  apply bind hblock
  intro body
  apply pure

/-- The loop of expressions is simulated, with the same number of rounds. -/
theorem expressionsAfter (hinner : S.Carries inner) (ahead : List Token) (read : List Expr) :
  S.Simulates S.Open (List.map S.expr) (Parse.expressionsAfter inner ahead read)
    (Parse.expressionsAfter inner ahead (read.map S.expr)) (fun _ => S.Open)
  := by
  induction ahead generalizing read with
  | nil =>
    rw [Parse.expressionsAfter, Parse.expressionsAfter, ← List.map_reverse]
    apply pure
  | cons t ahead ih =>
    rw [Parse.expressionsAfter, Parse.expressionsAfter, ← List.map_reverse]
    apply bind (nextIs .comma (fun _ hp => hp))
    rintro (_ | _)
    · apply (pure _ _ _).mono (fun _ hp => hp)
      intro _ _ hp
      apply hp.1
    · apply bind (advanceTo rfl (fun _ hp => hp))
      intro _
      apply bind (advance rfl)
      intro _
      apply bind (hinner .lowest)
      intro e
      apply ih (e :: read)

/-- Arguments are simulated when expressions are. -/
theorem expressionList [∀ strength, (inner strength).Orderly] (hinner : S.Carries inner) :
  S.Simulates (S.ReadyAt .leftParen) (List.map S.expr) (Parse.expressionList inner .rightParen)
    (Parse.expressionList inner .rightParen) (fun _ => S.Open)
  := by
  have hopen : ∀ p, S.ReadyAt .leftParen p → S.Open p := fun _ hp => hp.open rfl
  apply bind (nextIs .rightParen hopen)
  rintro (_ | _)
  · apply bind ((advance rfl).mono (fun _ hp => hp.1) (fun _ _ hq => hq))
    intro _
    apply bind (hinner .lowest)
    intro first
    apply ahead
    · intro p ts h
      apply bind_congr_of_left
      apply expressionsAfter_eq_of_length_le le_rfl h
    · intro p ts h
      apply bind_congr_of_left
      apply expressionsAfter_eq_of_length_le le_rfl h
    · intro tokens
      apply bind (expressionsAfter hinner tokens [first])
      intro es
      apply bind (expectNext rfl)
      intro _
      apply (pure _ _ _).mono (fun _ hp => hp)
      intro _ _ hp
      apply hp.open rfl
  · apply bind (advanceTo rfl hopen)
    intro _
    apply (pure _ _ _).mono (fun _ hp => hp)
    intro _ _ hp
    apply hp.open rfl

theorem operand (hinner : S.Carries inner) (hblock : S.CarriesBlocks inner) :
  S.Simulates S.Fresh S.expr (Parse.operand inner) (Parse.operand inner) (fun _ => S.Open)
  := by
  intro p hp
  have hready := S.ready_of_fresh hp
  have hopen (kind : Kind) (hkind : Parser.isTerminator kind = false)
      (h : p.current.kind = kind) : S.Open p :=
    ReadyAt.open ⟨hready, h⟩ hkind
  rw [Parse.operand, Parse.operand, S.current_eq hready, S.kind_token]
  split
  next h =>
    refine ⟨?_, hopen _ rfl h⟩
    rw [S.text_token]
    rfl
  next h => apply integer p (hopen _ rfl h)
  next h => apply boolean p (hopen _ rfl h)
  next h => apply boolean p (hopen _ rfl h)
  next h => apply unary rfl hinner p ⟨hready, h⟩
  next h => apply unary rfl hinner p ⟨hready, h⟩
  next h => apply group hinner p ⟨hready, h⟩
  next h => apply conditional hinner hblock p (hopen _ rfl h)
  next h => apply function hblock p (hopen _ rfl h)
  next => apply giveUp S.expr _ (fun _ => S.Open) p hready

theorem binary {kind : Kind} (hkind : Parser.isTerminator kind = false)
    (hinner : S.Carries inner) (left : Expr) :
  S.Simulates (S.ReadyAt kind) S.expr (Parse.binary inner left)
    (Parse.binary inner (S.expr left)) (fun _ => S.Open)
  := by
  apply bind (current (fun _ hp => hp.1))
  intro operator
  rw [S.text_token, S.kind_token]
  apply bind (advance hkind)
  intro _
  apply bind (hinner _)
  intro right
  apply pure

theorem call [∀ strength, (inner strength).Orderly] (hinner : S.Carries inner) (callee : Expr) :
  S.Simulates (S.ReadyAt .leftParen) S.expr (Parse.call inner callee)
    (Parse.call inner (S.expr callee)) (fun _ => S.Open)
  := by
  apply bind (current (fun _ hp => hp.1))
  intro parenthesis
  apply bind (expressionList hinner)
  intro arguments
  have harguments : S.expr (.call parenthesis callee arguments) =
      .call (S.token parenthesis) (S.expr callee) (arguments.map S.expr) := by
    rw [expr, Expr.mapTokens, Expr.mapTokensEach_eq_map]
  rw [← harguments]
  apply pure

theorem extension [∀ strength, (inner strength).Orderly] {kind : Kind}
    (hkind : Parser.isTerminator kind = false) (hinner : S.Carries inner) (left : Expr) :
  S.Simulates (S.ReadyAt kind) S.expr (Parse.extension inner left)
    (Parse.extension inner (S.expr left)) (fun _ => S.Open)
  := by
  intro p hp
  rw [Parse.extension, Parse.extension, currentIs_eq hp.1]
  split
  next hparen => apply call hinner left p ⟨hp.1, (Parser.currentIs_iff _ p).mp hparen⟩
  next => apply binary hkind hinner left p hp

/-- The loop of extensions is simulated, with the same number of rounds.  A token that extends an
expression ends no statement, so it may be passed. -/
theorem extensions [∀ strength, (inner strength).Orderly] (hinner : S.Carries inner)
    (strength : Precedence) (ahead : List Token) (left : Expr) :
  S.Simulates S.Open S.expr (Parse.extensions inner strength ahead left)
    (Parse.extensions inner strength ahead (S.expr left)) (fun _ => S.Open)
  := by
  induction ahead generalizing left with
  | nil => exact fun p hp => ⟨rfl, hp⟩
  | cons t ahead ih =>
    intro p hp
    rw [Parse.extensions, Parse.extensions, S.kind_next hp]
    split
    next hlt =>
      have hkind : Parser.isTerminator p.next.kind = false := by
        rw [Parser.isTerminator, Bool.or_eq_false_iff, beq_eq_false_iff_ne, beq_eq_false_iff_ne]
        constructor
        all_goals
          intro hnext
          rw [hnext] at hlt
          apply strength.not_lt_lowest hlt
      obtain ⟨hparser, hready⟩ := advance_of_next hp rfl (Bool.or_eq_false_iff.mp hkind).2
      have hext := extension hkind hinner left p.advance hready
      rw [← hparser]
      rcases hxp : Parse.extension inner left p.advance with ⟨_ | e, q⟩
      · rw [hxp] at hext
        obtain ⟨hy, hq⟩ := hext
        rw [hy]
        exact ⟨rfl, hq⟩
      · rw [hxp] at hext
        obtain ⟨hy, hq⟩ := hext
        rw [hy]
        apply ih e q hq
    next => exact ⟨rfl, hp⟩

/-- A climb is simulated when expressions and blocks are. -/
theorem climb [∀ strength, (inner strength).Orderly] (hinner : S.Carries inner)
    (hblock : S.CarriesBlocks inner) (strength : Precedence) :
  S.Simulates S.Fresh S.expr (Parse.climb inner strength) (Parse.climb inner strength)
    (fun _ => S.Open)
  := by
  apply bind (operand hinner hblock)
  intro left
  apply ahead
  · intro p ts h
    apply extensions_eq_of_length_le le_rfl h
  · intro p ts h
    apply extensions_eq_of_length_le le_rfl h
  · intro tokens
    apply extensions hinner

end

end Simulates

/-! ### Statements in the account -/

/-- A statement gives a tree in both runs or is given up in both, before it is entered in the
account. -/
theorem exists_statement {inner : Inner} (hinner : S.Carries inner) {p : Parser}
    (hp : S.Fresh p) :
  (∃ s q, statement inner p = (some s, q.countKept) ∧
      statement inner (S.parser p) = (some (S.stmt s), (S.parser q).countKept) ∧ S.Ready q) ∨
    ∃ q, statement inner p = (none, q.countDropped) ∧
      statement inner (S.parser p) = (none, (S.parser q).countDropped) ∧ S.Failed q
  := by
  have hstatement : ∃ x y : Parse Stmt, statement inner p = accounted x p ∧
      statement inner (S.parser p) = accounted y (S.parser p) ∧
      S.Agrees (fun _ => S.Ready) S.stmt (x p) (y (S.parser p)) := by
    have hready := S.ready_of_fresh hp
    refine ⟨_, _, rfl, rfl, ?_⟩
    rw [S.current_eq hready, S.kind_token]
    split
    next h => apply Simulates.letStatement hinner p (ReadyAt.open ⟨hready, h⟩ rfl)
    next h => apply Simulates.returnStatement hinner p ⟨hready, h⟩
    next => apply Simulates.expressionStatement hinner p hp
  obtain ⟨x, y, hx, hy, hxy⟩ := hstatement
  rw [hx, hy, accounted, accounted]
  rcases hxp : x p with ⟨_ | s, q⟩
  · rw [hxp] at hxy
    obtain ⟨hy', hq⟩ := hxy
    rw [hy']
    exact .inr ⟨q, rfl, rfl, hq⟩
  · rw [hxp] at hxy
    obtain ⟨hy', hq⟩ := hxy
    rw [hy']
    exact .inl ⟨s, q, rfl, rfl, hq⟩

/-- A simulation that lets both runs advance at any time, and in which the account of the one
run goes with that of the other. -/
structure IsTotal (S : Simulation) : Prop where
  isOpen {p : Parser} : S.Ready p → S.Open p
  advance {p : Parser} : S.Ready p → S.parser p.advance = (S.parser p).advance ∧ S.Ready p.advance
  countKept {p : Parser} :
    S.Ready p → S.parser p.countKept = (S.parser p).countKept ∧ S.Ready p.countKept
  countDropped {p : Parser} :
    S.Failed p → S.parser p.countDropped = (S.parser p).countDropped ∧ S.Ready p.countDropped

namespace IsTotal

variable {inner : Inner}

/-- A statement is simulated, with its entry in the account. -/
theorem statement (h : S.IsTotal) (hinner : S.Carries inner) {p : Parser} (hp : S.Fresh p) :
  Parse.statement inner (S.parser p) =
      ((Parse.statement inner p).1.map S.stmt, S.parser (Parse.statement inner p).2) ∧
    S.Ready (Parse.statement inner p).2
  := by
  rcases exists_statement hinner hp with ⟨s, q, hx, hy, hq⟩ | ⟨q, hx, hy, hq⟩
  · obtain ⟨hparser, hready⟩ := h.countKept hq
    rw [hx, hy, hparser]
    exact ⟨rfl, hready⟩
  · obtain ⟨hparser, hready⟩ := h.countDropped hq
    rw [hx, hy, hparser]
    exact ⟨rfl, hready⟩

/-- The loop of statements is simulated, with the same number of rounds. -/
theorem statementsAfter (h : S.IsTotal) (hinner : S.Carries inner) {closes : Kind → Bool}
    (hcloses : closes .endOfInput = true) (ahead : List Token) (read : List Stmt) {p : Parser}
    (hp : S.Ready p) :
  Parse.statementsAfter inner closes ahead (read.map S.stmt) (S.parser p) =
      ((Parse.statementsAfter inner closes ahead read p).1.map S.stmt,
        S.parser (Parse.statementsAfter inner closes ahead read p).2) ∧
    S.Ready (Parse.statementsAfter inner closes ahead read p).2
  := by
  induction ahead generalizing read p with
  | nil => exact ⟨by simp [Parse.statementsAfter], hp⟩
  | cons t ahead ih =>
    rw [Parse.statementsAfter, Parse.statementsAfter, S.current_eq hp, S.kind_token]
    split
    next => exact ⟨by simp, hp⟩
    next hopen =>
      have hend : p.current.kind ≠ .endOfInput := by
        rintro hkind
        rw [hkind] at hopen
        apply hopen hcloses
      obtain ⟨hy, hq⟩ := h.statement hinner (S.fresh_of_ready hp hend)
      rw [hy]
      rcases hs : Parse.statement inner p with ⟨_ | s, q⟩
      all_goals
        rw [hs] at hq
        obtain ⟨hparser, hready⟩ := h.advance hq
        dsimp only [Option.map_none, Option.map_some]
        rw [← hparser]
      · apply ih read hready
      · apply ih (s :: read) hready

/-- Statements are simulated, with the rounds that each run has tokens for. -/
theorem statements [∀ strength, (inner strength).Orderly] (h : S.IsTotal)
    (hinner : S.Carries inner) {closes : Kind → Bool} (hcloses : closes .endOfInput = true)
    {p : Parser} (hp : S.Ready p) :
  Parse.statements inner closes (S.parser p) =
      ((Parse.statements inner closes p).1.map S.stmt,
        S.parser (Parse.statements inner closes p).2) ∧
    S.Ready (Parse.statements inner closes p).2
  := by
  have hloop := h.statementsAfter hinner hcloses
    (p.stream.tokens ++ (S.parser p).stream.tokens) [] hp
  have hrounds (q : Parser) (ts : List Token) (hts : q.stream.tokens.length ≤ ts.length) :
      Parse.statementsAfter inner closes ts [] q = Parse.statements inner closes q :=
    statementsAfter_eq_of_length_le hcloses hts le_rfl []
  rw [List.map_nil, hrounds p _ (by simp), hrounds (S.parser p) _ (by simp)] at hloop
  apply hloop

/-- Blocks are simulated when expressions are, if the simulation is total. -/
theorem carriesBlocks [∀ strength, (inner strength).Orderly] (h : S.IsTotal)
    (hinner : S.Carries inner) :
  S.CarriesBlocks inner
  := by
  rintro p ⟨hp, -⟩
  obtain ⟨hparser, hready⟩ := h.advance hp
  have hcloses : closesBlock .endOfInput = true := rfl
  obtain ⟨hy, hq⟩ := h.statements hinner hcloses hready
  rw [Parse.block, Parse.block, ← hparser, hy, S.current_eq hp]
  refine ⟨?_, h.isOpen hq⟩
  rw [block, Block.mapTokens, Stmt.mapTokensEach_eq_map]
  rfl

end IsTotal

/-! ### Levels -/

/-- Without levels left both runs report the depth. -/
theorem carries_expressionWithin_zero :
  S.Carries (expressionWithin 0)
  := by
  intro strength
  rw [expressionWithin]
  apply Simulates.recovering
  apply (Simulates.giveUp _ _ _).mono (fun _ => S.ready_of_fresh) (fun _ _ hq => hq)

/-- With a level more expressions are simulated when expressions and blocks are. -/
theorem carries_expressionWithin_succ {levels : Nat} (hinner : S.Carries (expressionWithin levels))
    (hblock : S.CarriesBlocks (expressionWithin levels)) :
  S.Carries (expressionWithin (levels + 1))
  := by
  intro strength
  rw [expressionWithin]
  apply Simulates.nested
  apply Simulates.climb hinner hblock

/-- Expressions are simulated with any number of levels if the blocks within are. -/
theorem carries_expressionWithin
    (hblocks : ∀ levels, S.Carries (expressionWithin levels) →
      S.CarriesBlocks (expressionWithin levels)) (levels : Nat) :
  S.Carries (expressionWithin levels)
  := by
  induction levels with
  | zero => apply carries_expressionWithin_zero
  | succ levels ih => apply carries_expressionWithin_succ ih (hblocks levels ih)

/-- Expressions are simulated at any depth, if blocks are whenever expressions are. -/
theorem carries_expression
    (hblocks : ∀ levels, S.Carries (expressionWithin levels) →
      S.CarriesBlocks (expressionWithin levels)) :
  S.Carries expression
  := by
  intro strength p hp
  rw [expression, expression, S.depth_eq (S.ready_of_fresh hp)]
  apply carries_expressionWithin hblocks _ strength p hp

/-- A total simulation carries expressions. -/
theorem IsTotal.carries (h : S.IsTotal) :
  S.Carries expression
  := carries_expression (fun _ hinner => h.carriesBlocks hinner)

end Simulation

end MonkeySyntax
