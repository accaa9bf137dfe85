import MonkeySyntax.Parser.Step
import MonkeySyntax.Proofs.Parser.Conduct

/-!
# Parsers stepped by hand

However a parser is stepped, its window stays on the stream: the current token and the next one
are neighbours there, and the number of tokens pulled tells which.  A step moves the window
forward or leaves it, adds to the diagnostics or leaves them, and leaves the depth as it was.  A
step that is given up has reported why.
-/

namespace MonkeySyntax

namespace Parser

/-- The window of a parser is at an index of a stream, and no expression is being parsed. -/
structure StandsAt (s : TokenStream) (i : Nat) (p : Parser) : Prop where
  current_eq : p.current = s.get i
  next_eq : p.next = s.get (i + 1)
  pulled_eq : p.pulled = i + 2
  depth_eq : p.depth = 0

/-- What is reached from the start of a stream stands at the number of tokens passed. -/
theorem Reaches.standsAt {s : TokenStream} {p : Parser} (h : (ofStream s).Reaches p) :
  ∃ i, p.stream = s.drop i ∧ p.StandsAt s i
  := by
  obtain ⟨i, hstream, hpulled⟩ := h.passed
  have hstream' : p.stream = s.drop i := hstream
  refine ⟨i, hstream', ?_, ?_, ?_, h.depth_eq⟩
  · rw [current, hstream', ← TokenStream.get_zero, TokenStream.get_drop, Nat.add_zero]
  · rw [next, hstream', ← TokenStream.drop_one, TokenStream.drop_drop, ← TokenStream.get_zero,
      TokenStream.get_drop, Nat.add_zero]
  · rw [hpulled, Nat.add_comm]
    rfl

/-- The diagnostics of a parser stay the first ones. -/
theorem Reaches.diagnostics_prefix {p q : Parser} (h : p.Reaches q) :
  p.diagnostics <+: q.diagnostics
  := List.reverse_prefix.mpr h.reported_suffix

end Parser

namespace Answer

variable {α : Type}

/-- The answer of an orderly action, which reports when it is given up. -/
theorem reaches_ofAction {x : Parse α} [hx : x.Orderly] (answer : α → Answer)
    (hanswer : ∀ a, answer a ≠ .givenUp) (p : Parser) :
  p.Reaches (ofAction answer (x p)).2 ∧
    ((ofAction answer (x p)).1 = .givenUp →
      p.reported.length < (ofAction answer (x p)).2.reported.length)
  := by
  have hreaches := hx.reaches p
  have hreports := hx.reports p
  rcases hxp : x p with ⟨_ | a, q⟩
  · rw [hxp] at hreaches hreports
    exact ⟨hreaches, fun _ => hreports rfl⟩
  · rw [hxp] at hreaches
    exact ⟨hreaches, fun h => absurd h (hanswer a)⟩

end Answer

namespace Step

open Parse

/-- A step goes forward, and reports when it is given up. -/
theorem reaches_run (p : Parser) (step : Step) :
  p.Reaches (step.run p).2 ∧
    ((step.run p).1 = .givenUp → p.reported.length < (step.run p).2.reported.length)
  := by
  cases step with
  | advance => exact ⟨.advance p, nofun⟩
  | skipToTerminator => exact ⟨.skipToTerminator p, nofun⟩
  | reportUnexpected kind => exact ⟨.report _ p, nofun⟩
  | reportNoOperand kind => exact ⟨.report _ p, nofun⟩
  | currentIs | nextIs | nextPrecedence | currentPrecedence | diagnostics => exact ⟨.refl p, nofun⟩
  | expectNext kind => exact ⟨Orderly.reaches (x := Parse.expectNext kind) p, nofun⟩
  | program => exact ⟨Orderly.reaches_statements closesProgram p, nofun⟩
  | statement | letStatement | returnStatement | expressionStatement =>
    apply Answer.reaches_ofAction
    intro _
    nofun
  | expression | operand | integer | boolean | unary | group | conditional | function
  | extension | binary | call =>
    apply Answer.reaches_ofAction
    intro _
    nofun
  | block | identifier | parameters | expressionList =>
    apply Answer.reaches_ofAction
    intro _
    nofun

/-- A parser reaches the one that any steps lead to. -/
theorem reaches_runAll (p : Parser) (steps : List Step) :
  p.Reaches (runAll p steps)
  := by
  induction steps generalizing p with
  | nil => apply Parser.Reaches.refl
  | cons step steps ih => apply (reaches_run p step).1.trans (ih _)

/-- After any steps, the window of a parser is at an index of its stream, and at no smaller one
after a further step.  That step keeps the diagnostics and the depth, and has added a diagnostic
if it is given up. -/
theorem standsAt_run (s : TokenStream) (steps : List Step) (step : Step) :
  ∃ i j, i ≤ j ∧ (runAll (.ofStream s) steps).StandsAt s i ∧
    (step.run (runAll (.ofStream s) steps)).2.StandsAt s j ∧
    (runAll (.ofStream s) steps).diagnostics <+:
      (step.run (runAll (.ofStream s) steps)).2.diagnostics ∧
    ((step.run (runAll (.ofStream s) steps)).1 = .givenUp →
      (runAll (.ofStream s) steps).diagnostics.length <
        (step.run (runAll (.ofStream s) steps)).2.diagnostics.length)
  := by
  have hbefore := reaches_runAll (.ofStream s) steps
  obtain ⟨hstep, hreports⟩ := reaches_run (runAll (.ofStream s) steps) step
  obtain ⟨i, -, hi⟩ := hbefore.standsAt
  obtain ⟨j, -, hj⟩ := (hbefore.trans hstep).standsAt
  obtain ⟨n, -, hpulled⟩ := hstep.passed
  refine ⟨i, j, ?_, hi, hj, hstep.diagnostics_prefix, ?_⟩
  · rw [hi.pulled_eq, hj.pulled_eq] at hpulled
    omega
  · simpa only [Parser.diagnostics, List.length_reverse] using hreports

end Step

end MonkeySyntax
