import MonkeySyntax.Parser.Basic

/-!
# Parsing actions

A `Parse α` is an action on a parser that gives a value of `α` or gives up.  An action that
gives up has reported why, and the parser stays where that left it: nothing is undone, and
nothing after it is run.
-/

namespace MonkeySyntax

/-- An action on a parser that gives a value, or `none` when it gives up. -/
def Parse (α : Type) : Type :=
  Parser → Option α × Parser

namespace Parse

variable {α β : Type}

instance : Monad Parse where
  pure a := fun p => (some a, p)
  bind x f := fun p =>
    match x p with
    | (some a, q) => f a q
    | (none, q) => (none, q)

theorem pure_apply (a : α) (p : Parser) :
  (pure a : Parse α) p = (some a, p)
  := rfl

/-- A sequence goes on with the value of its first action, and gives up with it. -/
theorem bind_apply (x : Parse α) (f : α → Parse β) (p : Parser) :
  (x >>= f) p = match x p with
    | (some a, q) => f a q
    | (none, q) => (none, q)
  := rfl

/-- The current token. -/
def current : Parse Token :=
  fun p => (some p.current, p)

/-- Whether the token after the current one is of a kind. -/
def nextIs (kind : Kind) : Parse Bool :=
  fun p => (some (p.nextIs kind), p)

/-- The tokens ahead. -/
def ahead : Parse (List Token) :=
  fun p => (some p.stream.tokens, p)

/-- One token further. -/
def advance : Parse Unit :=
  fun p => (some (), p.advance)

/-- Give up for a reason. -/
def giveUp (d : Diagnostic) : Parse α :=
  fun p => (none, p.report d)

/-- One token further, if the next one is of a kind. -/
def expectNext (kind : Kind) : Parse Unit :=
  fun p =>
    if p.nextIs kind then (some (), p.advance)
    else (none, p.report (.unexpected kind p.next.kind))

/-- An action that goes on to the end of the statement when it gives up. -/
def recovering (x : Parse α) : Parse α :=
  fun p =>
    match x p with
    | (some a, q) => (some a, q)
    | (none, q) => (none, q.skipToTerminator)

/-- An action run one level deeper. -/
def nested (x : Parse α) : Parse α :=
  fun p => ((x p.descend).1, (x p.descend).2.ascend)

/-- An action that makes a statement, entered in the account. -/
def accounted (x : Parse α) : Parse α :=
  fun p =>
    match x p with
    | (some a, q) => (some a, q.countKept)
    | (none, q) => (none, q.countDropped)

end Parse

end MonkeySyntax
