import MonkeySyntax.Token.Stream
import MonkeySyntax.Source.Tokens
import MonkeySyntax.Precedence
import MonkeySyntax.Diagnostic

/-!
# Parsers

A `Parser` is the state of a parse: the stream of the tokens that are still ahead, of which
the first two are in view, the number of tokens pulled so far, the depth of the expression
being parsed, and the diagnostics reported.  It also keeps account of the statements that
have been finished or given up, and of the greatest depth.

A parser moves forward only, by `advance`, one token at a time.
-/

namespace MonkeySyntax

/-- The greatest depth of nested expressions. -/
def maxNesting : Nat := 100

/-- The account of a parse, over all its statements, those within blocks included. -/
structure Statistics where
  /-- The number of statements that gave a tree. -/
  kept : Nat := 0
  /-- The number of statements that were given up. -/
  dropped : Nat := 0
  /-- The greatest depth that has been reached. -/
  deepest : Nat := 0
deriving DecidableEq, Repr, Inhabited

/-- The state of a parse. -/
structure Parser where
  /-- The tokens ahead, from the current one on. -/
  stream : TokenStream
  /-- The number of tokens pulled, those in view included. -/
  pulled : Nat := 2
  /-- The number of expressions being parsed, one within the other. -/
  depth : Nat := 0
  /-- The diagnostics, the newest first. -/
  reported : List Diagnostic := []
  statistics : Statistics := {}
deriving DecidableEq, Repr, Inhabited

namespace Parser

/-- A parser at the start of a stream. -/
def ofStream (stream : TokenStream) : Parser :=
  { stream }

/-- A parser at the start of a source. -/
def ofSource (source : String) : Parser :=
  ofStream (.ofSource source)

/-- The current token. -/
def current (p : Parser) : Token :=
  p.stream.head

/-- The token after the current one. -/
def next (p : Parser) : Token :=
  p.stream.tail.head

/-- Whether the current token is of a kind. -/
def currentIs (kind : Kind) (p : Parser) : Bool :=
  p.current.kind == kind

/-- Whether the token after the current one is of a kind. -/
def nextIs (kind : Kind) (p : Parser) : Bool :=
  p.next.kind == kind

/-- The diagnostics, in the order in which they were reported. -/
def diagnostics (p : Parser) : List Diagnostic :=
  p.reported.reverse

/-- One token further. -/
def advance (p : Parser) : Parser :=
  { p with stream := p.stream.tail, pulled := p.pulled + 1 }

/-- A number of tokens further. -/
def advanceBy (n : Nat) (p : Parser) : Parser :=
  { p with stream := p.stream.drop n, pulled := p.pulled + n }

/-- Whether a kind ends a statement. -/
def isTerminator (kind : Kind) : Bool :=
  kind == .semicolon || kind == .endOfInput

/-- Forward to the first semicolon or end of the input, from the current token on. -/
def skipToTerminator (p : Parser) : Parser :=
  p.advanceBy (p.stream.tokens.takeWhile (fun t => !isTerminator t.kind)).length

/-- A diagnostic more. -/
def report (d : Diagnostic) (p : Parser) : Parser :=
  { p with reported := d :: p.reported }

/-- One expression deeper. -/
def descend (p : Parser) : Parser :=
  { p with
    depth := p.depth + 1
    statistics := { p.statistics with deepest := max p.statistics.deepest (p.depth + 1) } }

/-- One expression less deep. -/
def ascend (p : Parser) : Parser :=
  { p with depth := p.depth - 1 }

/-- A finished statement more in the account. -/
def countKept (p : Parser) : Parser :=
  { p with statistics := { p.statistics with kept := p.statistics.kept + 1 } }

/-- A given up statement more in the account. -/
def countDropped (p : Parser) : Parser :=
  { p with statistics := { p.statistics with dropped := p.statistics.dropped + 1 } }

end Parser

end MonkeySyntax
