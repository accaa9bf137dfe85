import MonkeySyntax.Parser.Expression
import MonkeySyntax.Tree.Equality

/-!
# Parsing programs

A program is parsed statement by statement up to the end of the input.  It never fails: a
statement that is given up is left out, and a diagnostic says why.
-/

namespace MonkeySyntax

namespace Parser

/-- The program from the current token on, and the parser at the end of it. -/
def program (p : Parser) : Program × Parser :=
  match Parse.statements Parse.expression Parse.closesProgram p with
  | (ss, q) => (⟨ss⟩, q)

end Parser

/-- What a parse gives: the program, and the diagnostics in order. -/
structure Parsed where
  program : Program
  diagnostics : List Diagnostic
deriving DecidableEq, Repr

namespace Parsed

/-- The outcome of running a parser to the end. -/
def ofParser (p : Parser) : Parsed :=
  match p.program with
  | (program, q) => ⟨program, q.diagnostics⟩

/-- The wording of the diagnostics. -/
def messages (r : Parsed) : List String :=
  r.diagnostics.map Diagnostic.message

end Parsed

/-- The program of a stream of tokens. -/
def parseStream (stream : TokenStream) : Parsed :=
  .ofParser (.ofStream stream)

/-- The program of a source. -/
def parse (source : String) : Parsed :=
  parseStream (.ofSource source)

end MonkeySyntax
