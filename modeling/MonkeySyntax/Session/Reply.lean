import MonkeySyntax.Parser.Program
import MonkeySyntax.Tree.Render

/-!
# Replies

A session replies to an entry with its diagnostics, or, if there are none, with its
canonical text.  A verbose reply lists the tokens of the entry first.
-/

namespace MonkeySyntax

/-- What is printed for an entry, and whether the entry had no diagnostics. -/
structure Reply where
  printed : String
  accepted : Bool
deriving DecidableEq, Repr

namespace Reply

/-- The line that lists tokens. -/
def tokenLine (tokens : List Token) : String :=
  "[tokens] >>> [" ++ String.intercalate ", " (tokens.map Token.summary) ++ "]\n"

/-- The lines that list the wording of diagnostics. -/
def diagnosticLines (messages : List String) : String :=
  "[error] >>>\n" ++ String.join (messages.map (fun m => "\t" ++ m ++ "\n"))

/-- The line of a canonical text, none for an empty one. -/
def canonicalLine (text : String) : String :=
  if text.isEmpty then "" else text ++ "\n"

/-- What is printed for the outcome of a parse. -/
def outcomeLines (r : Parsed) : String :=
  if r.diagnostics.isEmpty then canonicalLine r.program.render
  else diagnosticLines r.messages

end Reply

/-- The reply to an entry. -/
def reply (verbose : Bool) (source : String) : Reply :=
  let r := parse source
  ⟨(if verbose then Reply.tokenLine (tokenize source) else "") ++ Reply.outcomeLines r,
    r.diagnostics.isEmpty⟩

end MonkeySyntax
