import MonkeySyntax.CommandLine.Workspace
import MonkeySyntax.Json.Layout
import MonkeySyntax.Parser.Program
import MonkeySyntax.Tree.Json
import MonkeySyntax.Tree.Render

/-!
# Running a source

A run lists the tokens of a source, or parses it and prints its canonical text or its tree
as JSON.  If there are diagnostics it prints these instead, as errors, and its status is `1`.
The source is given as it is, or is read from a file.
-/

namespace MonkeySyntax

/-- What a run prints. -/
inductive Form where
  | tokens
  | canonical
  | json
deriving DecidableEq, Repr

/-- A source to run: the text itself, or the path of the file that holds it. -/
inductive Origin where
  | literal (text : String)
  | path (path : String)
deriving DecidableEq, Repr

/-- What a run has printed, and its status. -/
structure Output where
  out : String := ""
  err : String := ""
  status : Nat := 0
deriving DecidableEq, Repr, Inhabited

namespace Output

/-- A text filled up with blanks on its right to a width. -/
def padRight (width : Nat) (text : String) : String :=
  text ++ String.ofList (List.replicate (width - text.length) ' ')

/-- A text filled up with blanks on its left to a width. -/
def padLeft (width : Nat) (text : String) : String :=
  String.ofList (List.replicate (width - text.length) ' ') ++ text

/-- The line of a token in a listing. -/
def tokenLine (t : Token) : String :=
  padLeft 5 (toString t.position) ++ "  " ++ padRight 9 t.kind.name ++ " " ++ t.text ++ "\n"

/-- The listing of the tokens of a source. -/
def ofTokens (tokens : List Token) : Output :=
  { out := String.join (tokens.map tokenLine) }

/-- The diagnostics of a parse, as errors. -/
def ofMessages (messages : List String) : Output :=
  { err := String.join (messages.map (fun m => "error: " ++ m ++ "\n")), status := 1 }

/-- A program in a form. -/
def ofProgram (json : Bool) (p : Program) : Output :=
  { out := (if json then p.toJson.render else p.render) ++ "\n" }

/-- The outcome of a parse. -/
def ofParsed (json : Bool) (r : Parsed) : Output :=
  if r.diagnostics.isEmpty then ofProgram json r.program else ofMessages r.messages

end Output

/-- What running a source prints. -/
def runSource (form : Form) (source : String) : Output :=
  match form with
  | .tokens => .ofTokens (tokenize source)
  | .canonical => .ofParsed false (parse source)
  | .json => .ofParsed true (parse source)

/-- The text of a source. -/
def Origin.read (w : Workspace) : Origin → Except Fault String
  | literal text => .ok text
  | path name => w.readSource name

/-- What running a source prints, if it can be read. -/
def run (w : Workspace) (origin : Origin) (form : Form) : Except Fault Output :=
  (origin.read w).map (runSource form)

end MonkeySyntax
