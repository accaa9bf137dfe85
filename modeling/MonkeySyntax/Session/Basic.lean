import MonkeySyntax.Session.Entry
import MonkeySyntax.Session.Reply

/-!
# Sessions

A session reads entries and replies to each of them on its own.  An entry that says
`verbose-mode`, in letters of either case, turns verbose replies on or off, and an empty
entry has no reply.  The session ends with a line that says so, or after the last line, when
there is no more input or the user interrupts.

`Session.step` is what one line does to a session, and `Session.transcript` all that is
printed for some lines, the prompts included.  The lines typed are not printed.
-/

namespace MonkeySyntax

/-- The state of a session: whether replies are verbose, and the entry being typed. -/
structure Session where
  verbose : Bool := false
  draft : Draft := {}
deriving DecidableEq, Repr, Inhabited

namespace Session

/-- What is printed when a session starts. -/
def banner : String :=
  "Monkey REPL. Type 'exit' or 'quit' to leave.\n"

/-- What is printed when a session ends. -/
def farewell : String :=
  "Exiting Monkey REPL.\n"

/-- How the lines of a session come to an end when none of them ends it. -/
inductive Ending where
  /-- There is no more input. -/
  | endOfInput
  /-- The user interrupts the session. -/
  | interrupt
deriving DecidableEq, Repr, Inhabited

/-- What is printed when the lines end, in either way: the line of the prompt is ended first. -/
def Ending.printed : Ending → String
  | endOfInput | interrupt => "\n" ++ farewell

/-- The greeting of a user. -/
def greeting (user : String) : String :=
  "Hello " ++ user ++ "! This is the Monkey programming language!\n"
    ++ "Feel free to type in commands\n"

/-- Whether an entry turns verbose replies on or off. -/
def isToggle (text : String) : Bool :=
  text.toList.map Char.toLower == "verbose-mode".toList

/-- The line that tells whether replies are verbose. -/
def modeLine (verbose : Bool) : String :=
  "[mode] >>> Verbose mode " ++ (if verbose then "ON" else "OFF") ++ "\n"

/-- What is printed for an entry, and whether replies are verbose after it. -/
def respond (verbose : Bool) (text : String) : String × Bool :=
  if text.isEmpty then ("", verbose)
  else if isToggle text then (modeLine !verbose, !verbose)
  else ((reply verbose text).printed, verbose)

/-- What is printed for a line, and the session after it, unless the line ends it. -/
def step (s : Session) (line : String) : String × Option Session :=
  match s.draft.feed line with
  | .more draft => ("", some { s with draft })
  | .complete text => ((respond s.verbose text).1, some { verbose := (respond s.verbose text).2 })
  | .leave => (farewell, none)

/-- What is printed for the lines that are left: before each line a prompt, and after it
what the line leads to. -/
def converse (ending : Ending) (s : Session) : List String → String
  | [] => s.draft.prompt ++ ending.printed
  | line :: rest =>
    match s.step line with
    | (printed, some s') => s.draft.prompt ++ printed ++ s'.converse ending rest
    | (printed, none) => s.draft.prompt ++ printed

/-- All that is printed in a session that reads some lines. -/
def transcript (verbose : Bool) (lines : List String) (ending : Ending := .endOfInput) :
    String :=
  banner ++ converse ending { verbose } lines

end Session

end MonkeySyntax
