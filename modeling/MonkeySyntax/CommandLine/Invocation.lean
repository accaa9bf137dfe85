import MonkeySyntax.CommandLine.Arguments
import MonkeySyntax.CommandLine.Run
import MonkeySyntax.Session.Basic

/-!
# Invocations

An invocation of the command line prints the description of the command line, refuses its
arguments, runs a source, or, without a source or when it is asked to, greets the user and
holds a session.
-/

namespace MonkeySyntax

/-- What a command line leads to. -/
inductive Task where
  | describe
  | refuse (error : UsageError)
  | converse (verbose : Bool)
  | run (origin : Origin) (form : Form)
deriving DecidableEq, Repr

namespace Task

/-- What options lead to.  A listing of tokens is preferred to JSON. -/
def ofOptions (o : Options) : Task :=
  match o.source with
  | none => converse o.verbose
  | some source =>
    if o.session then
      converse o.verbose
    else
      run (if o.literal then .literal source else .path source)
        (if o.tokens then .tokens else if o.json then .json else .canonical)

/-- What the arguments of a command line lead to. -/
def ofArguments (arguments : List String) : Task :=
  match CommandLine.ofArguments arguments with
  | .help => describe
  | .refused error => refuse error
  | .options o => ofOptions o

end Task

/-- What is printed when arguments are refused. -/
def refusalText (error : UsageError) : String :=
  usageLine ++ "monkey: error: " ++ error.message ++ "\n"

/-- How an invocation ends. -/
inductive Ending where
  /-- A session is over. -/
  | returned
  | exited (status : Nat)
  | failed (fault : Fault)
deriving DecidableEq, Repr

/-- All that an invocation prints, and how it ends. -/
structure Invocation where
  out : String := ""
  err : String := ""
  ending : Ending
deriving DecidableEq, Repr

/-- The invocation of the command line with arguments, by a user who types some lines. -/
def invoke (w : Workspace) (user : String) (lines : List String) (arguments : List String) :
    Invocation :=
  match Task.ofArguments arguments with
  | .describe => { out := helpText, ending := .exited 0 }
  | .refuse error => { err := refusalText error, ending := .exited 2 }
  | .converse verbose =>
    { out := Session.greeting user ++ Session.transcript verbose lines, ending := .returned }
  | .run origin form =>
    match run w origin form with
    | .ok output => { out := output.out, err := output.err, ending := .exited output.status }
    | .error fault => { ending := .failed fault }

end MonkeySyntax
