import MonkeySyntax.CommandLine.Flag
import MonkeySyntax.Text.DecimalDigit
import MonkeySyntax.Text.Quoted

/-!
# Reading the command line

The arguments hold flags and at most one source.  An argument is a flag, or something that
looks like one, if it starts with a dash; but a dash alone, a negative number, and an
argument with a space in it that names no flag may be the source.  A long spelling may be
cut short as long as it tells which flag is meant, and may have a value attached to it after
an equals sign, which is always an error.  Flags of one letter may be run together.  After
the argument `--` everything may be the source.

All arguments are sorted in this way first, by `Argument.classify`.  Then `consume` goes
through them from left to right.  The help flag ends it at once, and so does a value attached
to a flag; what has no place is collected and reported at the end.
-/

namespace MonkeySyntax

/-- Why a command line is refused. -/
inductive UsageError where
  /-- The argument may be short for several flags. -/
  | ambiguous (argument : String) (flags : List Flag)
  /-- The flag takes no value. -/
  | ignoredValue (flag : Flag) (value : String)
  /-- The arguments have no place. -/
  | unrecognized (arguments : List String)
deriving DecidableEq, Repr

/-- The wording of an error. -/
def UsageError.message : UsageError → String
  | ambiguous argument flags =>
    "ambiguous option: " ++ argument ++ " could match "
      ++ String.intercalate ", " (flags.map Flag.long)
  | ignoredValue flag value =>
    "argument " ++ flag.spellings ++ ": ignored explicit argument " ++ Text.quoted value
  | unrecognized arguments => "unrecognized arguments: " ++ String.intercalate " " arguments

/-- An argument, by what it may be. -/
inductive Argument where
  /-- A flag in its long spelling, with the value attached to it. -/
  | long (flag : Flag) (value : Option String)
  /-- A flag of one letter, and the characters after it. -/
  | short (flag : Flag) (rest : List Char)
  /-- Something that looks like a flag. -/
  | unknown (text : String)
  /-- The first argument `--`. -/
  | separator
  /-- What may be the source. -/
  | plain (text : String)
deriving DecidableEq, Repr

namespace Argument

/-- Whether characters are decimal digits, one or more of them, up to a final newline. -/
def isDigits (cs : List Char) : Bool :=
  let digits := cs.takeWhile (fun c => (Text.decimalValue? c).isSome)
  let rest := cs.drop digits.length
  !digits.isEmpty && (rest.isEmpty || rest == ['\n'])

/-- Whether the characters after a dash make a negative number, with or without a
fraction. -/
def isNumber (cs : List Char) : Bool :=
  isDigits cs || match cs.dropWhile (fun c => (Text.decimalValue? c).isSome) with
    | '.' :: rest => isDigits rest
    | _ => false

/-- The part of an argument before its first equals sign, and the value after it. -/
def splitValue (argument : List Char) : String × Option String :=
  let name := argument.takeWhile (fun c => c != '=')
  match argument.drop name.length with
  | [] => (String.ofList name, none)
  | _ :: value => (String.ofList name, some (String.ofList value))

/-- What an argument is that starts with a dash and names no flag. -/
def classifyOther (text : String) (afterDash : List Char) : Argument :=
  if isNumber afterDash || text.toList.contains ' ' then plain text else unknown text

/-- What an argument is, other than the first `--` and those after it. -/
def classify (text : String) : Except UsageError Argument :=
  match text.toList with
  | '-' :: '-' :: cs =>
    let (name, value) := splitValue ('-' :: '-' :: cs)
    match Flag.all.find? (fun f => f.long == name), Flag.startingWith name with
    | some flag, _ => .ok (long flag value)
    | none, [flag] => .ok (long flag value)
    | none, [] => .ok (classifyOther text ('-' :: cs))
    | none, flags => .error (.ambiguous text flags)
  | '-' :: c :: cs =>
    match Flag.ofLetter? c with
    | some flag => .ok (short flag cs)
    | none => .ok (classifyOther text (c :: cs))
  | _ => .ok (plain text)

/-- What all the arguments are. -/
def classifyAll : List String → Except UsageError (List Argument)
  | [] => .ok []
  | "--" :: texts => .ok (separator :: texts.map plain)
  | text :: texts => do
    let argument ← classify text
    let arguments ← classifyAll texts
    return argument :: arguments

end Argument

/-- What a command line asks for. -/
structure Options where
  /-- The source, or the path of the file that holds it. -/
  source : Option String := none
  literal : Bool := false
  tokens : Bool := false
  json : Bool := false
  session : Bool := false
  verbose : Bool := false
deriving DecidableEq, Repr, Inhabited

/-- Options with a flag set. -/
def Options.set (o : Options) : Flag → Options
  | .help => o
  | .literal => { o with literal := true }
  | .tokens => { o with tokens := true }
  | .json => { o with json := true }
  | .session => { o with session := true }
  | .verbose => { o with verbose := true }

/-- How the reading of a command line ends. -/
inductive CommandLine where
  | help
  | refused (error : UsageError)
  | options (o : Options)
deriving DecidableEq, Repr

namespace CommandLine

/-- The flags that are run together in one argument, from a flag and the characters after
it.  An equals sign after the first letter is passed over. -/
def cluster (flag : Flag) (rest : List Char) : Except UsageError (List Flag) :=
  match rest with
  | [] => .ok [flag]
  | c :: cs =>
    match Flag.ofLetter? c with
    | some next => do return flag :: (← cluster next cs)
    | none => .error (.ignoredValue flag (String.ofList rest))

/-- The flags of a short spelling, which may have a value attached to it after an equals
sign. -/
def shortFlags (flag : Flag) (rest : List Char) : Except UsageError (List Flag) :=
  match rest with
  | ['='] => .error (.ignoredValue flag "")
  | '=' :: cs => cluster flag cs
  | cs => cluster flag cs

/-- The flags that an argument sets. -/
def flagsOf : Argument → Except UsageError (List Flag)
  | .long flag none => .ok [flag]
  | .long flag (some value) => .error (.ignoredValue flag value)
  | .short flag rest => shortFlags flag rest
  | _ => .ok []

/-- The end of the reading: an error if an argument has no place. -/
def finish (o : Options) (misplaced : List String) : CommandLine :=
  if misplaced.isEmpty then options o else refused (.unrecognized misplaced.reverse)

/-- The reading of arguments, after options and arguments without a place, which come last
one first.  The source has its place once; `awaiting` tells whether it is still free.  The
separator goes with the source next to it, and has no place once the source is taken and
something else has been read. -/
def consume (o : Options) (misplaced : List String) (awaiting : Bool) :
    List Argument → CommandLine
  | [] => finish o misplaced
  | .unknown text :: rest => consume o (text :: misplaced) awaiting rest
  | .plain text :: .separator :: rest =>
    if awaiting then consume { o with source := some text } misplaced false rest
    else consume o ("--" :: text :: misplaced) false rest
  | .plain text :: rest =>
    if awaiting then consume { o with source := some text } misplaced false rest
    else consume o (text :: misplaced) false rest
  | .separator :: .plain text :: rest =>
    if awaiting then consume { o with source := some text } misplaced false rest
    else consume o (text :: "--" :: misplaced) false rest
  | .separator :: rest =>
    if awaiting then consume o misplaced awaiting rest
    else consume o ("--" :: misplaced) awaiting rest
  | argument :: rest =>
    match flagsOf argument with
    | .error e => refused e
    | .ok flags =>
      if flags.contains .help then help
      else consume (flags.foldl Options.set o) misplaced awaiting rest

/-- The reading of the arguments of a command line. -/
def ofArguments (texts : List String) : CommandLine :=
  match Argument.classifyAll texts with
  | .error e => refused e
  | .ok arguments => consume {} [] true arguments

end CommandLine

end MonkeySyntax
