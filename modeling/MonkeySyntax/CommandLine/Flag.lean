/-!
# Flags of the command line

The command line knows six flags, none of which takes a value.  Each flag has a long
spelling, and two of them have a short one too.  `Flag.help` is the text that describes
them.
-/

namespace MonkeySyntax

/-- A flag of the command line. -/
inductive Flag where
  | help
  | literal
  | tokens
  | json
  | session
  | verbose
deriving DecidableEq, Repr

namespace Flag

/-- Every flag, in the order in which they are described. -/
def all : List Flag :=
  [help, literal, tokens, json, session, verbose]

/-- The long spelling of a flag. -/
def long : Flag → String
  | help => "--help"
  | literal => "--string"
  | tokens => "--tokens"
  | json => "--json"
  | session => "--repl"
  | verbose => "--verbose"

/-- The letter of the short spelling of a flag. -/
def letter : Flag → Option Char
  | help => some 'h'
  | literal => some 's'
  | _ => none

/-- The spellings of a flag, as a message names them. -/
def spellings (f : Flag) : String :=
  match f.letter with
  | some c => "-" ++ String.ofList [c] ++ "/" ++ f.long
  | none => f.long

/-- The flag with a letter. -/
def ofLetter? (c : Char) : Option Flag :=
  all.find? (fun f => f.letter == some c)

/-- The flags whose long spelling starts as a text does. -/
def startingWith (text : String) : List Flag :=
  all.filter (fun f => text.toList.isPrefixOf f.long.toList)

end Flag

/-- The line that sums up the command line. -/
def usageLine : String :=
  "usage: monkey [-h] [-s] [--tokens] [--json] [--repl] [--verbose] [source]\n"

/-- The description of the command line. -/
def helpText : String :=
  usageLine
    ++ "\n"
    ++ "positional arguments:\n"
    ++ "  source        Filename or raw source (with -s)\n"
    ++ "\n"
    ++ "options:\n"
    ++ "  -h, --help    show this help message and exit\n"
    ++ "  -s, --string  Interpret source as literal string\n"
    ++ "  --tokens      Print the token stream instead of the tree\n"
    ++ "  --json        Print the tree as JSON\n"
    ++ "  --repl        Launch interactive REPL\n"
    ++ "  --verbose     Verbose REPL mode (if --repl)\n"

end MonkeySyntax
