import MonkeySyntax.CommandLine.Invocation

/-!
# The command line program

This module only reads arguments, files and lines, and prints.
-/

open MonkeySyntax

/-- Read the source that a path names from the file system. -/
def readSourceFile (path : String) : IO (Except Fault String) := do
  match checkPath path with
  | .error fault => return .error fault
  | .ok _ =>
    try
      return sourceOfBytes (← IO.FS.readBinFile path)
    catch e =>
      match e with
      | .noFileOrDirectory .. => return .error (.missing path)
      | .inappropriateType _ code _ =>
        return .error (if code == 21 then .isDirectory path else .notDirectory path)
      | .invalidArgument .. => return .error (.nameTooLong path)
      | e => throw e

/-- Read lines until a session ends. -/
partial def converseWith (input output : IO.FS.Stream) (s : Session) : IO Unit := do
  output.putStr s.draft.prompt
  output.flush
  match Text.lines (← input.getLine) with
  | [] => output.putStr (Session.Ending.printed .endOfInput)
  | line :: _ =>
    let (printed, after) := s.step line
    output.putStr printed
    match after with
    | some s => converseWith input output s
    | none => output.flush

/-- The name of the user, from the environment. -/
def userName : IO String := do
  for key in ["LOGNAME", "USER", "LNAME", "USERNAME"] do
    if let some name ← IO.getEnv key then
      unless name.isEmpty do
        return name
  return "user"

/-- Do what the arguments of the command line lead to. -/
def main (arguments : List String) : IO UInt32 := do
  let output ← IO.getStdout
  let error ← IO.getStderr
  match Task.ofArguments arguments with
  | .describe =>
    output.putStr helpText
    return 0
  | .refuse e =>
    error.putStr (refusalText e)
    return 2
  | .converse verbose =>
    output.putStr (Session.greeting (← userName) ++ Session.banner)
    converseWith (← IO.getStdin) output { verbose }
    return 0
  | .run origin form =>
    let source ← match origin with
      | .literal text => pure (.ok text)
      | .path path => readSourceFile path
    match source with
    | .ok text =>
      let result := runSource form text
      output.putStr result.out
      error.putStr result.err
      return result.status.toUInt32
    | .error fault =>
      error.putStr (fault.message ++ "\n")
      return 1
