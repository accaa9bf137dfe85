import MonkeySyntax.Text.Lines
import MonkeySyntax.Text.Quoted
import MonkeySyntax.Text.Utf8

/-!
# Sources in files

A `Workspace` is the directory that the command line works in: the files and directories in
it, by their paths.  `Workspace.readSource` reads the source that a path names.  The path
must have the suffix `.monkey`, lead through directories to a file, and the file must be
UTF-8; its ends of lines are unified.  A `Fault` is what may be wrong with these.
-/

namespace MonkeySyntax

/-- What a path may lead to. -/
inductive FileContent where
  | file (bytes : ByteArray)
  | directory

/-- The files and directories below a directory, by the names on the way to them. -/
structure Workspace where
  entries : List (List String × FileContent) := []

/-- Why a source cannot be read. -/
inductive Fault where
  | wrongSuffix
  | nulInPath
  | missing (path : String)
  | isDirectory (path : String)
  | notDirectory (path : String)
  | nameTooLong (path : String)
  | notUtf8 (fault : Text.Utf8.Fault)
deriving DecidableEq, Repr

/-- The wording of a fault. -/
def Fault.message : Fault → String
  | wrongSuffix => "Only .monkey files are supported."
  | nulInPath => "embedded null byte"
  | missing path => "[Errno 2] No such file or directory: " ++ Text.quoted path
  | isDirectory path => "[Errno 21] Is a directory: " ++ Text.quoted path
  | notDirectory path => "[Errno 20] Not a directory: " ++ Text.quoted path
  | nameTooLong path => "[Errno 36] File name too long: " ++ Text.quoted path
  | notUtf8 fault => fault.message

/-- The source that the bytes of a file hold. -/
def sourceOfBytes (bytes : ByteArray) : Except Fault String :=
  match Text.Utf8.decode bytes with
  | .ok text => .ok (Text.unifyNewlines text)
  | .error fault => .error (.notUtf8 fault)

/-- The suffix of the files that hold sources. -/
def sourceSuffix : String := ".monkey"

/-- Whether a path may name a source: it has the right suffix and no null character. -/
def checkPath (path : String) : Except Fault Unit :=
  if !sourceSuffix.toList.isSuffixOf path.toList then .error .wrongSuffix
  else if path.toList.contains '\x00' then .error .nulInPath
  else .ok ()

namespace Workspace

/-- A workspace of files and directories with paths relative to it. -/
def ofPaths (entries : List (String × FileContent)) : Workspace :=
  ⟨entries.map (fun e => ((Text.split '/' e.1).filter (fun n => n != "" && n != "."), e.2))⟩

/-- What is at the end of a way of names.  The way to an entry leads through directories. -/
def find? (w : Workspace) (way : List String) : Option FileContent :=
  match w.entries.find? (fun e => e.1 == way) with
  | some e => some e.2
  | none =>
    if way.isEmpty || w.entries.any (fun e => way.isPrefixOf e.1) then some .directory else none

/-- The greatest number of bytes in a name. -/
def maxName : Nat := 255

/-- The greatest number of bytes in a path. -/
def maxPath : Nat := 4095

/-- What the names of a path lead to, from a place given by the way to it, the last name
first. -/
def follow (w : Workspace) (path : String) (here : List String) :
    List String → Except Fault FileContent
  | [] =>
    match w.find? here.reverse with
    | some content => .ok content
    | none => .error (.missing path)
  | name :: names =>
    match w.find? here.reverse with
    | none => .error (.missing path)
    | some (.file _) => .error (.notDirectory path)
    | some .directory =>
      if name == "" || name == "." then w.follow path here names
      else if name == ".." then
        match here with
        | [] => .error (.missing path)
        | _ :: here => w.follow path here names
      else if name.utf8ByteSize > maxName then .error (.nameTooLong path)
      else w.follow path (name :: here) names

/-- The bytes of the file that a path leads to.  A path from the root leads out of the
workspace, where there is no file. -/
def readFile (w : Workspace) (path : String) : Except Fault ByteArray :=
  if path.utf8ByteSize > maxPath then .error (.nameTooLong path)
  else if path.toList.head? == some '/' then .error (.missing path)
  else match w.follow path [] (Text.split '/' path) with
    | .ok (.file bytes) => .ok bytes
    | .ok .directory => .error (.isDirectory path)
    | .error fault => .error fault

/-- The source that a path names. -/
def readSource (w : Workspace) (path : String) : Except Fault String := do
  checkPath path
  sourceOfBytes (← w.readFile path)

end Workspace

end MonkeySyntax
