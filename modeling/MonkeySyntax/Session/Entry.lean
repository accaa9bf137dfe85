import MonkeySyntax.Text.Blank

/-!
# Entries of a session

What is typed comes line by line.  An entry is the shortest run of lines in which the
opening braces do not outnumber the closing ones; it is read as one text, without the blank
characters around it.  A first line that says `exit` or `quit` ends the session instead.

A `Draft` holds the lines of an entry that is not complete, and `Draft.feed` adds a line to
it.  `readEntry` reads one entry from the lines that are left, with a prompt for each line.
-/

namespace MonkeySyntax

/-- The lines of an entry that is not complete yet, the newest first, and by how many the
opening braces in them outnumber the closing ones. -/
structure Draft where
  lines : List String := []
  openBraces : Int := 0
deriving DecidableEq, Repr, Inhabited

/-- What a line makes of a draft. -/
inductive Fed where
  /-- More lines are needed. -/
  | more (draft : Draft)
  /-- The entry is complete, and this is its text. -/
  | complete (text : String)
  /-- The line ends the session. -/
  | leave
deriving DecidableEq, Repr

/-- By how many the opening braces of a line outnumber its closing ones. -/
def braceBalance (line : String) : Int :=
  (line.toList.count '\x7b' : Int) - (line.toList.count '\x7d' : Int)

/-- Whether a line ends the session. -/
def isLeaving (line : String) : Bool :=
  Text.strip line == "exit" || Text.strip line == "quit"

namespace Draft

/-- The prompt for the next line. -/
def prompt (d : Draft) : String :=
  if d.lines.isEmpty then ">>> " else "... "

/-- The lines of a draft as one text. -/
def text (d : Draft) : String :=
  Text.strip (String.intercalate "\n" d.lines.reverse)

/-- A draft with a line more. -/
def add (d : Draft) (line : String) : Draft :=
  ⟨line :: d.lines, d.openBraces + braceBalance line⟩

/-- What a line makes of a draft. -/
def feed (d : Draft) (line : String) : Fed :=
  if d.lines.isEmpty && isLeaving line then .leave
  else if (d.add line).openBraces ≤ 0 then .complete (d.add line).text
  else .more (d.add line)

end Draft

/-- How the reading of an entry ends. -/
inductive Entry where
  | text (text : String)
  /-- The session has been ended by a line. -/
  | leave
  /-- There are no more lines. -/
  | noMore
deriving DecidableEq, Repr

/-- An entry that has been read, what was printed meanwhile, and the lines left. -/
structure EntryRead where
  entry : Entry
  printed : String
  rest : List String
deriving DecidableEq, Repr

/-- An entry of which a draft has been read, and before which something has been printed. -/
def Draft.readFrom (d : Draft) (printed : String) : List String → EntryRead
  | [] => ⟨.noMore, printed ++ d.prompt, []⟩
  | line :: rest =>
    match d.feed line with
    | .more d' => d'.readFrom (printed ++ d.prompt) rest
    | .complete text => ⟨.text text, printed ++ d.prompt, rest⟩
    | .leave => ⟨.leave, printed ++ d.prompt, rest⟩

/-- The next entry of some lines. -/
def readEntry (lines : List String) : EntryRead :=
  Draft.readFrom {} "" lines

/-- Several entries that have been read one after the other, and what was printed
meanwhile.  The last of them may be `Entry.noMore`. -/
structure EntriesRead where
  entries : List Entry
  printed : String
deriving DecidableEq, Repr

/-- As many entries as `count` says, or up to the end of the lines. -/
def readEntries (count : Nat) (lines : List String) : EntriesRead :=
  match count with
  | 0 => ⟨[], ""⟩
  | count + 1 =>
    let first := readEntry lines
    match first.entry with
    | .noMore => ⟨[.noMore], first.printed⟩
    | entry =>
      let others := readEntries count first.rest
      ⟨entry :: others.entries, first.printed ++ others.printed⟩

end MonkeySyntax
