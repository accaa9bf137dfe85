import Mathlib.Data.List.Infix
import MonkeySyntax.Proofs.OpenBlocks
import MonkeySyntax.Session.Reply

/-!
# Reading entries

Entries are read from consecutive runs of lines: none is skipped, and none is read twice.  A run is
a line that ends the session, or the lines of an entry: the shortest run in which the opening
braces do not outnumber the closing ones, whatever its lines after the first say.  When there are
no more lines, those of an unfinished entry are lost, and no others.

A draft holds the lines that have been read of an entry (`Draft.ofLines`).  The proofs go by the
lines to come, for any lines that have been read.

The braces are counted by characters, and these are tokens of the entry.  So an entry that is
accepted closes all its braces: it does not close more than it opens, as every program, and it
opens no more than it closes, as every entry.
-/

namespace MonkeySyntax

/-- By how many the opening braces of lines outnumber the closing ones. -/
def totalBalance : List String → Int
  | [] => 0
  | line :: lines => braceBalance line + totalBalance lines

/-- The braces of lines add up. -/
theorem totalBalance_append (lines lines' : List String) :
  totalBalance (lines ++ lines') = totalBalance lines + totalBalance lines'
  := by
  induction lines with
  | nil => simp [totalBalance]
  | cons line lines ih =>
    rw [List.cons_append, totalBalance, totalBalance, ih]
    omega

/-- Lines that leave an entry unfinished: the first does not end the session, and after each of
them there is a brace open. -/
structure IsUnfinished (lines : List String) : Prop where
  stays : ∀ line ∈ lines.head?, isLeaving line = false
  opened : ∀ first, first <+: lines → first ≠ [] → 0 < totalBalance first

/-- The lines of an entry: the first does not end the session, and the last is the first after
which no brace is open. -/
structure IsEntry (lines : List String) : Prop where
  ne_nil : lines ≠ []
  stays : ∀ line ∈ lines.head?, isLeaving line = false
  opened : ∀ first, first <+: lines → first ≠ [] → first ≠ lines → 0 < totalBalance first
  closed : totalBalance lines ≤ 0

/-- Whether lines leave an entry unfinished can be told from their first parts, which are finitely
many. -/
theorem isUnfinished_iff (lines : List String) :
  IsUnfinished lines ↔ (∀ line ∈ lines.head?, isLeaving line = false) ∧
    ∀ first ∈ lines.inits, first ≠ [] → 0 < totalBalance first
  := by
  simp only [List.mem_inits]
  exact ⟨fun h => ⟨h.stays, h.opened⟩, fun ⟨hstays, hopened⟩ => ⟨hstays, hopened⟩⟩

/-- Whether lines are those of an entry can be told from their first parts, which are finitely many.
-/
theorem isEntry_iff (lines : List String) :
  IsEntry lines ↔ lines ≠ [] ∧ (∀ line ∈ lines.head?, isLeaving line = false) ∧
    (∀ first ∈ lines.inits, first ≠ [] → first ≠ lines → 0 < totalBalance first) ∧
    totalBalance lines ≤ 0
  := by
  simp only [List.mem_inits]
  exact ⟨fun h => ⟨h.ne_nil, h.stays, h.opened, h.closed⟩,
    fun ⟨hne, hstays, hopened, hclosed⟩ => ⟨hne, hstays, hopened, hclosed⟩⟩

instance (lines : List String) : Decidable (IsUnfinished lines) :=
  decidable_of_iff' _ (isUnfinished_iff lines)

instance (lines : List String) : Decidable (IsEntry lines) :=
  decidable_of_iff' _ (isEntry_iff lines)

/-- The text of the entry that is read from some lines. -/
def entryText (lines : List String) : String :=
  Text.strip (String.intercalate "\n" lines)

/-- What is read from a run of lines. -/
inductive IsRun : List String → Entry → Prop
  | leave {line : String} (h : isLeaving line = true) : IsRun [line] .leave
  | text {lines : List String} (h : IsEntry lines) : IsRun lines (.text (entryText lines))

/-- The prompts for a number of lines. -/
def prompts : Nat → String
  | 0 => ""
  | n + 1 => ">>> " ++ String.join (List.replicate n "... ")

/-- The reading of an entry: from the first run of the lines, with a prompt for each of its lines,
or to the end of them, with one more prompt. -/
inductive IsReading : List String → EntryRead → Prop
  | run {run rest : List String} {entry : Entry} (h : IsRun run entry) :
      IsReading (run ++ rest) ⟨entry, prompts run.length, rest⟩
  | noMore {lines : List String} (h : IsUnfinished lines) :
      IsReading lines ⟨.noMore, prompts (lines.length + 1), []⟩

/-! ### Runs of lines -/

/-- Before its first line an entry is unfinished. -/
theorem isUnfinished_nil :
  IsUnfinished []
  := by
  constructor
  · simp
  · intro first hfirst hne
    cases hne (List.prefix_nil.mp hfirst)

/-- A line more leaves an entry unfinished, or it completes it, or it ends the session. -/
theorem IsUnfinished.concat_cases {lines : List String} (h : IsUnfinished lines) (line : String) :
  IsUnfinished (lines ++ [line]) ∨ IsEntry (lines ++ [line]) ∨ lines = [] ∧ isLeaving line = true
  := by
  have hbefore : ∀ first, first <+: lines ++ [line] → first ≠ [] → first ≠ lines ++ [line] →
      0 < totalBalance first := by
    intro first hfirst hne hne'
    rcases List.prefix_concat_iff.mp hfirst with rfl | hfirst
    · cases hne' rfl
    · apply h.opened first hfirst hne
  by_cases hleaving : lines = [] ∧ isLeaving line = true
  · exact .inr (.inr hleaving)
  · have hstays : ∀ first ∈ (lines ++ [line]).head?, isLeaving first = false := by
      cases lines with
      | nil => simpa using hleaving
      | cons first lines => apply h.stays
    by_cases hclosed : totalBalance (lines ++ [line]) ≤ 0
    · exact .inr (.inl ⟨by simp, hstays, hbefore, hclosed⟩)
    · refine .inl ⟨hstays, ?_⟩
      intro first hfirst hne
      by_cases hwhole : first = lines ++ [line]
      · rw [hwhole]
        omega
      · apply hbefore first hfirst hne hwhole

/-- Lines after those of an unfinished entry leave it unfinished, or complete it. -/
theorem IsUnfinished.append_cases {lines : List String} (h : IsUnfinished lines) (hne : lines ≠ [])
    (more : List String) :
  IsUnfinished (lines ++ more) ∨
    ∃ run rest, more = run ++ rest ∧ run ≠ [] ∧ IsEntry (lines ++ run)
  := by
  induction more generalizing lines with
  | nil =>
    rw [List.append_nil]
    exact .inl h
  | cons line more ih =>
    rcases h.concat_cases line with hmore | hentry | ⟨hnil, -⟩
    · rcases ih hmore (by simp) with hall | ⟨run, rest, rfl, -, hentry⟩
      · rw [List.append_assoc] at hall
        exact .inl hall
      · rw [List.append_assoc] at hentry
        exact .inr ⟨line :: run, rest, rfl, by simp, hentry⟩
    · exact .inr ⟨[line], more, rfl, by simp, hentry⟩
    · cases hne hnil

/-- The first lines of those that leave an entry unfinished leave it unfinished. -/
theorem IsUnfinished.of_append {lines more : List String} (h : IsUnfinished (lines ++ more)) :
  IsUnfinished lines
  := by
  constructor
  · cases lines with
    | nil => simp
    | cons line lines => apply h.stays
  · intro first hfirst
    apply h.opened first (hfirst.trans (List.prefix_append lines more))

/-- Before the last line an entry is unfinished. -/
theorem IsEntry.exists_concat {lines : List String} (h : IsEntry lines) :
  ∃ init last, lines = init ++ [last] ∧ IsUnfinished init
  := by
  rcases List.eq_nil_or_concat lines with rfl | ⟨init, last, rfl⟩
  · cases h.ne_nil rfl
  · rw [List.concat_eq_append] at *
    refine ⟨init, last, rfl, ?_, ?_⟩
    · cases init with
      | nil => simp
      | cons line init => apply h.stays
    · intro first hfirst hne
      apply h.opened first (hfirst.trans (List.prefix_append init [last])) hne
      rintro rfl
      have hle := hfirst.length_le
      rw [List.length_append, List.length_singleton] at hle
      omega

/-- Lines start with a run, or leave an entry unfinished. -/
theorem isUnfinished_or_exists_run (lines : List String) :
  IsUnfinished lines ∨ ∃ run rest entry, lines = run ++ rest ∧ IsRun run entry
  := by
  cases lines with
  | nil => exact .inl isUnfinished_nil
  | cons line lines =>
    rcases isUnfinished_nil.concat_cases line with hmore | hentry | ⟨-, hleaving⟩
    · rcases hmore.append_cases (by simp) lines with hall | ⟨run, rest, rfl, -, hentry⟩
      · exact .inl hall
      · exact .inr ⟨_, rest, _, (List.append_assoc [line] run rest).symm, .text hentry⟩
    · exact .inr ⟨[line], lines, _, rfl, .text hentry⟩
    · exact .inr ⟨[line], lines, _, rfl, .leave hleaving⟩

/-! ### Drafts -/

namespace Draft

/-- The draft of some lines that have been read. -/
def ofLines (lines : List String) : Draft :=
  ⟨lines.reverse, totalBalance lines⟩

/-- A line that is added to a draft comes after those that have been read. -/
theorem add_ofLines (lines : List String) (line : String) :
  (ofLines lines).add line = ofLines (lines ++ [line])
  := by
  simp [add, ofLines, totalBalance_append, totalBalance]

/-- The prompt of a draft comes after those of the lines that have been read. -/
theorem prompts_append_prompt (lines : List String) :
  prompts lines.length ++ (ofLines lines).prompt = prompts (lines.length + 1)
  := by
  cases lines with
  | nil => rfl
  | cons line lines =>
    have hprompt : (ofLines (line :: lines)).prompt = "... " := by simp [prompt, ofLines]
    rw [hprompt, List.length_cons, prompts, prompts, List.replicate_succ', String.join_append,
      String.append_assoc]
    simp

/-- A line ends the session only if it is the first one of an entry. -/
theorem isLeaving_concat {lines : List String} {line : String}
    (h : ∀ first ∈ (lines ++ [line]).head?, isLeaving first = false) :
  ((ofLines lines).lines.isEmpty && isLeaving line) = false
  := by
  cases lines with
  | nil =>
    rw [h line rfl]
    rfl
  | cons first lines => simp [ofLines]

/-- A first line that ends the session ends it. -/
theorem feed_of_isLeaving {line : String} (h : isLeaving line = true) :
  (ofLines []).feed line = .leave
  := by
  rw [feed, h]
  rfl

/-- A line after which a brace is open is kept in the draft. -/
theorem feed_of_isUnfinished {lines : List String} {line : String}
    (h : IsUnfinished (lines ++ [line])) :
  (ofLines lines).feed line = .more (ofLines (lines ++ [line]))
  := by
  have hopened : ¬ totalBalance (lines ++ [line]) ≤ 0 := by
    have hpos := h.opened _ List.prefix_rfl (by simp)
    omega
  have hstays := isLeaving_concat h.stays
  rw [feed, hstays, add_ofLines]
  simp only [ofLines, hopened, if_false, Bool.false_eq_true]

/-- A line after which no brace is open completes the entry. -/
theorem feed_of_isEntry {lines : List String} {line : String} (h : IsEntry (lines ++ [line])) :
  (ofLines lines).feed line = .complete (entryText (lines ++ [line]))
  := by
  have hclosed := h.closed
  have hstays := isLeaving_concat h.stays
  rw [feed, hstays, add_ofLines]
  simp only [ofLines, hclosed, if_true, if_false, Bool.false_eq_true, text, List.reverse_reverse,
    entryText]

/-- Lines that leave the entry unfinished are taken into the draft. -/
theorem readFrom_append {lines more : List String} (h : IsUnfinished (lines ++ more))
    (rest : List String) :
  (ofLines lines).readFrom (prompts lines.length) (more ++ rest) =
    (ofLines (lines ++ more)).readFrom (prompts (lines ++ more).length) rest
  := by
  induction more generalizing lines with
  | nil => rw [List.nil_append, List.append_nil]
  | cons line more ih =>
    rw [List.append_cons] at h
    have hlength : lines.length + 1 = (lines ++ [line]).length := by simp
    rw [List.cons_append, readFrom, feed_of_isUnfinished h.of_append]
    dsimp only
    rw [prompts_append_prompt, hlength, ih h, ← List.append_cons]

end Draft

/-! ### Reading one entry -/

/-- The reading of an entry from a run and the lines after it, or from lines that leave it
unfinished. -/
theorem IsReading.readEntry_eq {lines : List String} {r : EntryRead} (h : IsReading lines r) :
  readEntry lines = r
  := by
  have hstart (lines : List String) :
      readEntry lines = (Draft.ofLines []).readFrom (prompts 0) lines := rfl
  cases h with
  | noMore h =>
    have hread := @Draft.readFrom_append [] lines h []
    rw [List.nil_append, List.append_nil] at hread
    rw [hstart]
    apply hread.trans
    rw [Draft.readFrom, Draft.prompts_append_prompt]
  | @run run rest entry h =>
    cases h with
    | leave h =>
      rw [hstart, List.singleton_append, Draft.readFrom, Draft.feed_of_isLeaving h]
      rfl
    | text h =>
      obtain ⟨init, last, rfl, hinit⟩ := h.exists_concat
      have hread := @Draft.readFrom_append [] init hinit (last :: rest)
      rw [List.nil_append] at hread
      rw [hstart, List.append_assoc, List.singleton_append]
      apply hread.trans
      rw [Draft.readFrom, Draft.feed_of_isEntry h]
      dsimp only
      rw [Draft.prompts_append_prompt, List.length_append, List.length_singleton]

/-- Reading an entry is what it has to be. -/
theorem readEntry_eq_iff (lines : List String) (r : EntryRead) :
  readEntry lines = r ↔ IsReading lines r
  := by
  constructor
  · rintro rfl
    rcases isUnfinished_or_exists_run lines with hall | ⟨run, rest, entry, rfl, hrun⟩
    · have hreading := IsReading.noMore hall
      rwa [hreading.readEntry_eq]
    · have hreading : IsReading (run ++ rest) _ := .run hrun
      rwa [hreading.readEntry_eq]
  · intro h
    apply h.readEntry_eq

/-! ### Reading several entries -/

/-- The lines that are left after a number of entries have been read. -/
def linesLeft (count : Nat) (lines : List String) : List String :=
  (fun lines => (readEntry lines).rest)^[count] lines

/-- The prompts for the lines of some runs. -/
def promptsFor (runs : List (List String)) : String :=
  String.join (runs.map (fun run => prompts run.length))

/-- The reading of entries starts with the run that the lines start with. -/
theorem readEntries_of_isRun {run : List String} {entry : Entry} (h : IsRun run entry)
    (count : Nat) (rest : List String) :
  readEntries (count + 1) (run ++ rest) =
    ⟨entry :: (readEntries count rest).entries,
      prompts run.length ++ (readEntries count rest).printed⟩
  := by
  have hread : readEntry (run ++ rest) = ⟨entry, prompts run.length, rest⟩ :=
    (IsReading.run h).readEntry_eq
  cases h with
  | leave => simp only [readEntries, hread]
  | text => simp only [readEntries, hread]

/-- The reading of entries ends with the lines of an unfinished entry. -/
theorem readEntries_of_isUnfinished {lines : List String} (h : IsUnfinished lines) (count : Nat) :
  readEntries (count + 1) lines = ⟨[.noMore], prompts (lines.length + 1)⟩
  := by
  simp only [readEntries, (IsReading.noMore h).readEntry_eq]

/-- Entries are read from runs, one after the other, until there are as many as are wanted or the
lines that are left are those of an unfinished entry. -/
theorem exists_runs (count : Nat) (lines : List String) :
  ∃ runs entries rest, List.Forall₂ IsRun runs entries ∧ lines = runs.flatten ++ rest ∧
    linesLeft runs.length lines = rest ∧
    (runs.length = count ∧ readEntries count lines = ⟨entries, promptsFor runs⟩ ∨
      runs.length < count ∧ IsUnfinished rest ∧
        readEntries count lines =
          ⟨entries ++ [.noMore], promptsFor runs ++ prompts (rest.length + 1)⟩)
  := by
  induction count generalizing lines with
  | zero => exact ⟨[], [], lines, .nil, rfl, rfl, .inl ⟨rfl, rfl⟩⟩
  | succ count ih =>
    rcases isUnfinished_or_exists_run lines with hall | ⟨run, later, entry, rfl, hrun⟩
    · refine ⟨[], [], lines, .nil, rfl, rfl, .inr ⟨by simp, hall, ?_⟩⟩
      rw [readEntries_of_isUnfinished hall, promptsFor]
      simp
    · obtain ⟨runs, entries, rest, hruns, rfl, hleft, hread⟩ := ih later
      have hfirst : linesLeft (runs.length + 1) (run ++ (runs.flatten ++ rest)) = rest := by
        rw [linesLeft, Function.iterate_succ_apply, (IsReading.run hrun).readEntry_eq]
        apply hleft
      have hprompts : promptsFor (run :: runs) = prompts run.length ++ promptsFor runs := by
        rw [promptsFor, List.map_cons, String.join_cons]
        rfl
      refine ⟨run :: runs, entry :: entries, rest, .cons hrun hruns, ?_, hfirst, ?_⟩
      · rw [List.flatten_cons, List.append_assoc]
      · rw [readEntries_of_isRun hrun, hprompts]
        rcases hread with ⟨hlength, hread⟩ | ⟨hlength, hrest, hread⟩
        · exact .inl ⟨by rw [List.length_cons, hlength], by rw [hread]⟩
        · refine .inr ⟨by rwa [List.length_cons, Nat.succ_lt_succ_iff], hrest, ?_⟩
          rw [hread, List.cons_append, String.append_assoc]

/-! ### The braces of an entry -/

/-- The braces of an entry are those of its lines. -/
theorem braceBalance_entryText (lines : List String) :
  braceBalance (entryText lines) = totalBalance lines
  := by
  rw [entryText, braceBalance_strip]
  induction lines with
  | nil => rfl
  | cons line lines ih =>
    cases lines with
    | nil => simp [totalBalance]
    | cons line' lines =>
      have hnewline : braceBalance "\n" = 0 := by decide
      rw [String.intercalate_cons_cons, braceBalance_append, braceBalance_append, ih, hnewline,
        Int.add_zero]
      rfl

/-- An entry that is accepted closes each of its blocks with a brace of its own. -/
theorem IsEntry.closes {lines : List String} (h : IsEntry lines)
    (haccepted : (parse (entryText lines)).diagnostics = []) :
  braceBalance (entryText lines) = 0 ∧
    ∀ b ∈ (parse (entryText lines)).program.blocks,
      Grammar.ClosesIn (TokenStream.ofSource (entryText lines)).proper b
  := by
  obtain ⟨k, -, hk, hblocks⟩ := openBrackets_tokenize haccepted
  have hclosed := h.closed
  rw [← braceBalance_entryText, ← hk] at hclosed
  obtain rfl : k = 0 := by omega
  exact ⟨hk.symm, hblocks rfl⟩

/-- A text that is read as an entry is that of the lines of one. -/
theorem exists_isEntry_of_mem {runs : List (List String)} {entries : List Entry}
    (h : List.Forall₂ IsRun runs entries) {text : String} (htext : .text text ∈ entries) :
  ∃ lines, IsEntry lines ∧ entryText lines = text
  := by
  induction h with
  | nil => cases htext
  | cons hrun _ ih =>
    rcases List.mem_cons.mp htext with rfl | htext
    · cases hrun with
      | text h => exact ⟨_, h, rfl⟩
    · apply ih htext

/-- An entry is read from the first run of the lines, or not at all if they leave it unfinished.
Several entries are read from consecutive runs, and only the lines of an entry that is unfinished
when there are no more of them are lost.  The braces of a text are its tokens that are braces, and
an entry that has been read and is accepted has as many closing braces as opening ones, and none of
its blocks is closed by its end. -/
theorem exists_runs_readEntries :
  (∀ (lines : List String) (r : EntryRead), readEntry lines = r ↔ IsReading lines r) ∧
  (∀ (count : Nat) (lines : List String), ∃ runs entries rest,
    List.Forall₂ IsRun runs entries ∧ lines = runs.flatten ++ rest ∧
    linesLeft runs.length lines = rest ∧
    (runs.length = count ∧ readEntries count lines = ⟨entries, promptsFor runs⟩ ∨
      runs.length < count ∧ IsUnfinished rest ∧
        readEntries count lines =
          ⟨entries ++ [.noMore], promptsFor runs ++ prompts (rest.length + 1)⟩)) ∧
  (∀ text : String,
    text.toList.count '\x7b' = (tokenize text).countP (fun t => t.kind == .leftBrace) ∧
    text.toList.count '\x7d' = (tokenize text).countP (fun t => t.kind == .rightBrace)) ∧
  ∀ (count : Nat) (lines : List String) (text : String) (verbose : Bool),
    .text text ∈ (readEntries count lines).entries → (reply verbose text).accepted = true →
    text.toList.count '\x7d' = text.toList.count '\x7b' ∧
      ∀ b ∈ (parse text).program.blocks, Grammar.ClosesIn (TokenStream.ofSource text).proper b
  := by
  refine ⟨readEntry_eq_iff, exists_runs, ?_, ?_⟩
  · intro text
    exact ⟨count_leftBrace text, count_rightBrace text⟩
  · intro count lines text verbose htext haccepted
    obtain ⟨runs, entries, rest, hruns, -, -, hread⟩ := exists_runs count lines
    have hmem : .text text ∈ entries := by
      rcases hread with ⟨-, hread⟩ | ⟨-, -, hread⟩
      · rwa [hread] at htext
      · simpa [hread] using htext
    obtain ⟨run, hrun, rfl⟩ := exists_isEntry_of_mem hruns hmem
    have hquiet : (parse (entryText run)).diagnostics = [] := List.isEmpty_iff.mp haccepted
    obtain ⟨hbalance, hblocks⟩ := hrun.closes hquiet
    rw [braceBalance] at hbalance
    exact ⟨by omega, hblocks⟩

/-- Lines of which the first two make an entry although the second says `exit`, the third ends the
session, and the last leaves an entry unfinished. -/
def exitingLines : List String :=
  ["function() \x7b", "exit \x7d", "quit", "\x7b 1"]

/-- The text of the entry that the first two lines make. -/
def exitingText : String :=
  "function() \x7b\nexit \x7d"

/-- The entry is accepted, and the block of its function has a closing brace. -/
theorem exists_runs_readEntries_function :
  readEntries 3 exitingLines = ⟨[.text exitingText, .leave, .noMore], ">>> ... >>> >>> ... "⟩ ∧
    (reply true exitingText).accepted = true ∧
    ∀ b ∈ (parse exitingText).program.blocks,
      Grammar.ClosesIn (TokenStream.ofSource exitingText).proper b
  := by
  have hread : readEntries 3 exitingLines =
      ⟨[.text exitingText, .leave, .noMore], ">>> ... >>> >>> ... "⟩ := by decide +kernel
  have haccepted : (reply true exitingText).accepted = true := by decide +kernel
  have htext : .text exitingText ∈ (readEntries 3 exitingLines).entries := by simp [hread]
  exact ⟨hread, haccepted, (exists_runs_readEntries.2.2.2 3 _ _ true htext haccepted).2⟩

end MonkeySyntax
