import MonkeySyntax.Proofs.Session.Entries
import MonkeySyntax.Proofs.Session.Toggles

/-!
# Sessions entry by entry

What a session prints is its banner, a chunk for each entry, and a farewell.  The chunk of an entry
depends on its own lines and on whether replies are verbose, and the latter only on how many of
the entries before it turn verbose replies on or off.  So an entry may be put in the place of
another one without a change of any other chunk.

The lines of a session are the runs of its entries, and then either a line that ends the session,
after which no line is read, or the lines of an unfinished entry, which is not replied to.
-/

namespace MonkeySyntax.Session

/-- Whether replies are verbose after the entries of some runs: each of them that says so turns
verbose replies on or off. -/
def verboseAfter (verbose : Bool) (runs : List (List String)) : Bool :=
  not^[runs.countP (fun run => isToggle (entryText run))] verbose

/-- What is printed for the lines of an entry: their prompts, and the response to its text. -/
def chunk (verbose : Bool) (run : List String) : String :=
  prompts run.length ++ (respond verbose (entryText run)).1

/-- What is printed for entries one after the other. -/
def chunks (verbose : Bool) (runs : List (List String)) : String :=
  String.join (runs.mapIdx (fun i run => chunk (verboseAfter verbose (runs.take i)) run))

/-! ### Verbose replies -/

theorem verboseAfter_nil (verbose : Bool) :
  verboseAfter verbose [] = verbose
  := rfl

/-- The first entry may turn verbose replies on or off, before the others. -/
theorem verboseAfter_cons (verbose : Bool) (run : List String) (runs : List (List String)) :
  verboseAfter verbose (run :: runs) = verboseAfter (respond verbose (entryText run)).2 runs
  := by
  rw [verboseAfter, verboseAfter, respond_verbose, List.countP_cons]
  by_cases htoggle : isToggle (entryText run) = true
  · rw [if_pos htoggle, if_pos htoggle, Function.iterate_succ_apply]
  · rw [if_neg htoggle, if_neg htoggle, Nat.add_zero]

/-! ### Chunks -/

theorem chunks_nil (verbose : Bool) :
  chunks verbose [] = ""
  := String.join_nil

/-- The chunk of the first entry comes before those of the others, which depend on whether its reply
leaves verbose replies on. -/
theorem chunks_cons (verbose : Bool) (run : List String) (runs : List (List String)) :
  chunks verbose (run :: runs) =
    chunk verbose run ++ chunks (respond verbose (entryText run)).2 runs
  := by
  rw [chunks, List.mapIdx_cons, String.join_cons, List.take_zero, verboseAfter_nil]
  simp only [List.take_succ_cons, verboseAfter_cons]
  rfl

/-! ### The conversation -/

/-- What is printed from the reading of an entry on. -/
def resume (ending : Ending) (verbose : Bool) (r : EntryRead) : String :=
  match r.entry with
  | .text text =>
    r.printed ++ (respond verbose text).1 ++
      converse ending { verbose := (respond verbose text).2 } r.rest
  | .leave => r.printed ++ farewell
  | .noMore => r.printed ++ ending.printed

/-- The conversation reads an entry with the prompts for its lines, and goes on from there. -/
theorem append_converse (ending : Ending) (verbose : Bool) (d : Draft) (printed : String)
    (lines : List String) :
  printed ++ converse ending { verbose, draft := d } lines =
    resume ending verbose (d.readFrom printed lines)
  := by
  induction lines generalizing d printed with
  | nil =>
    rw [converse, Draft.readFrom, ← String.append_assoc]
    rfl
  | cons line lines ih =>
    rw [converse, Draft.readFrom, step]
    cases hfeed : d.feed line with
    | more d' =>
      dsimp only
      rw [← ih, String.append_empty, String.append_assoc]
    | complete text =>
      dsimp only [resume]
      simp only [String.append_assoc]
    | leave =>
      dsimp only [resume]
      rw [String.append_assoc]

/-- The conversation goes on from the reading of its first entry. -/
theorem converse_eq (ending : Ending) (verbose : Bool) (lines : List String) :
  converse ending { verbose } lines = resume ending verbose (readEntry lines)
  := by
  rw [readEntry, ← append_converse, String.empty_append]

/-- What is printed for an entry does not depend on the lines after it, and neither does what is
printed for these on the entry, but for whether replies are verbose. -/
theorem converse_of_isEntry {run : List String} (h : IsEntry run) (ending : Ending)
    (verbose : Bool) (rest : List String) :
  converse ending { verbose } (run ++ rest) =
    chunk verbose run ++ converse ending { verbose := (respond verbose (entryText run)).2 } rest
  := by
  rw [converse_eq, (IsReading.run (.text h)).readEntry_eq]
  rfl

/-- A line that ends the session is followed by the farewell, whatever comes later. -/
theorem converse_of_isLeaving {word : String} (h : isLeaving word = true) (ending : Ending)
    (verbose : Bool) (later : List String) :
  converse ending { verbose } (word :: later) = prompts 1 ++ farewell
  := by
  rw [converse_eq, ← List.singleton_append, (IsReading.run (.leave h)).readEntry_eq]
  rfl

/-- An unfinished entry gets a prompt for each of its lines and one for the end of them, and no
reply. -/
theorem converse_of_isUnfinished {rest : List String} (h : IsUnfinished rest) (ending : Ending)
    (verbose : Bool) :
  converse ending { verbose } rest = prompts (rest.length + 1) ++ ending.printed
  := by
  rw [converse_eq, (IsReading.noMore h).readEntry_eq]
  rfl

/-- Entries one after the other print their chunks, before what the lines after them print. -/
theorem converse_flatten {runs : List (List String)} (h : ∀ run ∈ runs, IsEntry run)
    (ending : Ending) (verbose : Bool) (rest : List String) :
  converse ending { verbose } (runs.flatten ++ rest) =
    chunks verbose runs ++ converse ending { verbose := verboseAfter verbose runs } rest
  := by
  induction runs generalizing verbose with
  | nil => rw [chunks_nil, String.empty_append, verboseAfter_nil, List.flatten_nil, List.nil_append]
  | cons run runs ih =>
    obtain ⟨hrun, hruns⟩ := List.forall_mem_cons.mp h
    rw [List.flatten_cons, List.append_assoc, converse_of_isEntry hrun, ih hruns, chunks_cons,
      verboseAfter_cons, String.append_assoc]

/-- The lines of a session are the runs of its entries, and then a line that ends it and those
after that line, or the lines of an unfinished entry. -/
theorem exists_entries (lines : List String) :
  ∃ (runs : List (List String)) (rest : List String),
    (∀ run ∈ runs, IsEntry run) ∧ lines = runs.flatten ++ rest ∧
    ((∃ word later, rest = word :: later ∧ isLeaving word = true) ∨ IsUnfinished rest)
  := by
  induction hlength : lines.length using Nat.strong_induction_on generalizing lines with
  | _ n ih =>
    rcases isUnfinished_or_exists_run lines with hall | ⟨run, later, entry, rfl, hrun⟩
    · exact ⟨[], lines, by simp, rfl, .inr hall⟩
    · cases hrun with
      | @leave word hleaving => exact ⟨[], _, by simp, rfl, .inl ⟨word, later, rfl, hleaving⟩⟩
      | text hentry =>
        have hshorter : later.length < n := by
          have hpos := List.length_pos_of_ne_nil hentry.ne_nil
          rw [← hlength, List.length_append]
          omega
        obtain ⟨runs, rest, hruns, hlater, hrest⟩ := ih later.length hshorter later rfl
        refine ⟨run :: runs, rest, List.forall_mem_cons.mpr ⟨hentry, hruns⟩, ?_, hrest⟩
        rw [hlater, List.flatten_cons, List.append_assoc]

/-! ### Blank entries -/

/-- Lines of blank characters make an empty text. -/
theorem entryText_of_isBlank {lines : List String}
    (h : ∀ line ∈ lines, ∀ c ∈ line.toList, Text.isBlank c = true) :
  entryText lines = ""
  := by
  have hall : ∀ c ∈ (String.intercalate "\n" lines).toList, Text.isBlank c = true := by
    induction lines with
    | nil => simp
    | cons line lines ih =>
      obtain ⟨hline, hlines⟩ := List.forall_mem_cons.mp h
      cases lines with
      | nil => simpa using hline
      | cons line' lines =>
        have hnewline : ∀ c ∈ "\n".toList, Text.isBlank c = true :=
          List.forall_mem_singleton.mpr rfl
        rw [String.intercalate_cons_cons, String.toList_append, String.toList_append]
        simp only [List.forall_mem_append]
        exact ⟨⟨hline, hnewline⟩, ih hlines⟩
  rw [entryText, Text.strip, Text.trimBoth, List.dropWhile_eq_nil_iff.mpr hall]
  rfl

/-! ### Transcripts -/

/-- The transcript of a session whose entries are followed by a line that ends it. -/
theorem transcript_of_isLeaving {runs : List (List String)} (h : ∀ run ∈ runs, IsEntry run)
    {word : String} (hword : isLeaving word = true) (ending : Ending) (verbose : Bool)
    (later : List String) :
  transcript verbose (runs.flatten ++ word :: later) ending =
    banner ++ chunks verbose runs ++ prompts 1 ++ farewell
  := by
  rw [transcript, converse_flatten h, converse_of_isLeaving hword]
  simp only [String.append_assoc]

/-- The transcript of a session whose lines end within an entry, or after one. -/
theorem transcript_of_isUnfinished {runs : List (List String)} (h : ∀ run ∈ runs, IsEntry run)
    {rest : List String} (hrest : IsUnfinished rest) (ending : Ending) (verbose : Bool) :
  transcript verbose (runs.flatten ++ rest) ending =
    banner ++ chunks verbose runs ++ prompts (rest.length + 1) ++ "\n" ++ farewell
  := by
  rw [transcript, converse_flatten h, converse_of_isUnfinished hrest]
  cases ending <;> simp only [Ending.printed, String.append_assoc]

/-- What is printed before the chunk of an entry and what is printed after it do not depend on the
entry, if it does not turn verbose replies on or off. -/
theorem exists_transcript_append {before : List (List String)} (h : ∀ run ∈ before, IsEntry run)
    (ending : Ending) (verbose : Bool) (after : List String) :
  ∃ first last, ∀ run, IsEntry run → isToggle (entryText run) = false →
    transcript verbose (before.flatten ++ (run ++ after)) ending =
      first ++ chunk (verboseAfter verbose before) run ++ last
  := by
  refine ⟨banner ++ chunks verbose before,
    converse ending { verbose := verboseAfter verbose before } after, ?_⟩
  intro run hrun htoggle
  have hkept : (respond (verboseAfter verbose before) (entryText run)).2 =
      verboseAfter verbose before := by
    rw [respond_verbose, htoggle]
    rfl
  rw [transcript, converse_flatten h, converse_of_isEntry hrun, hkept]
  simp only [String.append_assoc]

/-- The lines of a session are the runs of its entries and what ends it.  It prints its banner, for
each entry the prompts and a response that depends on its text and on whether replies are verbose,
and a farewell.  If a line ends the session the lines after it are not read, and if there are no
more lines an unfinished entry has prompts, but no response.  An entry that does not turn verbose
replies on or off can be replaced by another one with a change of its own chunk only.  An entry with
diagnostics does not turn them on or off, and there is no response to a blank entry. -/
theorem transcript_entries :
  (∀ lines : List String, ∃ (runs : List (List String)) (rest : List String),
    (∀ run ∈ runs, IsEntry run) ∧ lines = runs.flatten ++ rest ∧
    ((∃ word later, rest = word :: later ∧ isLeaving word = true) ∨ IsUnfinished rest)) ∧
  (∀ (ending : Ending) (verbose : Bool) (runs : List (List String)), (∀ run ∈ runs, IsEntry run) →
    (∀ word later, isLeaving word = true →
      transcript verbose (runs.flatten ++ word :: later) ending =
        banner ++ chunks verbose runs ++ prompts 1 ++ farewell) ∧
    (∀ rest, IsUnfinished rest →
      transcript verbose (runs.flatten ++ rest) ending =
        banner ++ chunks verbose runs ++ prompts (rest.length + 1) ++ "\n" ++ farewell) ∧
    ∀ after, ∃ first last, ∀ run, IsEntry run → isToggle (entryText run) = false →
      transcript verbose (runs.flatten ++ (run ++ after)) ending =
        first ++ chunk (verboseAfter verbose runs) run ++ last) ∧
  (∀ (verbose : Bool) (text : String), (parse text).diagnostics ≠ [] →
    (respond verbose text).2 = verbose) ∧
  ∀ (verbose : Bool) (lines : List String),
    (∀ line ∈ lines, ∀ c ∈ line.toList, Text.isBlank c = true) →
    (respond verbose (entryText lines)).1 = ""
  := by
  refine ⟨exists_entries, ?_, ?_, ?_⟩
  · intro ending verbose runs hruns
    refine ⟨?_, ?_, ?_⟩
    · intro word later hword
      apply transcript_of_isLeaving hruns hword
    · intro rest hrest
      apply transcript_of_isUnfinished hruns hrest
    · intro after
      apply exists_transcript_append hruns
  · intro verbose text hdiagnostics
    apply respond_verbose_of_diagnostics hdiagnostics
  · intro verbose lines hblank
    rw [entryText_of_isBlank hblank]
    rfl

/-- An entry that is refused, one that turns verbose replies on, and one that has a line which says
`exit`. -/
def sampleRuns : List (List String) :=
  [["1 +"], ["Verbose-Mode"], ["function() \x7b", "exit \x7d"]]

/-- Sessions of these entries: one that is ended by a line, one that is interrupted within an entry,
and two that differ in one more entry. -/
theorem transcript_entries_sample :
  transcript false (sampleRuns.flatten ++ "quit" :: ["2"]) =
      banner ++ chunks false sampleRuns ++ ">>> " ++ farewell ∧
    transcript false (sampleRuns.flatten ++ ["\x7b 1"]) .interrupt =
      banner ++ chunks false sampleRuns ++ ">>> ... " ++ "\n" ++ farewell ∧
    (∃ first last,
      transcript false (sampleRuns.flatten ++ (["1 +"] ++ ["2"])) =
        first ++ chunk true ["1 +"] ++ last ∧
      transcript false (sampleRuns.flatten ++ (["a"] ++ ["2"])) =
        first ++ chunk true ["a"] ++ last) ∧
    (respond true "1 +").2 = true ∧ (respond true (entryText [" "])).1 = ""
  := by
  have hruns : ∀ run ∈ sampleRuns, IsEntry run := by decide +kernel
  obtain ⟨hleft, -, hreplaced⟩ := transcript_entries.2.1 .endOfInput false sampleRuns hruns
  obtain ⟨-, hunfinished, -⟩ := transcript_entries.2.1 .interrupt false sampleRuns hruns
  obtain ⟨first, last, hchunk⟩ := hreplaced ["2"]
  refine ⟨?_, ?_, ⟨first, last, ?_, ?_⟩, ?_, ?_⟩
  · apply hleft "quit" ["2"] (by decide +kernel)
  · apply hunfinished ["\x7b 1"] (by decide +kernel)
  · apply hchunk ["1 +"] (by decide +kernel) (by decide +kernel)
  · apply hchunk ["a"] (by decide +kernel) (by decide +kernel)
  · apply transcript_entries.2.2.1 true "1 +" (by decide +kernel)
  · apply transcript_entries.2.2.2 true [" "]
    exact List.forall_mem_singleton.mpr (List.forall_mem_singleton.mpr rfl)

end MonkeySyntax.Session
