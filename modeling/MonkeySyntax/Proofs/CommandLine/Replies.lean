import MonkeySyntax.CommandLine.Run
import MonkeySyntax.Proofs.Grammar.Acceptance
import MonkeySyntax.Proofs.Parser.Reports
import MonkeySyntax.Proofs.Source.Tokenization
import MonkeySyntax.Proofs.Tree.Rendered
import MonkeySyntax.Session.Reply

/-!
# Runs and replies

A run of a source and the reply of a session to it say the same.  If the source is accepted, both
print its canonical text, but that a session prints nothing for an empty one, which is that of a
source of nothing but layout.  If it is not accepted, both list the same messages line by line.

Every message is one line.  The only part of it that comes from the source is the text of an
integer token, and no token of a source has a newline in it.
-/

namespace MonkeySyntax

/-! ### Lines -/

namespace Text

/-- The part up to a separator, behind characters read before, and the parts after it. -/
theorem splitAfter_append {separator : Char} {cs : List Char} (hcs : separator ∉ cs)
    (read rest : List Char) :
  splitAfter separator read (cs ++ separator :: rest) =
    String.ofList (read.reverse ++ cs) :: splitAfter separator [] rest
  := by
  induction cs generalizing read with
  | nil => simp [splitAfter]
  | cons c cs ih =>
    rw [List.mem_cons, not_or] at hcs
    have hne : (c == separator) = false := beq_eq_false_iff_ne.mpr (Ne.symm hcs.1)
    rw [List.cons_append, splitAfter, hne, if_neg Bool.false_ne_true, ih hcs.2,
      List.reverse_cons, List.append_assoc, List.singleton_append]

/-- Lines that are written one after the other are read back. -/
theorem lines_join {ls : List String} (h : ∀ l ∈ ls, '\n' ∉ l.toList) :
  lines (String.join (ls.map (· ++ "\n"))) = ls
  := by
  have hsplit : split '\n' (String.join (ls.map (· ++ "\n"))) = ls ++ [""] := by
    induction ls with
    | nil => rfl
    | cons l ls ih =>
      obtain ⟨hl, hls⟩ := List.forall_mem_cons.mp h
      have hrest := ih hls
      rw [split] at hrest
      rw [List.map_cons, String.join_cons, split, String.toList_append, String.toList_append,
        List.append_assoc]
      have hfirst := splitAfter_append hl [] (String.join (ls.map (· ++ "\n"))).toList
      rw [hrest, List.reverse_nil, List.nil_append, String.ofList_toList] at hfirst
      apply hfirst
  rw [lines, hsplit]
  simp

end Text

/-! ### Messages -/

/-- No message has a newline in it, unless an integer token has one. -/
theorem Diagnostic.IsFounded.newline_not_mem {T : Token → Prop} {d : Diagnostic}
    (h : d.IsFounded T) (hT : ∀ t, T t → t.kind = .integer → '\n' ∉ t.text.toList) :
  '\n' ∉ d.message.toList
  := by
  have hdisplay (kind : Kind) : '\n' ∉ kind.display.toList := by
    cases kind <;> decide
  cases d with
  | unexpected wanted found => simp [hdisplay]
  | noOperand found => simp [hdisplay]
  | badInteger text =>
    obtain ⟨t, ht, hkind, rfl, -⟩ := h
    have htext := hT t ht hkind
    simp [htext]
  | tooDeep => decide

/-- No message about a source has a newline in it. -/
theorem newline_not_mem_messages (source : String) :
  ∀ m ∈ (parse source).messages, '\n' ∉ m.toList
  := by
  intro m hm
  obtain ⟨d, hd, rfl⟩ := List.mem_map.mp hm
  apply (isFounded_diagnostics _ d hd).newline_not_mem
  intro t ht hkind
  have hlexeme : t.IsLexeme := isLexeme_of_mem_tokens ht
  have hspells := (Token.isLexeme_iff (by simp [hkind])).mp hlexeme
  intro hnewline
  have hlayout := hspells.isLayout '\n' hnewline
  cases hlayout

/-! ### Empty programs -/

/-- The statements of a source have a text. -/
theorem Stmt.IsSourceShaped.render_ne {s : Stmt} (h : s.IsSourceShaped) :
  s.render ≠ ""
  := by
  match s, h with
  | .binding _ _ _, _ => simp [Stmt.render]
  | .returning _ none, _ => simp [Stmt.render]
  | .returning _ (some _), _ => simp [Stmt.render]
  | .expression _ value, ⟨_, hvalue⟩ =>
    obtain ⟨c, cs, htext, -⟩ := value.exists_first_render hvalue
    intro hempty
    have hrender : value.render = "" := hempty
    rw [hrender] at htext
    cases htext

/-- The only program of a source without a text is the one without statements. -/
theorem Program.IsSourceShaped.render_eq_empty_iff {p : Program} (h : p.IsSourceShaped) :
  p.render = "" ↔ p.statements = []
  := by
  rw [IsSourceShaped] at h
  rw [render]
  rcases hp : p.statements with _ | ⟨s, ss⟩
  · simp [Stmt.renderEach]
  · rw [hp] at h
    obtain ⟨hs, -⟩ := h
    have hrender := hs.render_ne
    rw [Stmt.renderEach, String.join_cons]
    split
    · simp
    · simp [hrender]

/-- A source that is accepted has no statements if it is nothing but layout. -/
theorem statements_parse_eq_nil_iff {source : String} (h : (parse source).diagnostics = []) :
  (parse source).program.statements = [] ↔ ∀ c ∈ source.toList, isLayout c = true
  := by
  have hparse : parseStream (.ofSource source) = ⟨(parse source).program, []⟩ := by
    rw [← h]
    rfl
  obtain ⟨n, -, hprogram⟩ :=
    (Grammar.parseStream_eq_iff_of_isSettled (TokenStream.isSettled_ofSource source) _).mp hparse
  obtain ⟨position, hproper⟩ := TokenStream.exists_tokens_ofSource source
  obtain ⟨ts, hts⟩ := exists_munches 0 source.toList
  have htokenize : (TokenStream.ofSource source).tokens = ts ++ [.endAt source.length] :=
    hts.tokenize_eq
  rw [hproper] at htokenize
  rw [List.append_inj_left' htokenize rfl, Grammar.IsProgram] at hprogram
  rw [← hts.eq_nil_iff]
  constructor
  · intro hnil
    rw [hnil] at hprogram
    cases hprogram
    rfl
  · rintro rfl
    rcases hss : (parse source).program.statements with _ | ⟨s, ss⟩
    · rfl
    · rw [hss] at hprogram
      cases hprogram with
      | cons hs _ => cases hs.firstKind_startsStmt

/-! ### Runs beside replies -/

/-- What a reply starts with: if it is verbose, a line with the kinds and the texts of all
tokens. -/
def Reply.opening (verbose : Bool) (source : String) : String :=
  if verbose then
    "[tokens] >>> [" ++
      String.intercalate ", "
        ((tokenize source).map (fun t => "Token(" ++ t.kind.name ++ ", " ++ t.text ++ ")")) ++
      "]\n"
  else ""

/-- The reply to a source is its opening and the lines for the outcome of the parse. -/
theorem printed_reply (verbose : Bool) (source : String) :
  (reply verbose source).printed =
    Reply.opening verbose source ++ Reply.outcomeLines (parse source)
  := rfl

/-- Texts with a mark before each of them are lines, if they are so without the mark. -/
theorem lines_marked {mark : String} (hmark : '\n' ∉ mark.toList) {messages : List String}
    (h : ∀ m ∈ messages, '\n' ∉ m.toList) :
  Text.lines (String.join (messages.map (fun m => mark ++ m ++ "\n"))) =
    messages.map (fun m => mark ++ m)
  := by
  have hlines : ∀ l ∈ messages.map (fun m => mark ++ m), '\n' ∉ l.toList := by
    intro l hl
    obtain ⟨m, hm, rfl⟩ := List.mem_map.mp hl
    simp [hmark, h m hm]
  rw [← Text.lines_join hlines, List.map_map]
  rfl

/-- A source is accepted when there is nothing to say about it. -/
theorem accepted_reply (verbose : Bool) (source : String) :
  (reply verbose source).accepted = true ↔ (parse source).diagnostics = []
  := List.isEmpty_iff

/-- What is printed for an accepted source is its program. -/
theorem Output.ofParsed_of_accepted {r : Parsed} (h : r.diagnostics = []) (json : Bool) :
  ofParsed json r = ofProgram json r.program
  := by
  rw [ofParsed, h]
  rfl

/-- What is printed for a refused source are its messages. -/
theorem Output.ofParsed_of_refused {r : Parsed} (h : r.diagnostics ≠ []) (json : Bool) :
  ofParsed json r = ofMessages r.messages
  := if_neg (mt List.isEmpty_iff.mp h)

/-- The reply to a source that is accepted has its canonical text, if that is not empty. -/
theorem printed_reply_of_accepted {source : String} (h : (parse source).diagnostics = [])
    (verbose : Bool) :
  (reply verbose source).printed = Reply.opening verbose source ++
    (if (parse source).program.statements = [] then ""
      else (parse source).program.render ++ "\n")
  := by
  have hshaped : (parse source).program.IsSourceShaped := Parser.isSourceShaped_program source
  have hline : Reply.outcomeLines (parse source) =
      Reply.canonicalLine (parse source).program.render := by
    rw [Reply.outcomeLines, h]
    rfl
  rw [printed_reply, hline, Reply.canonicalLine]
  simp only [String.isEmpty_iff, hshaped.render_eq_empty_iff]

/-- The reply to a source that is not accepted lists the messages. -/
theorem printed_reply_of_refused {source : String} (h : (parse source).diagnostics ≠ [])
    (verbose : Bool) :
  (reply verbose source).printed = Reply.opening verbose source ++ ("[error] >>>\n" ++
    String.join ((parse source).messages.map (fun m => "\t" ++ m ++ "\n")))
  := by
  have hlines : Reply.outcomeLines (parse source) =
      Reply.diagnosticLines (parse source).messages := if_neg (mt List.isEmpty_iff.mp h)
  rw [printed_reply, hlines, Reply.diagnosticLines]

/-- A run of a source and the reply to it accept the same sources.  If the source is accepted, both
print its canonical text, but that a session prints none for a program without statements, which
is that of a source of nothing but layout, and the only one with an empty text.  If it is not
accepted, both print the same messages, each on a line of its own. -/
theorem run_reply (w : Workspace) (verbose : Bool) (source : String) :
  ∃ canonical json : Output,
    run w (.literal source) .canonical = .ok canonical ∧
    run w (.literal source) .json = .ok json ∧
    ((reply verbose source).accepted = true ↔ canonical.status = 0) ∧
    ((reply verbose source).accepted = true ↔ json.status = 0) ∧
    ((reply verbose source).accepted = true →
      canonical.err = "" ∧ json.err = "" ∧
      canonical.out = (parse source).program.render ++ "\n" ∧
      (reply verbose source).printed = Reply.opening verbose source ++
        (if (parse source).program.statements = [] then ""
          else (parse source).program.render ++ "\n") ∧
      ((parse source).program.statements = [] ↔ ∀ c ∈ source.toList, isLayout c = true) ∧
      ((parse source).program.statements = [] ↔ (parse source).program.render = "")) ∧
    ((reply verbose source).accepted = false →
      canonical.status = 1 ∧ canonical.out = "" ∧ json = canonical ∧
      (parse source).messages ≠ [] ∧
      (parse source).messages.length = (parse source).diagnostics.length ∧
      (∀ m ∈ (parse source).messages, '\n' ∉ m.toList) ∧
      canonical.err =
        String.join ((parse source).messages.map (fun m => "error: " ++ m ++ "\n")) ∧
      Text.lines canonical.err = (parse source).messages.map (fun m => "error: " ++ m) ∧
      ∃ listing,
        (reply verbose source).printed =
          Reply.opening verbose source ++ ("[error] >>>\n" ++ listing) ∧
        listing = String.join ((parse source).messages.map (fun m => "\t" ++ m ++ "\n")) ∧
        Text.lines listing = (parse source).messages.map (fun m => "\t" ++ m))
  := by
  refine ⟨.ofParsed false (parse source), .ofParsed true (parse source), rfl, rfl, ?_⟩
  rw [Bool.eq_false_iff, ne_eq, accepted_reply]
  by_cases hd : (parse source).diagnostics = []
  · have hshaped : (parse source).program.IsSourceShaped := Parser.isSourceShaped_program source
    rw [Output.ofParsed_of_accepted hd, Output.ofParsed_of_accepted hd]
    refine ⟨iff_of_true hd rfl, iff_of_true hd rfl, fun _ => ?_, fun hno => absurd hd hno⟩
    exact ⟨rfl, rfl, rfl, printed_reply_of_accepted hd verbose, statements_parse_eq_nil_iff hd,
      hshaped.render_eq_empty_iff.symm⟩
  · have hlines := newline_not_mem_messages source
    rw [Output.ofParsed_of_refused hd, Output.ofParsed_of_refused hd]
    refine ⟨iff_of_false hd Nat.one_ne_zero, iff_of_false hd Nat.one_ne_zero,
      fun hyes => absurd hyes hd, fun _ => ?_⟩
    refine ⟨rfl, rfl, rfl, ?_, List.length_map _, hlines, rfl, lines_marked (by decide) hlines,
      _, printed_reply_of_refused hd verbose, rfl, lines_marked (by decide) hlines⟩
    rwa [Parsed.messages, ne_eq, List.map_eq_nil_iff]

/-- For a source of one blank a run prints an empty line and a session nothing, and both name what
is missing from a binding without its equals sign. -/
theorem run_reply_blank_and_binding :
  (∃ canonical, run {} (.literal " ") .canonical = .ok canonical ∧ canonical.status = 0 ∧
    canonical.out = "\n" ∧ (reply false " ").printed = "") ∧
  ∃ canonical, run {} (.literal "let x 5;") .canonical = .ok canonical ∧ canonical.status = 1 ∧
    Text.lines canonical.err = ["error: expected next token to be =, got INT instead"] ∧
    (reply false "let x 5;").printed =
      "[error] >>>\n\texpected next token to be =, got INT instead\n"
  := by
  constructor
  · obtain ⟨canonical, _, hrun, -, hstatus, -, haccepted, -⟩ := run_reply {} false " "
    have hyes : (reply false " ").accepted = true := by decide +kernel
    obtain ⟨-, -, hout, hprinted, hstatements, -⟩ := haccepted hyes
    have hnil : (parse " ").program.statements = [] := hstatements.mpr (by simp [isLayout])
    refine ⟨canonical, hrun, hstatus.mp hyes, ?_, ?_⟩
    · rw [hout]
      decide +kernel
    · rw [hprinted, if_pos hnil]
      rfl
  · obtain ⟨canonical, _, hrun, -, -, -, -, hrefused⟩ := run_reply {} false "let x 5;"
    have hno : (reply false "let x 5;").accepted = false := by decide +kernel
    obtain ⟨hstatus, -, -, -, -, -, -, herr, listing, hprinted, hlisting, -⟩ := hrefused hno
    refine ⟨canonical, hrun, hstatus, ?_, ?_⟩
    · rw [herr]
      decide +kernel
    · rw [hprinted, hlisting]
      decide +kernel

end MonkeySyntax
