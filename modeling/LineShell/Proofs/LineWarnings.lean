import LineShell.Proofs.LineReading
import LineShell.Proofs.SubstitutionMeaning

/-!
# What reading a line warns about

`LineRead` says for each kind of line what it is read to and which warnings reading adds.
`read_line_law` shows that reading does exactly this: a line whose references cannot be replaced
adds nothing, any other adds its unknown names, and a pipeline then adds the directories that were
skipped for its segments, up to and including the first that cannot be read. That segment alone
decides the error, so what stands to the right of it makes no difference.
-/

namespace LineShell

/-! ## Segments that cannot be read -/

/-- The name of the command in a segment, if its redirections can be read and it has a command. -/
def commandName? (segment : Text) : Option Text :=
  match splitRedirects segment with
  | .ok (command, _) => (Text.words command).head?
  | .error _ => none

/-- The directories that are skipped in the look-up of a segment's command. -/
def skippedFor (listing : Listing) (path : Option Text) (segment : Text) : List SkippedEntry :=
  match commandName? segment with
  | none => []
  | some name =>
    match resolve listing name path with
    | .ok found => found.skipped
    | .error cause => cause.skipped

/-- Why the segment with the given number cannot be read. -/
inductive SegmentFails (listing : Listing) (path : Option Text) (number : Nat) (segment : Text) :
    ParseError → Prop where
  | redirect {cause : RedirectError} : splitRedirects segment = .error cause →
      SegmentFails listing path number segment (.redirect cause)
  | emptyCommand {command : Text} {redirects : Redirects} :
      splitRedirects segment = .ok (command, redirects) → Text.words command = [] →
      SegmentFails listing path number segment (.emptyCommand number)
  | resolve {command name : Text} {redirects : Redirects} {arguments : List Text}
      {cause : ResolveError} : splitRedirects segment = .ok (command, redirects) →
      Text.words command = name :: arguments → resolve listing name path = .error cause →
      SegmentFails listing path number segment (.resolve cause)

/-- The segment is the first that cannot be read, and comes after `earlier`. -/
structure FirstFailing (listing : Listing) (path : Option Text) (segments earlier : List Text)
    (segment : Text) (e : ParseError) : Prop where
  split : ∃ later, segments = earlier ++ segment :: later
  read : ∀ other ∈ earlier, ∃ stage : Stage, stage.ReadFrom listing path other
  fails : SegmentFails listing path (earlier.length + 1) segment e

variable {listing : Listing} {path : Option Text} {number : Nat} {segment : Text} {e : ParseError}
  {segments earlier : List Text}

/-- The name of a segment's command is its first word. -/
theorem command_name?_eq {command : Text} {redirects : Redirects}
    (h : splitRedirects segment = .ok (command, redirects)) :
    commandName? segment = (Text.words command).head? := by
  rw [commandName?, h]

/-- The directories that are skipped for a segment are those that looking its name up skips, found
or not. -/
theorem skipped_for_eq {command name : Text} {redirects : Redirects} {arguments : List Text}
    (h : splitRedirects segment = .ok (command, redirects))
    (hwords : Text.words command = name :: arguments) : skippedFor listing path segment =
      match resolve listing name path with
      | .ok found => found.skipped
      | .error cause => cause.skipped := by
  rw [skippedFor, command_name?_eq h, hwords]
  rfl

/-- A segment that fails does so with a warning for each directory that was skipped. -/
theorem SegmentFails.parse_stage_eq (h : SegmentFails listing path number segment e) :
    parseStage listing path number segment =
      ((skippedFor listing path segment).map .skippedEntry, .error e) := by
  cases h with
  | redirect hsplit =>
      have hne : ¬ segment.isEmpty = true := by
        intro hempty
        rw [List.isEmpty_iff.mp hempty] at hsplit
        cases hsplit
      rw [parseStage, if_neg hne, skippedFor, commandName?, hsplit]
      rfl
  | emptyCommand hsplit hwords =>
      rw [parse_stage_eq_of_split hsplit, skippedFor, command_name?_eq hsplit, hwords]
      rfl
  | resolve hsplit hwords hcause =>
      rw [parse_stage_eq_of_split hsplit, skipped_for_eq hsplit hwords, hwords]
      simp only [hcause]

/-- So does a segment that is read. -/
theorem Stage.ReadFrom.parse_stage_eq_skipped {stage : Stage}
    (h : stage.ReadFrom listing path segment) (number : Nat) :
    parseStage listing path number segment =
      ((skippedFor listing path segment).map .skippedEntry, .ok stage) := by
  refine Prod.ext ?_ (h.parse_stage_eq number)
  obtain ⟨⟨command, hsplit, hwords⟩, hne, found, hfound, _⟩ := h
  obtain ⟨program, argv, redirects⟩ := stage
  obtain ⟨name, arguments, rfl⟩ := List.exists_cons_of_ne_nil hne
  have hname : resolve listing name path = .ok found := hfound
  rw [parse_stage_eq_of_split hsplit, skipped_for_eq hsplit hwords, hwords]
  simp only [hname]

/-- Either a stage is read from a segment, or the segment fails. -/
theorem read_or_segment_fails (listing : Listing) (path : Option Text) (number : Nat)
    (segment : Text) : (∃ stage : Stage, stage.ReadFrom listing path segment) ∨
      ∃ e, SegmentFails listing path number segment e := by
  cases hsplit : splitRedirects segment with
  | error cause => exact .inr ⟨_, .redirect hsplit⟩
  | ok split =>
      obtain ⟨command, redirects⟩ := split
      cases hwords : Text.words command with
      | nil => exact .inr ⟨_, .emptyCommand hsplit hwords⟩
      | cons name arguments =>
          cases hresolve : resolve listing name path with
          | error cause => exact .inr ⟨_, .resolve hsplit hwords hresolve⟩
          | ok found =>
              exact .inl ⟨⟨found.program, name :: arguments, redirects⟩,
                ⟨command, hsplit, hwords⟩, List.cons_ne_nil _ _, found, hresolve, rfl⟩

/-- Only a name that no directory has is looked up in vain in directories that are skipped. -/
theorem SegmentFails.skipped_for_eq_nil (h : SegmentFails listing path number segment e)
    (hfound : ∀ name skipped, e ≠ .resolve (.notFound name skipped)) :
    skippedFor listing path segment = [] := by
  cases h with
  | redirect hsplit => rw [skippedFor, commandName?, hsplit]
  | emptyCommand hsplit hwords =>
      rw [skippedFor, command_name?_eq hsplit, hwords]
      rfl
  | @resolve command name redirects arguments cause hsplit hwords hcause =>
      rw [skipped_for_eq hsplit hwords, hcause]
      cases cause with
      | notFound name skipped => exact absurd rfl (hfound name skipped)
      | pathUnset name => rfl

/-! ## Rows of segments -/

/-- Segments that are read leave their stages and their warnings behind. -/
theorem parse_stages_append {stages : List Stage}
    (h : List.Forall₂ (Stage.ReadFrom listing path) earlier stages) (number : Nat)
    (later : List Text) : parseStages listing path number (earlier ++ later) =
      ((earlier.flatMap (skippedFor listing path)).map .skippedEntry ++
          (parseStages listing path (number + earlier.length) later).1,
        (parseStages listing path (number + earlier.length) later).2.map (stages ++ ·)) := by
  induction h generalizing number with
  | nil =>
      show parseStages listing path number later = ([] ++ _, _)
      obtain ⟨warnings, result | result⟩ := parseStages listing path number later
      · rfl
      · rfl
  | @cons segment stage earlier stages hsegment _ ih =>
      rw [List.cons_append, parseStages, hsegment.parse_stage_eq_skipped, ih, List.length_cons,
        Nat.add_assoc, Nat.add_comm 1]
      obtain ⟨warnings, result | result⟩ :=
        parseStages listing path (number + (earlier.length + 1)) later
      · simp [Except.map]
      · simp [Except.map]

/-- Segments that are all read give their warnings one after the other. -/
theorem parse_stages_of_read {stages : List Stage}
    (h : List.Forall₂ (Stage.ReadFrom listing path) segments stages) :
    parseStages listing path 1 segments =
      ((segments.flatMap (skippedFor listing path)).map .skippedEntry, .ok stages) := by
  have hstages := parse_stages_append h 1 []
  rw [List.append_nil] at hstages
  rw [hstages, parseStages]
  simp [Except.map]

/-- The first segment that fails is the last that is looked at. -/
theorem FirstFailing.parse_stages_eq (h : FirstFailing listing path segments earlier segment e) :
    parseStages listing path 1 segments =
      (((earlier ++ [segment]).flatMap (skippedFor listing path)).map .skippedEntry, .error e) := by
  obtain ⟨later, rfl⟩ := h.split
  obtain ⟨stages, hstages⟩ := exists_forall₂_of_forall_exists h.read
  rw [parse_stages_append hstages, parseStages, Nat.add_comm 1, h.fails.parse_stage_eq]
  simp [Except.map]

/-- Either all segments are read, or there is a first one that fails. -/
theorem read_or_first_failing (listing : Listing) (path : Option Text) (segments : List Text) :
    (∃ stages, List.Forall₂ (Stage.ReadFrom listing path) segments stages) ∨
      ∃ earlier segment e, FirstFailing listing path segments earlier segment e := by
  -- The first of the segments that are not read is the one that fails.
  rcases forall_not_or_exists_first
      (fun segment => ¬ ∃ stage : Stage, stage.ReadFrom listing path segment) segments with
    hall | ⟨earlier, segment, later, heq, hread, hfails⟩
  · exact .inl (exists_forall₂_of_forall_exists fun segment hmem => not_not.mp (hall segment hmem))
  · obtain ⟨e, he⟩ := (read_or_segment_fails listing path (earlier.length + 1) segment).resolve_left
      hfails
    exact .inr ⟨earlier, segment, e, ⟨later, heq⟩, fun other hmem => not_not.mp (hread other hmem),
      he⟩

/-- Which segment fails first does not depend on those behind it. -/
theorem FirstFailing.of_take_eq (h : FirstFailing listing path segments earlier segment e)
    {segments' : List Text}
    (htake : segments'.take (earlier.length + 1) = segments.take (earlier.length + 1)) :
    FirstFailing listing path segments' earlier segment e := by
  obtain ⟨later, rfl⟩ := h.split
  -- The first segments are all that the other list has in common with this one.
  have hfirst : (earlier ++ segment :: later).take (earlier.length + 1) = earlier ++ [segment] := by
    simp [List.take_append]
  refine ⟨⟨segments'.drop (earlier.length + 1), ?_⟩, h.read, h.fails⟩
  rw [← List.singleton_append, ← List.append_assoc, ← hfirst, ← htake, List.take_append_drop]

/-! ## Comments in a row of segments -/

/-- The parts of a line up to its comment, which takes further parts along. A comment can begin at
the start of the first part if `afterSpace` says so, and after a `|` it cannot. -/
def dropCommentParts (afterSpace : Bool) : List Text → List Text
  | [] => []
  | part :: parts =>
    if dropComment afterSpace part = part then part :: dropCommentParts false parts
    else [dropComment afterSpace part]

/-- A comment can be dropped before the line is split or after, the parts behind it then going too.
-/
theorem drop_comment_split_on (afterSpace : Bool) (line : Text) :
    (dropComment afterSpace line).splitOn '|' = dropCommentParts afterSpace (line.splitOn '|') := by
  induction line generalizing afterSpace with
  | nil => rfl
  | cons c line ih =>
      rw [dropComment, List.splitOn_cons_eq_if_modifyHead]
      by_cases hcomment : (afterSpace && c == '#') = true
      · obtain rfl : c = '#' := by simp_all
        obtain ⟨part, parts, heq, _⟩ := Text.exists_split_on_eq '|' line
        rw [if_pos hcomment, if_neg (by decide), heq, List.modifyHead_cons, dropCommentParts,
          dropComment, if_pos hcomment, if_neg (by simp)]
        rfl
      · rw [if_neg hcomment, List.splitOn_cons_eq_if_modifyHead, ih]
        by_cases hbar : c = '|'
        · subst hbar
          rfl
        · obtain ⟨part, parts, heq, _⟩ := Text.exists_split_on_eq '|' line
          have hc : ¬ (c == '|') = true := by simpa using hbar
          rw [if_neg hc, if_neg hc, heq, List.modifyHead_cons, dropCommentParts, dropCommentParts,
            dropComment, if_neg hcomment]
          by_cases hpart : dropComment (c == ' ') part = part
          · simp [hpart]
          · simp [hpart]

/-- What is dropped from the first parts depends on no others. -/
theorem take_drop_comment_parts (afterSpace : Bool) (parts : List Text) (n : Nat) :
    (dropCommentParts afterSpace parts).take n = dropCommentParts afterSpace (parts.take n) := by
  induction n generalizing afterSpace parts with
  | zero => rfl
  | succ n ih =>
      cases parts with
      | nil => rfl
      | cons part parts =>
          rw [List.take_succ_cons, dropCommentParts, dropCommentParts]
          split
          · rw [List.take_succ_cons, ih]
          · simp

/-- The first segments of a line depend on its first parts only. -/
theorem take_split_pipeline_strip_comment {line line' : Text} {n : Nat}
    (h : (line.splitOn '|').take n = (line'.splitOn '|').take n) :
    (splitPipeline (stripComment line)).take n = (splitPipeline (stripComment line')).take n := by
  rw [splitPipeline, splitPipeline, ← List.map_take, ← List.map_take, stripComment, stripComment,
    drop_comment_split_on, drop_comment_split_on, take_drop_comment_parts, take_drop_comment_parts, h]

/-- Spaces at the start of a line do not change where its comment begins. -/
theorem drop_comment_blank_append {gap : Text} (h : Text.Blank gap) (line : Text) :
    dropComment true (gap ++ line) = gap ++ dropComment true line := by
  induction gap with
  | nil => rfl
  | cons c gap ih =>
      obtain ⟨rfl, hgap⟩ := Text.blank_cons_iff.mp h
      rw [List.cons_append, List.cons_append, ← ih hgap]
      rfl

/-- Spaces at the end of a line are kept, or go with its comment. -/
theorem exists_drop_comment_append_blank (afterSpace : Bool) (line : Text) {gap : Text}
    (h : Text.Blank gap) : ∃ gap', Text.Blank gap' ∧
      dropComment afterSpace (line ++ gap) = dropComment afterSpace line ++ gap' := by
  induction line generalizing afterSpace with
  | nil => exact ⟨gap, h, drop_comment_eq_self (fun _ => (CommentFree.blank h).head)
      (CommentFree.blank h).inner⟩
  | cons c line ih =>
      rw [List.cons_append, dropComment, dropComment]
      split
      · exact ⟨[], Text.blank_nil, rfl⟩
      · obtain ⟨gap', hgap', heq⟩ := ih (c == ' ')
        exact ⟨gap', hgap', by rw [heq, List.cons_append]⟩

/-- Spaces around a line with a comment make no difference to its segments. -/
theorem split_pipeline_strip_comment_trim (line : Text) :
    splitPipeline (stripComment (Text.trim line)) = splitPipeline (stripComment line) := by
  obtain ⟨before, after, hbefore, hafter, heq⟩ := Text.exists_blank_trim line
  generalize Text.trim line = core at heq ⊢
  obtain ⟨gap, hgap, hcore⟩ := exists_drop_comment_append_blank true core hafter
  rw [heq, List.append_assoc, stripComment, stripComment, drop_comment_blank_append hbefore, hcore,
    split_pipeline_blank_append hbefore, split_pipeline_append_blank _ hgap]

/-! ## Lines -/

/-- A line with something in it besides a comment expands. -/
structure Expands (store : Store) (line : Text) (expansion : Expansion) : Prop where
  line_ne : Text.trim line ≠ []
  not_comment : (Text.trim line).head? ≠ some '#'
  means : Expansion.Means store (Text.trim line) (.ok expansion)

/-- A line is a pipeline of segments, by way of its expansion. -/
structure Segmented (store : Store) (line : Text) (expansion : Expansion) (segments : List Text) :
    Prop where
  expands : Expands store line expansion
  no_assignment : '=' ∉ Text.trim expansion.line
  body_ne : Text.trim (stripComment (Text.trim expansion.line)) ≠ []
  segments_eq : segments = splitPipeline (Text.trim (stripComment (Text.trim expansion.line)))

/-- The warnings about a line: one for each reference without a value, then one for each directory
that was skipped. -/
def warningsAbout (expansion : Expansion) (skipped : List SkippedEntry) : List Warning :=
  expansion.unresolved.map .unknownVariable ++ skipped.map .skippedEntry

/-- What a line is read to, and the warnings that reading it gives rise to. -/
inductive LineRead (listing : Listing) (store : Store) (line : Text) :
    List Warning → Except ParseError ParsedLine → Prop where
  | blank : Text.trim line = [] ∨ (Text.trim line).head? = some '#' →
      LineRead listing store line [] (.ok .empty)
  | unterminated {cause : UnterminatedBrace} :
      Text.trim line ≠ [] → (Text.trim line).head? ≠ some '#' →
      Expansion.Means store (Text.trim line) (.error cause) →
      LineRead listing store line [] (.error (.unterminatedBrace cause))
  | assignment {expansion : Expansion} :
      Expands store line expansion → '=' ∈ Text.trim expansion.line →
      LineRead listing store line (warningsAbout expansion [])
        (parseAssignment (Text.trim expansion.line))
  | comment {expansion : Expansion} :
      Expands store line expansion → '=' ∉ Text.trim expansion.line →
      Text.trim (stripComment (Text.trim expansion.line)) = [] →
      LineRead listing store line (warningsAbout expansion []) (.ok .empty)
  | pipeline {expansion : Expansion} {segments : List Text} {stages : List Stage} :
      Segmented store line expansion segments →
      List.Forall₂ (Stage.ReadFrom listing store.path?) segments stages →
      LineRead listing store line
        (warningsAbout expansion (segments.flatMap (skippedFor listing store.path?)))
        (.ok (.pipeline ⟨stages⟩))
  | failing {expansion : Expansion} {segments earlier : List Text} {segment : Text}
      {e : ParseError} : Segmented store line expansion segments →
      FirstFailing listing store.path? segments earlier segment e →
      LineRead listing store line
        (warningsAbout expansion ((earlier ++ [segment]).flatMap (skippedFor listing store.path?)))
        (.error e)

variable {store : Store} {line : Text} {expansion : Expansion} {added : List Warning}
  {parsed : Except ParseError ParsedLine}

/-- A line with something in it expands to what substitution gives. -/
theorem expands_of_substitute (hne : Text.trim line ≠ [])
    (hcomment : (Text.trim line).head? ≠ some '#')
    (h : substitute store (Text.trim line) = .ok expansion) : Expands store line expansion :=
  ⟨hne, hcomment, h ▸ Expansion.means_substitute store (Text.trim line)⟩

/-- A line that expands is read by its expansion, behind a warning for every unknown variable. -/
theorem Expands.parse_line_eq (h : Expands store line expansion) (listing : Listing) :
    parseLine listing store line =
      (expansion.unresolved.map .unknownVariable ++
          (parseExpanded listing store.path? (Text.trim expansion.line)).1,
        (parseExpanded listing store.path? (Text.trim expansion.line)).2) := by
  rw [parse_line_eq_of_substitute h.line_ne h.not_comment, h.means.substitute_eq]

/-- A line that is a pipeline is read by its segments, behind a warning for every unknown variable.
-/
theorem Segmented.parse_line_eq (h : Segmented store line expansion segments) (listing : Listing) :
    parseLine listing store line =
      (expansion.unresolved.map .unknownVariable ++
          (parseStages listing store.path? 1 segments).1,
        (parseStages listing store.path? 1 segments).2.map fun stages => .pipeline ⟨stages⟩) := by
  rw [h.expands.parse_line_eq, parse_expanded_of_no_equals h.no_assignment, if_neg h.body_ne,
    ← h.segments_eq]

/-- What is said of a line is what reading it does. -/
theorem LineRead.parse_line_eq (h : LineRead listing store line added parsed) :
    parseLine listing store line = (added, parsed) := by
  cases h with
  | blank hblank => exact parse_line_blank hblank
  | unterminated hne hcomment hmeans =>
      rw [parse_line_eq_of_substitute hne hcomment, hmeans.substitute_eq]
  | assignment hexpands hequals =>
      rw [hexpands.parse_line_eq, parse_expanded_of_equals hequals]
      rfl
  | comment hexpands hequals hnil =>
      rw [hexpands.parse_line_eq, parse_expanded_of_no_equals hequals, if_pos hnil]
      rfl
  | pipeline hsegmented hstages =>
      rw [hsegmented.parse_line_eq, parse_stages_of_read hstages]
      rfl
  | failing hsegmented hfailing =>
      rw [hsegmented.parse_line_eq, hfailing.parse_stages_eq]
      rfl

/-- There is something to be said of every line. -/
theorem exists_line_read (listing : Listing) (store : Store) (line : Text) :
    ∃ added parsed, LineRead listing store line added parsed := by
  by_cases hblank : Text.trim line = [] ∨ (Text.trim line).head? = some '#'
  · exact ⟨_, _, .blank hblank⟩
  · obtain ⟨hne, hcomment⟩ := not_or.mp hblank
    cases hsubstitute : substitute store (Text.trim line) with
    | error cause =>
        have hmeans := Expansion.means_substitute store (Text.trim line)
        rw [hsubstitute] at hmeans
        exact ⟨_, _, .unterminated hne hcomment hmeans⟩
    | ok expansion =>
        have hexpands := expands_of_substitute hne hcomment hsubstitute
        by_cases hequals : '=' ∈ Text.trim expansion.line
        · exact ⟨_, _, .assignment hexpands hequals⟩
        · by_cases hnil : Text.trim (stripComment (Text.trim expansion.line)) = []
          · exact ⟨_, _, .comment hexpands hequals hnil⟩
          · have hsegmented : Segmented store line expansion _ := ⟨hexpands, hequals, hnil, rfl⟩
            rcases read_or_first_failing listing store.path? _ with
              ⟨stages, hstages⟩ | ⟨earlier, segment, e, hfailing⟩
            · exact ⟨_, _, .pipeline hsegmented hstages⟩
            · exact ⟨_, _, .failing hsegmented hfailing⟩

/-- How a line is read is what the parser gives: the cases of the relation are all there are, and no
two apply. -/
theorem line_read_iff : LineRead listing store line added parsed ↔
    parseLine listing store line = (added, parsed) := by
  refine ⟨LineRead.parse_line_eq, fun h => ?_⟩
  obtain ⟨added', parsed', hread⟩ := exists_line_read listing store line
  cases h.symm.trans hread.parse_line_eq
  exact hread

/-! ## Replacing what stands to the right -/

/-- A line without references is cut as it stands. -/
theorem Segmented.eq_of_no_reference (h : Segmented store line expansion segments)
    (hdollar : '$' ∉ line) : expansion.unresolved = [] ∧
      segments = splitPipeline (stripComment line) := by
  have htrim : '$' ∉ Text.trim line := fun hmem => hdollar ((Text.infix_trim line).subset hmem)
  have hsubstitute := h.expands.means.substitute_eq
  rw [substitute_eq_self htrim] at hsubstitute
  obtain rfl := Except.ok.inj hsubstitute
  refine ⟨rfl, ?_⟩
  rw [h.segments_eq, split_pipeline_trim, (Text.trimmed_trim line).trim_eq,
    split_pipeline_strip_comment_trim]

/-- Lines that agree up to the first segment that fails are read alike. -/
theorem FirstFailing.parse_line_eq {line' : Text} {expansion' : Expansion} {segments' : List Text}
    (h : FirstFailing listing store.path? segments earlier segment e)
    (hline : Segmented store line expansion segments)
    (hline' : Segmented store line' expansion' segments')
    (hdollar : '$' ∉ line) (hdollar' : '$' ∉ line')
    (htake : (line'.splitOn '|').take (earlier.length + 1) =
      (line.splitOn '|').take (earlier.length + 1)) :
    parseLine listing store line' = parseLine listing store line := by
  obtain ⟨hunresolved, rfl⟩ := hline.eq_of_no_reference hdollar
  obtain ⟨hunresolved', rfl⟩ := hline'.eq_of_no_reference hdollar'
  have h' := h.of_take_eq (take_split_pipeline_strip_comment htake)
  rw [hline.parse_line_eq, hline'.parse_line_eq, h.parse_stages_eq, h'.parse_stages_eq, hunresolved,
    hunresolved']

/-- Reading a line adds the warnings that are said of it to those held, and nothing else; a line
that is blank or a comment is not expanded, so nothing in it is a reference. A segment that fails
for another reason than that its command is not found adds none. In a line without references only
the segments up to the first that fails count: with others after it, the line is read alike. -/
theorem read_line_law (listing : Listing) (store : Store) (reader : LineReader) :
    (∀ line parsed reader', reader.read listing store line = (parsed, reader') ↔
      ∃ added, LineRead listing store line added parsed ∧
        reader' = ⟨reader.warnings ++ added⟩) ∧
    (∀ path number segment e, SegmentFails listing path number segment e →
      (∀ name skipped, e ≠ .resolve (.notFound name skipped)) →
      skippedFor listing path segment = []) ∧
    ∀ line line' expansion expansion' segments segments' earlier segment e,
      Segmented store line expansion segments → Segmented store line' expansion' segments' →
      '$' ∉ line → '$' ∉ line' → FirstFailing listing store.path? segments earlier segment e →
      (line'.splitOn '|').take (earlier.length + 1) =
        (line.splitOn '|').take (earlier.length + 1) →
      reader.read listing store line' = reader.read listing store line := by
  refine ⟨fun line parsed reader' => ?_, fun _ _ _ _ hfails => hfails.skipped_for_eq_nil, ?_⟩
  · simp only [line_read_iff, LineReader.read]
    generalize parseLine listing store line = read
    obtain ⟨warnings, result⟩ := read
    constructor
    · rintro ⟨⟩
      exact ⟨warnings, rfl, rfl⟩
    · rintro ⟨added, ⟨⟩, rfl⟩
      rfl
  · intro line line' expansion expansion' segments segments' earlier segment e hline hline' hdollar
      hdollar' hfailing htake
    rw [LineReader.read, LineReader.read,
      hfailing.parse_line_eq hline hline' hdollar hdollar' htake]

/-- A name that is not found, on a search path with a missing directory, followed by other segments:
once by one that could be read, once by two that could not and a comment. -/
theorem read_line_law_with_other_segments :
    let store := Store.ofList [(['P', 'A', 'T', 'H'], ['/', 'x', ':', '/', 'd'])]
    let listing : Listing := fun directory =>
      if directory = ['/', 'd'] then .ok [.text ['c']] else .error (.system .noEntry)
    let reader : LineReader := ⟨[.unknownVariable ['V']]⟩
    let missing : SkippedEntry := ⟨['/', 'x'], .system .noEntry⟩
    let line : Text := ['c', '|', 'e', ' ', '|', 'c']
    let line' : Text := ['c', '|', 'e', ' ', '|', '|', '<', ' ', '#', '|']
    let notFound : ParseError := .resolve (.notFound ['e'] [missing])
    FirstFailing listing store.path? [['c'], ['e'], ['c']] [['c']] ['e'] notFound ∧
    reader.read listing store line = (.error notFound,
      ⟨[.unknownVariable ['V'], .skippedEntry missing, .skippedEntry missing]⟩) ∧
    reader.read listing store line' = reader.read listing store line := by
  intro store listing reader missing line line' notFound
  have hread : Stage.ReadFrom listing store.path? ['c']
      ⟨.external ['/', 'd', '/', 'c'], [['c']], {}⟩ :=
    (parse_stage_eq_ok_iff 1).mp (by decide +kernel)
  have hsplit : splitRedirects ['e'] = .ok (['e'], {}) := by decide +kernel
  have hwords : Text.words ['e'] = [['e']] := by decide
  have hfails : SegmentFails listing store.path? 2 ['e'] notFound :=
    .resolve hsplit hwords (by decide +kernel)
  have hfailing : FirstFailing listing store.path? [['c'], ['e'], ['c']] [['c']] ['e'] notFound :=
    ⟨⟨[['c']], rfl⟩, List.forall_mem_singleton.mpr ⟨_, hread⟩, hfails⟩
  have hline : Segmented store line ⟨line, []⟩ [['c'], ['e'], ['c']] :=
    ⟨expands_of_substitute (by decide) (by decide) (by decide +kernel), by decide, by decide,
      by decide⟩
  have hline' : Segmented store line' ⟨line', []⟩ [['c'], ['e'], [], ['<']] :=
    ⟨expands_of_substitute (by decide) (by decide) (by decide +kernel), by decide, by decide,
      by decide⟩
  obtain ⟨_, _, hreplaced⟩ := read_line_law listing store reader
  refine ⟨hfailing, ?_, hreplaced line line' _ _ _ _ _ _ _ hline hline' (by decide) (by decide)
    hfailing (by decide)⟩
  have hparse : parseLine listing store line =
      ([.skippedEntry missing, .skippedEntry missing], .error notFound) := by
    decide +kernel
  simp only [LineReader.read, hparse]
  rfl

/-- The unknown name comes first although it is behind the segment that fails. -/
example :
    let store := Store.ofList [(['P', 'A', 'T', 'H'], ['/', 'x', ':', '/', 'd'])]
    let listing : Listing := fun directory =>
      if directory = ['/', 'd'] then .ok [.text ['c']] else .error (.system .noEntry)
    let missing : SkippedEntry := ⟨['/', 'x'], .system .noEntry⟩
    parseLine listing store ['c', '|', 'e', '|', '$', 'U', '|', 'c'] =
      ([.unknownVariable ['U'], .skippedEntry missing, .skippedEntry missing],
        .error (.resolve (.notFound ['e'] [missing]))) := by
  decide +kernel

end LineShell
