import LineShell.Line
import LineShell.Proofs.RedirectPieces
import LineShell.Proofs.Rows

/-!
# What a line is read from

`Stage.ReadFrom` says what a segment of a line must give for a stage to be read from it, and
`Pipeline.ReadFrom` what a line must give for a pipeline. Reading is exactly that
(`parse_line_eq_pipeline_iff`), so a fact about pipelines that are read needs no look at how the
reading goes on.

A comment begins at a `#` that is first in the line or follows a space. A text is `CommentFree` if
it has no such place; `stripComment` makes it so and changes nothing if it is so already.
-/

namespace LineShell

/-! ## Comments -/

/-- No comment begins in the text. -/
structure CommentFree (line : Text) : Prop where
  head : line.head? ≠ some '#'
  inner : ¬ [' ', '#'] <:+: line

instance (line : Text) : Decidable (CommentFree line) :=
  decidable_of_iff (line.head? ≠ some '#' ∧ ¬ [' ', '#'] <:+: line)
    ⟨fun h => ⟨h.1, h.2⟩, fun h => ⟨h.head, h.inner⟩⟩

/-- What is left of a line without its comment is the beginning of it. -/
theorem prefix_drop_comment (afterSpace : Bool) (line : Text) :
    dropComment afterSpace line <+: line := by
  induction line generalizing afterSpace with
  | nil => exact List.prefix_rfl
  | cons c line ih =>
      rw [dropComment]
      split
      · exact List.nil_prefix
      · exact List.cons_prefix_cons.mpr ⟨rfl, ih _⟩

/-- What is left of a line has no comment in it. That it does not begin with one is known only where
one could begin. -/
theorem drop_comment_free (afterSpace : Bool) (line : Text) :
    (afterSpace = true → (dropComment afterSpace line).head? ≠ some '#') ∧
      ¬ [' ', '#'] <:+: dropComment afterSpace line := by
  induction line generalizing afterSpace with
  | nil => exact ⟨fun _ => by simp [dropComment], by simp [dropComment]⟩
  | cons c line ih =>
      rw [dropComment]
      split
      · exact ⟨fun _ => by simp, by simp⟩
      · rename_i hc
        refine ⟨fun hspace heq => ?_, fun hpart => ?_⟩
        · obtain rfl : c = '#' := by simpa using heq
          exact hc (by simp [hspace])
        · rcases List.infix_cons_iff.mp hpart with hbegin | hpart
          · -- After a space the rest was read as a place where a comment can begin.
            obtain ⟨rfl, hhead⟩ := List.cons_prefix_cons.mp hbegin
            refine (ih true).1 rfl ?_
            obtain ⟨rest, hrest⟩ := hhead
            rw [show dropComment true line = _ from hrest.symm]
            rfl
          · exact (ih _).2 hpart

/-- A line in which no comment begins is left as it is. -/
theorem drop_comment_eq_self {afterSpace : Bool} {line : Text}
    (hhead : afterSpace = true → line.head? ≠ some '#') (hinner : ¬ [' ', '#'] <:+: line) :
    dropComment afterSpace line = line := by
  induction line generalizing afterSpace with
  | nil => rfl
  | cons c line ih =>
      have hc : ¬ (afterSpace && c == '#') = true := by
        intro h
        simp only [Bool.and_eq_true, beq_iff_eq] at h
        exact hhead h.1 (by rw [h.2]; rfl)
      rw [dropComment, if_neg hc, ih ?_ fun h => hinner (List.infix_cons h)]
      intro hspace hnext
      obtain rfl : c = ' ' := by simpa using hspace
      cases line with
      | nil => cases hnext
      | cons d line =>
          obtain rfl : d = '#' := by simpa using hnext
          exact hinner ⟨[], line, rfl⟩

/-- What is left of a line without its comment is the beginning of it. -/
theorem prefix_strip_comment (line : Text) : stripComment line <+: line :=
  prefix_drop_comment true line

/-- What is left of a line without its comment has no other. -/
theorem comment_free_strip_comment (line : Text) : CommentFree (stripComment line) where
  head := (drop_comment_free true line).1 rfl
  inner := (drop_comment_free true line).2

/-- A line without a comment is left as it is. -/
theorem CommentFree.strip_comment_eq {line : Text} (h : CommentFree line) :
    stripComment line = line :=
  drop_comment_eq_self (fun _ => h.head) h.inner

/-- No comment begins in the beginning of a text that has none. -/
theorem CommentFree.mono {a b : Text} (h : CommentFree b) (hbegin : a <+: b) :
    CommentFree a where
  head := Text.prefix_head?_ne hbegin h.head
  inner := fun hpart => h.inner (hpart.trans hbegin.isInfix)

/-- The place where two texts meet begins no comment if the second of them does not. -/
theorem CommentFree.append {a b : Text} (ha : CommentFree a) (hb : CommentFree b) :
    CommentFree (a ++ b) where
  head := by
    cases a with
    | nil => exact hb.head
    | cons c a => exact ha.head
  inner := by
    intro h
    rcases List.infix_append_iff_ne_nil.mp h with h | h | ⟨x, y, hx, hy, heq, _, hyb⟩
    · exact ha.inner h
    · exact hb.inner h
    · obtain ⟨c, x, rfl⟩ := List.exists_cons_of_ne_nil hx
      obtain ⟨d, y, rfl⟩ := List.exists_cons_of_ne_nil hy
      have hxy : [' ', '#'] = c :: (x ++ d :: y) := heq
      cases x with
      | nil =>
          obtain ⟨rest, rfl⟩ := hyb
          refine hb.head ?_
          simp only [List.nil_append, List.cons.injEq] at hxy
          simp [hxy.2.1.symm]
      | cons e x => simp at hxy

/-- No comment begins in a text without `#`. -/
theorem CommentFree.of_not_mem {t : Text} (h : '#' ∉ t) : CommentFree t where
  head := fun hhead => h (List.mem_of_head? hhead)
  inner := fun hpart => h (hpart.subset (by decide))

/-- No comment begins among blanks. -/
theorem CommentFree.blank {gap : Text} (h : Text.Blank gap) : CommentFree gap :=
  .of_not_mem (h.not_mem (by decide))

/-! ## Segments -/

/-- A segment is a part of its line, without bars and without blanks at its ends. -/
theorem mem_split_pipeline {line segment : Text} (h : segment ∈ splitPipeline line) :
    segment <:+: line ∧ '|' ∉ segment ∧ Text.Trimmed segment := by
  obtain ⟨part, hpart, rfl⟩ := List.mem_map.mp h
  refine ⟨(Text.infix_trim part).trans (Text.infix_of_mem_split_on hpart), ?_,
    Text.trimmed_trim part⟩
  exact fun hmem => Text.separator_not_mem_of_mem_split_on hpart ((Text.infix_trim part).subset hmem)

/-- A line in which no space comes first begins with its first segment. -/
theorem prefix_first_segment {line segment : Text} (hspace : line.head? ≠ some ' ')
    (h : (splitPipeline line)[0]? = some segment) : segment <+: line := by
  obtain ⟨part, parts, heq, hpart, _⟩ := Text.exists_split_on_eq '|' line
  rw [splitPipeline, heq] at h
  obtain rfl : Text.trim part = segment := Option.some.inj h
  exact (Text.prefix_trim (Text.prefix_head?_ne hpart hspace)).trans hpart

/-- Every line has at least one segment. -/
theorem split_pipeline_ne_nil (line : Text) : splitPipeline line ≠ [] := by
  simp [splitPipeline]

/-- Blanks at the start of a line do not change its segments. -/
theorem split_pipeline_blank_append {gap : Text} (h : Text.Blank gap) (line : Text) :
    splitPipeline (gap ++ line) = splitPipeline line := by
  induction gap with
  | nil => rfl
  | cons c gap ih =>
      obtain ⟨rfl, hgap⟩ := Text.blank_cons_iff.mp h
      obtain ⟨part, parts, heq, _⟩ := Text.exists_split_on_eq '|' (gap ++ line)
      rw [← ih hgap, splitPipeline, splitPipeline, List.cons_append,
        List.splitOn_cons_eq_if_modifyHead, heq]
      rfl

/-- What is added to a line goes to the end of its last part, if it has no separator. -/
theorem exists_split_on_append {separator : Char} {rest : Text} (h : separator ∉ rest)
    (line : Text) : ∃ parts last, line.splitOn separator = parts ++ [last] ∧
      (line ++ rest).splitOn separator = parts ++ [last ++ rest] := by
  induction line with
  | nil => exact ⟨[], [], rfl, List.splitOn_eq_singleton h⟩
  | cons c line ih =>
      obtain ⟨parts, last, hline, hwhole⟩ := ih
      rw [List.cons_append, List.splitOn_cons_eq_if_modifyHead, List.splitOn_cons_eq_if_modifyHead,
        hline, hwhole]
      split
      · exact ⟨[] :: parts, last, rfl, rfl⟩
      · cases parts with
        | nil => exact ⟨[], c :: last, rfl, rfl⟩
        | cons part parts => exact ⟨(c :: part) :: parts, last, rfl, rfl⟩

/-- Blanks at the end of a line do not change its segments. -/
theorem split_pipeline_append_blank (line : Text) {gap : Text} (h : Text.Blank gap) :
    splitPipeline (line ++ gap) = splitPipeline line := by
  obtain ⟨parts, last, hline, hwhole⟩ :=
    exists_split_on_append (h.not_mem (by decide : '|' ≠ ' ')) line
  have hlast : Text.trim (last ++ gap) = Text.trim last := by
    simpa using Text.trim_append_blank Text.blank_nil last h
  rw [splitPipeline, splitPipeline, hline, hwhole]
  simp [hlast]

/-- Spaces around a line make no difference to its segments. -/
theorem split_pipeline_trim (line : Text) :
    splitPipeline (Text.trim line) = splitPipeline line := by
  obtain ⟨before, after, hbefore, hafter, heq⟩ := Text.exists_blank_trim line
  generalize Text.trim line = core at heq ⊢
  rw [heq, split_pipeline_append_blank _ hafter, split_pipeline_blank_append hbefore]

/-! ## Stages and pipelines -/

/-- The stage is what a segment says. -/
structure Stage.ReadFrom (listing : Listing) (path : Option Text) (segment : Text) (stage : Stage) :
    Prop where
  split : ∃ command, splitRedirects segment = .ok (command, stage.redirects) ∧
    Text.words command = stage.argv
  argv_ne : stage.argv ≠ []
  resolved : ∃ found, resolve listing stage.name path = .ok found ∧ found.program = stage.program

/-- An empty segment has no command, like any other of which no words are left. -/
theorem parse_stage_eq_of_split {listing : Listing} {path : Option Text} {number : Nat}
    {segment command : Text} {redirects : Redirects}
    (h : splitRedirects segment = .ok (command, redirects)) :
    parseStage listing path number segment =
      match Text.words command with
      | [] => ([], .error (.emptyCommand number))
      | name :: arguments =>
        match resolve listing name path with
        | .ok found =>
          (found.skipped.map .skippedEntry, .ok ⟨found.program, name :: arguments, redirects⟩)
        | .error cause => (cause.skipped.map .skippedEntry, .error (.resolve cause)) := by
  rw [parseStage]
  split
  · rename_i hempty
    rw [List.isEmpty_iff.mp hempty] at h
    obtain rfl : [] = command := congrArg Prod.fst (Except.ok.inj h)
    rfl
  · rewrite [h]
    rfl

/-- A stage that was read has the command and redirects of its segment, and a program that its name
resolves to. -/
theorem read_from_of_parse_stage {listing : Listing} {path : Option Text} {number : Nat}
    {segment : Text} {stage : Stage}
    (h : (parseStage listing path number segment).2 = .ok stage) :
    stage.ReadFrom listing path segment := by
  unfold parseStage at h
  split at h
  · cases h
  · split at h
    · cases h
    · rename_i command redirects hsplit
      split at h
      · cases h
      · rename_i name arguments hwords
        split at h
        · rename_i found hfound
          cases h
          exact ⟨⟨command, hsplit, hwords⟩, List.cons_ne_nil _ _, found, hfound, rfl⟩
        · cases h

/-- A stage with the command and redirects of a segment, and a program that its name resolves to, is
read from it. -/
theorem Stage.ReadFrom.parse_stage_eq {listing : Listing} {path : Option Text} {segment : Text}
    {stage : Stage} (h : stage.ReadFrom listing path segment) (number : Nat) :
    (parseStage listing path number segment).2 = .ok stage := by
  obtain ⟨⟨command, hsplit, hwords⟩, hne, found, hfound, hprogram⟩ := h
  obtain ⟨program, argv, redirects⟩ := stage
  obtain ⟨name, arguments, rfl⟩ := List.exists_cons_of_ne_nil hne
  have hname : resolve listing name path = .ok found := hfound
  dsimp only at hsplit hwords hprogram
  rw [parse_stage_eq_of_split hsplit, hwords]
  dsimp only
  rw [hname, ← hprogram]

/-- Which stage a segment is read as, in terms of the segment alone. -/
theorem parse_stage_eq_ok_iff {listing : Listing} {path : Option Text} (number : Nat)
    {segment : Text} {stage : Stage} : (parseStage listing path number segment).2 = .ok stage ↔
      stage.ReadFrom listing path segment :=
  ⟨read_from_of_parse_stage, fun h => h.parse_stage_eq number⟩

/-- Segments are read one by one. -/
theorem parse_stages_eq_ok_iff {listing : Listing} {path : Option Text} (number : Nat)
    {segments : List Text} {stages : List Stage} :
    (parseStages listing path number segments).2 = .ok stages ↔
      List.Forall₂ (Stage.ReadFrom listing path) segments stages := by
  induction segments generalizing number stages with
  | nil =>
      rw [parseStages, List.forall₂_nil_left_iff, Except.ok.injEq]
      exact eq_comm
  | cons segment rest ih =>
      rw [parseStages, List.forall₂_cons_left_iff]
      simp only [← parse_stage_eq_ok_iff number, ← ih (number + 1)]
      generalize parseStage listing path number segment = first
      generalize parseStages listing path (number + 1) rest = others
      obtain ⟨warnings, stage | stage⟩ := first
      · simp
      · obtain ⟨more, later | later⟩ := others
        · simp [Except.map]
        · simp [Except.map, eq_comm]

/-- The pipeline is what a line says, by way of its expansion. -/
structure Pipeline.ReadFrom (listing : Listing) (store : Store) (line : Text)
    (expansion : Expansion) (pipeline : Pipeline) : Prop where
  line_ne : Text.trim line ≠ []
  not_comment : (Text.trim line).head? ≠ some '#'
  substituted : substitute store (Text.trim line) = .ok expansion
  no_assignment : '=' ∉ Text.trim expansion.line
  body_ne : Text.trim (stripComment (Text.trim expansion.line)) ≠ []
  stages : List.Forall₂ (Stage.ReadFrom listing store.path?)
    (splitPipeline (Text.trim (stripComment (Text.trim expansion.line)))) pipeline.stages

/-! ## Lines -/

/-- A line that is blank or a comment is empty. -/
theorem parse_line_blank {listing : Listing} {store : Store} {line : Text}
    (h : Text.trim line = [] ∨ (Text.trim line).head? = some '#') :
    parseLine listing store line = ([], .ok .empty) := by
  have hblank : ((Text.trim line).isEmpty || (Text.trim line).head? == some '#') = true := by
    simpa using h
  rw [parseLine]
  exact if_pos hblank

/-- Any other line is read after substitution, which is the only step that can fail before its kind
is known. -/
theorem parse_line_eq_of_substitute {listing : Listing} {store : Store} {line : Text}
    (hne : Text.trim line ≠ []) (hcomment : (Text.trim line).head? ≠ some '#') :
    parseLine listing store line =
      match substitute store (Text.trim line) with
      | .error cause => ([], .error (.unterminatedBrace cause))
      | .ok expansion =>
        let (warnings, parsed) := parseExpanded listing store.path? (Text.trim expansion.line)
        (expansion.unresolved.map .unknownVariable ++ warnings, parsed) := by
  have hsome : ¬ ((Text.trim line).isEmpty || (Text.trim line).head? == some '#') = true := by
    simp [hne, hcomment]
  rw [parseLine]
  exact if_neg hsome

/-- A line with `=` is read as an assignment, even one that looks like a pipeline. -/
theorem parse_expanded_of_equals {listing : Listing} {path : Option Text} {line : Text}
    (h : '=' ∈ line) : parseExpanded listing path line = ([], parseAssignment line) :=
  if_pos (List.contains_iff_mem.mpr h)

/-- A line without `=` is read as a pipeline, or as empty if its comment leaves nothing of it. -/
theorem parse_expanded_of_no_equals {listing : Listing} {path : Option Text} {line : Text}
    (h : '=' ∉ line) : parseExpanded listing path line =
      if Text.trim (stripComment line) = [] then ([], .ok .empty)
      else
        let (warnings, stages) :=
          parseStages listing path 1 (splitPipeline (Text.trim (stripComment line)))
        (warnings, stages.map fun stages => .pipeline ⟨stages⟩) := by
  have hnone : ¬ line.contains '=' = true := fun hc => h (List.contains_iff_mem.mp hc)
  rw [parseExpanded, if_neg hnone]
  simp only [List.isEmpty_iff]

/-- Reading an assignment never gives a pipeline. -/
theorem parse_assignment_ne_pipeline (line : Text) (pipeline : Pipeline) :
    parseAssignment line ≠ .ok (.pipeline pipeline) := by
  unfold parseAssignment
  intro h
  dsimp only at h
  split at h
  · cases h
  · split at h
    · cases h
    · cases h

/-- Which pipeline an expanded line is read as: the one whose stages are read from its segments, one
for each. -/
theorem parse_expanded_eq_pipeline_iff {listing : Listing} {path : Option Text} {line : Text}
    {pipeline : Pipeline} : (parseExpanded listing path line).2 = .ok (.pipeline pipeline) ↔
      '=' ∉ line ∧ Text.trim (stripComment line) ≠ [] ∧
      List.Forall₂ (Stage.ReadFrom listing path) (splitPipeline (Text.trim (stripComment line)))
        pipeline.stages := by
  rw [← parse_stages_eq_ok_iff 1]
  by_cases hassign : '=' ∈ line
  · rw [parse_expanded_of_equals hassign]
    constructor
    · intro h
      exact absurd h (parse_assignment_ne_pipeline line pipeline)
    · rintro ⟨hnone, _⟩
      exact absurd hassign hnone
  · rw [parse_expanded_of_no_equals hassign]
    split
    · rename_i hempty
      constructor
      · intro h
        cases h
      · rintro ⟨_, hne, _⟩
        exact absurd hempty hne
    · rename_i hne
      generalize parseStages listing path 1 (splitPipeline (Text.trim (stripComment line))) = read
      obtain ⟨warnings, stages | stages⟩ := read
      · simp [Except.map]
      · obtain ⟨stages'⟩ := pipeline
        simp [Except.map, hassign, hne]

/-- Reading a line gives exactly the pipelines that the line says. -/
theorem parse_line_eq_pipeline_iff {listing : Listing} {store : Store} {line : Text}
    {pipeline : Pipeline} : (parseLine listing store line).2 = .ok (.pipeline pipeline) ↔
      ∃ expansion, pipeline.ReadFrom listing store line expansion := by
  by_cases hblank : Text.trim line = [] ∨ (Text.trim line).head? = some '#'
  · rw [parse_line_blank hblank]
    constructor
    · intro h
      cases h
    · rintro ⟨expansion, hread⟩
      exact (hblank.elim hread.line_ne hread.not_comment).elim
  · obtain ⟨hne, hcomment⟩ := not_or.mp hblank
    rw [parse_line_eq_of_substitute hne hcomment]
    cases hsubstitute : substitute store (Text.trim line) with
    | error cause =>
        constructor
        · intro h
          cases h
        · rintro ⟨expansion, hread⟩
          cases hsubstitute.symm.trans hread.substituted
    | ok expansion =>
        dsimp only
        rw [parse_expanded_eq_pipeline_iff]
        constructor
        · rintro ⟨hnone, hbody, hstages⟩
          exact ⟨expansion, hne, hcomment, hsubstitute, hnone, hbody, hstages⟩
        · rintro ⟨expansion', hread⟩
          obtain rfl := Except.ok.inj (hsubstitute.symm.trans hread.substituted)
          exact ⟨hread.no_assignment, hread.body_ne, hread.stages⟩

end LineShell
