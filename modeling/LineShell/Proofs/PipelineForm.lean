import LineShell.Proofs.LineReading

/-!
# The form of the pipelines of lines

A pipeline that a line is read as is well formed, whatever the line, the variables and the
directories are: it has a stage, every stage has its command and the program that the command stands
for, and no character of the line's syntax is left in a word or a file name.
`well_formed_of_parse_line` says so, and that the stages are those of the segments of the line, one
each.

Values of variables are read as syntax like the rest of a line. So the form is derived from the line
after its expansion: each part of a stage is an infix of it, and what the line lacks its infixes
lack too.
-/

namespace LineShell

/-- The words of a segment that stand before its first operator. -/
def commandWords (segment : Text) : List Text :=
  Text.words (segment.takeWhile (!isOperatorChar ·))

/-- A stage in the form that lines give. -/
structure Stage.WellFormed (listing : Listing) (path : Option Text) (stage : Stage) : Prop where
  argv_ne : stage.argv ≠ []
  tokens : ∀ token ∈ stage.argv, token ≠ [] ∧ ∀ c ∈ token, c ∉ [' ', '|', '<', '>', '=']
  targets : ∀ target ∈ stage.redirects.targets,
    target ≠ [] ∧ Text.Trimmed target ∧ ∀ c ∈ target, c ∉ ['|', '<', '>', '=']
  append : stage.redirects.append = true → stage.redirects.output.isSome
  resolved : ∃ found, resolve listing stage.name path = .ok found ∧ found.program = stage.program

/-- A pipeline in the form that lines give. -/
structure Pipeline.WellFormed (listing : Listing) (path : Option Text) (pipeline : Pipeline) :
    Prop where
  stages_ne : pipeline.stages ≠ []
  stages : ∀ stage ∈ pipeline.stages, stage.WellFormed listing path
  /-- No argument looks like a comment. -/
  arguments : ∀ stage ∈ pipeline.stages, ∀ token ∈ stage.argv.tail, token.head? ≠ some '#'
  /-- Nor does the first command; a later one may, since `|` begins no comment. -/
  first : ∀ stage ∈ pipeline.stages.head?, stage.name.head? ≠ some '#'

/-! ## Stages -/

namespace Stage.ReadFrom

variable {listing : Listing} {path : Option Text} {segment : Text} {stage : Stage}

/-- The words of a stage are those of its segment up to the first operator. -/
theorem argv_eq (h : stage.ReadFrom listing path segment) :
    stage.argv = Text.words (Redirects.pieces segment).1 := by
  obtain ⟨command, hsplit, hwords⟩ := h.split
  obtain ⟨operands, hpieces, _⟩ := split_redirects_eq_ok_iff.mp hsplit
  rw [hpieces, hwords]

/-- A target of a stage is an operand of its segment, trimmed, and something is left of it. -/
theorem target_of_mem (h : stage.ReadFrom listing path segment) {target : Text}
    (htarget : target ∈ stage.redirects.targets) : target ≠ [] ∧ ∃ operand : Text,
      target = Text.trim operand ∧ operand <:+: segment ∧ Redirects.Plain operand := by
  obtain ⟨command, hsplit, _⟩ := h.split
  obtain ⟨operands, hpieces, _, hgather⟩ := split_redirects_eq_ok_iff.mp hsplit
  obtain ⟨hsome, hput⟩ := Redirects.gather_eq_ok_iff.mp hgather
  rw [← hput] at htarget
  rcases Redirects.mem_targets_foldl_put htarget with hnone | ⟨operand, hmem, rfl⟩
  · cases hnone
  · have hpiece : operand ∈ (Redirects.pieces segment).2 := by rwa [hpieces]
    exact ⟨hsome operand hmem, operand.2, rfl, Redirects.infix_operand hpiece,
      (Redirects.plain_pieces segment).2 operand hpiece⟩

/-- Appending is asked for only where the output is redirected. -/
theorem output_of_append (h : stage.ReadFrom listing path segment) :
    stage.redirects.append = true → stage.redirects.output.isSome := by
  obtain ⟨command, hsplit, _⟩ := h.split
  obtain ⟨operands, _, _, hgather⟩ := split_redirects_eq_ok_iff.mp hsplit
  obtain ⟨_, hput⟩ := Redirects.gather_eq_ok_iff.mp hgather
  rw [← hput]
  exact Redirects.output_of_append_foldl_put fun h => by cases h

/-- A stage is in the form of lines if its segment has the characters that a segment can have. -/
theorem well_formed (h : stage.ReadFrom listing path segment)
    (hsegment : ∀ c ∈ segment, c ≠ '|' ∧ c ≠ '=') : stage.WellFormed listing path where
  argv_ne := h.argv_ne
  tokens := by
    intro token htoken
    rw [h.argv_eq] at htoken
    obtain ⟨hne, hspace, hpart⟩ := Text.mem_words htoken
    refine ⟨hne, fun c hc => ?_⟩
    have hcommand : c ∈ (Redirects.pieces segment).1 := hpart.subset hc
    have hplain := (Redirects.plain_pieces segment).1 c hcommand
    obtain ⟨hpipe, heq⟩ := hsegment c ((Redirects.prefix_command segment).subset hcommand)
    simp only [isOperatorChar, Bool.or_eq_false_iff, beq_eq_false_iff_ne] at hplain
    have hnot : c ≠ ' ' := fun h => hspace (h ▸ hc)
    simp [hnot, hpipe, hplain, heq]
  targets := by
    intro target htarget
    obtain ⟨hne, operand, rfl, hpart, hplain⟩ := h.target_of_mem htarget
    refine ⟨hne, Text.trimmed_trim operand, fun c hc => ?_⟩
    have hoperand : c ∈ operand := (Text.infix_trim operand).subset hc
    have hplain := hplain c hoperand
    obtain ⟨hpipe, heq⟩ := hsegment c (hpart.subset hoperand)
    simp only [isOperatorChar, Bool.or_eq_false_iff, beq_eq_false_iff_ne] at hplain
    simp [hpipe, hplain, heq]
  append := h.output_of_append
  resolved := h.resolved

/-- An argument follows a space, so it begins no comment if none begins in the segment. -/
theorem argument_not_comment (h : stage.ReadFrom listing path segment)
    (hsegment : ¬ [' ', '#'] <:+: segment) {token : Text} (htoken : token ∈ stage.argv.tail) :
    token.head? ≠ some '#' := by
  intro hhead
  rw [h.argv_eq] at htoken
  have hpart : ' ' :: token <:+: segment :=
    (Text.space_cons_infix_of_mem_tail_words htoken).trans
      (Redirects.prefix_command segment).isInfix
  cases token with
  | nil => cases hhead
  | cons c token =>
      obtain rfl : c = '#' := by simpa using hhead
      have hbegin : [' ', '#'] <:+: ' ' :: '#' :: token := ⟨[], token, rfl⟩
      exact hsegment (hbegin.trans hpart)

/-- A command begins its segment, if no space comes first there. -/
theorem prefix_name (h : stage.ReadFrom listing path segment) (hspace : segment.head? ≠ some ' ') :
    stage.name ≠ [] ∧ stage.name <+: segment := by
  obtain ⟨name, arguments, hargv⟩ := List.exists_cons_of_ne_nil h.argv_ne
  have hname : stage.name = name := by rw [Stage.name, hargv, List.headD_cons]
  have hwords : (Text.words (Redirects.pieces segment).1).head? = some name := by
    rw [← h.argv_eq, hargv, List.head?_cons]
  obtain ⟨hne, _, hpart⟩ := Text.mem_words (List.mem_of_head? hwords)
  obtain ⟨rest, hrest⟩ := Redirects.prefix_command segment
  have hcommand : (Redirects.pieces segment).1 ≠ [] := fun hnil =>
    hne (List.infix_nil.mp (hnil ▸ hpart))
  have hstart : (Redirects.pieces segment).1.head? ≠ some ' ' := by
    rwa [← hrest, List.head?_append_of_ne_nil _ hcommand] at hspace
  rw [hname]
  exact ⟨hne, (Text.prefix_head?_words hstart hwords).trans ⟨rest, hrest⟩⟩

end Stage.ReadFrom

/-! ## Pipelines -/

namespace Pipeline.ReadFrom

variable {listing : Listing} {store : Store} {line : Text} {expansion : Expansion}
  {pipeline : Pipeline}

/-- The part of an expansion that the segments are cut from. -/
theorem comment_free_body (line : Text) :
    CommentFree (Text.trim (stripComment (Text.trim line))) := by
  have hbegin := prefix_strip_comment (Text.trim line)
  have hspace := Text.prefix_head?_ne hbegin (Text.trimmed_trim line).head
  exact (comment_free_strip_comment (Text.trim line)).mono (Text.prefix_trim hspace)

/-- A character that is not in an expansion is in no segment of it. -/
theorem not_mem_segment {line segment : Text} {c : Char} (hc : c ∉ Text.trim line)
    (h : segment ∈ splitPipeline (Text.trim (stripComment (Text.trim line)))) : c ∉ segment := by
  intro hmem
  have hbody := (mem_split_pipeline h).1.subset hmem
  have hstrip := (Text.infix_trim _).subset hbody
  exact hc ((prefix_strip_comment _).subset hstrip)

/-- A pipeline that is read from a line has the form of one. -/
theorem well_formed (h : pipeline.ReadFrom listing store line expansion) :
    pipeline.WellFormed listing store.path? where
  stages_ne := by
    intro hnil
    have hstages := h.stages
    rw [hnil, List.forall₂_nil_right_iff] at hstages
    exact split_pipeline_ne_nil _ hstages
  stages := by
    intro stage hstage
    obtain ⟨segment, hsegment, hread⟩ := exists_mem_of_forall₂ h.stages hstage
    refine hread.well_formed fun c hc => ⟨?_, ?_⟩
    · rintro rfl
      exact (mem_split_pipeline hsegment).2.1 hc
    · rintro rfl
      exact not_mem_segment h.no_assignment hsegment hc
  arguments := by
    intro stage hstage token htoken
    obtain ⟨segment, hsegment, hread⟩ := exists_mem_of_forall₂ h.stages hstage
    refine hread.argument_not_comment (fun hpart => ?_) htoken
    exact (comment_free_body _).inner (hpart.trans (mem_split_pipeline hsegment).1)
  first := by
    intro stage hstage
    have hfirst : pipeline.stages[0]? = some stage := by
      rw [← List.head?_eq_getElem?]
      exact hstage
    obtain ⟨segment, hsegment, hread⟩ := exists_get?_of_forall₂ h.stages hfirst
    -- Each of them begins with the next: body, first segment, command.
    have hbegin := prefix_first_segment (Text.trimmed_trim _).head hsegment
    have hspace := Text.prefix_head?_ne hbegin (Text.trimmed_trim _).head
    have hname := (hread.prefix_name hspace).2
    exact Text.prefix_head?_ne (hname.trans hbegin) (comment_free_body _).head

end Pipeline.ReadFrom

/-- Spaces around a segment make no difference to the words of its command. -/
theorem command_words_trim (segment : Text) :
    commandWords (Text.trim segment) = commandWords segment := by
  obtain ⟨before, after, hbefore, hafter, heq⟩ := Text.exists_blank_trim segment
  generalize Text.trim segment = core at heq ⊢
  -- Spaces are no operators, so the command takes those around it along.
  have hplain : ∀ c ∈ before, (!isOperatorChar c) = true := by
    intro c hc
    rw [hbefore c hc]
    rfl
  have hrest : Text.Blank (after.takeWhile (!isOperatorChar ·)) := fun c hc =>
    hafter c (List.takeWhile_subset _ hc)
  rw [commandWords, commandWords, heq, List.append_assoc, List.takeWhile_append_of_pos hplain,
    Text.words_blank_append hbefore, List.takeWhile_append]
  split
  · rename_i hall
    rw [(List.takeWhile_prefix _).eq_of_length hall, Text.words_append_blank _ hrest]
  · rfl

/-- Every pipeline that a line is read as is well formed, and its stages have the commands of the
segments that the line consists of when its references are replaced and its comment is dropped. -/
theorem well_formed_of_parse_line {listing : Listing} {store : Store} {line : Text}
    {pipeline : Pipeline} (h : (parseLine listing store line).2 = .ok (.pipeline pipeline)) :
    pipeline.WellFormed listing store.path? ∧
    ∃ expansion, substitute store (Text.trim line) = .ok expansion ∧
      pipeline.stages.map (·.argv) =
        ((stripComment (Text.trim expansion.line)).splitOn '|').map commandWords := by
  obtain ⟨expansion, hread⟩ := parse_line_eq_pipeline_iff.mp h
  refine ⟨hread.well_formed, expansion, hread.substituted, ?_⟩
  have hstages := hread.stages
  rw [split_pipeline_trim, splitPipeline, List.forall₂_map_left_iff] at hstages
  refine Eq.symm ?_
  rw [← List.forall₂_eq_eq_eq, List.forall₂_map_left_iff, List.forall₂_map_right_iff]
  refine hstages.imp fun part stage hstage => ?_
  rw [hstage.argv_eq, Redirects.command_eq_take_while]
  exact (command_words_trim part).symm

/-- A line with a comment, whose variable holds a second stage with a file to add to. -/
theorem well_formed_of_parse_line_with_stored_stage :
    let store := Store.empty.set ['X'] ['x', ' ', '|', '#', '/', 'b', ' ', '>', '>', 'f']
    let line : Text := ['/', 'a', ' ', '$', 'X', ' ', '#', 'c']
    let pipeline : Pipeline := ⟨[⟨.external ['/', 'a'], [['/', 'a'], ['x']], {}⟩,
      ⟨.external ['#', '/', 'b'], [['#', '/', 'b']], { output := some ['f'], append := true }⟩]⟩
    let listing : Listing := fun _ => .ok []
    (parseLine listing store line).2 = .ok (.pipeline pipeline) ∧
    pipeline.WellFormed listing store.path? ∧
    ∃ expansion, substitute store (Text.trim line) = .ok expansion ∧
      pipeline.stages.map (·.argv) =
        ((stripComment (Text.trim expansion.line)).splitOn '|').map commandWords := by
  intro store line pipeline listing
  have hread : (parseLine listing store line).2 = .ok (.pipeline pipeline) := by decide +kernel
  exact ⟨hread, well_formed_of_parse_line hread⟩

end LineShell
