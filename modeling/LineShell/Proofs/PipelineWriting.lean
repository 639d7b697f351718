import LineShell.Proofs.PipelineForm
import LineShell.Proofs.SubstitutionMeaning

/-!
# Pipelines written as lines

The converse of `PipelineForm`: a pipeline in the form that lines give can be written as a line, and
every way to write it is read back as that pipeline (`parse_line_of_writes`).

Writing is a relation, since a writer may choose: which redirection comes first and how many spaces
stand between words, around operators, file names and `|`, and at the ends of the line.
`WritesWords`, `WritesOperands`, `WritesStage` and `WritesPipeline` build a line up, and for each
there is one lemma on the characters that it adds, one on comments and one on how it is read.
-/

namespace LineShell

/-- The text is the words in their order, with at least one space between them. -/
inductive WritesWords : List Text → Text → Prop where
  | single (token) : WritesWords [token] token
  | cons (token) {gap tokens text} : Text.Blank gap → gap ≠ [] → WritesWords tokens text →
      WritesWords (token :: tokens) (token ++ gap ++ text)

/-- The text is the operators in their order, each before its file name. -/
inductive WritesOperands : List (Operator × Text) → Text → Prop where
  | nil : WritesOperands [] []
  | cons (op : Operator) (target) {before after operands text} : Text.Blank before →
      Text.Blank after → WritesOperands operands text →
      WritesOperands ((op, target) :: operands)
        (before ++ (op.symbol.toList ++ (after ++ target ++ text)))

/-- The operator of the input, if there is one. -/
def Redirects.inputOperand (r : Redirects) : List (Operator × Text) :=
  (r.input.map fun target => (.input, target)).toList

/-- The operator of the output, if there is one. -/
def Redirects.outputOperand (r : Redirects) : List (Operator × Text) :=
  (r.output.map fun target => (if r.append then .append else .output, target)).toList

/-- The operators of redirections, in one of their orders. -/
def Redirects.HasOperands (r : Redirects) (operands : List (Operator × Text)) : Prop :=
  operands = r.inputOperand ++ r.outputOperand ∨ operands = r.outputOperand ++ r.inputOperand

/-- The text is the words of the stage and then its redirections. -/
inductive WritesStage (stage : Stage) : Text → Prop where
  | intro {operands words rest} : stage.redirects.HasOperands operands →
      WritesWords stage.argv words → WritesOperands operands rest →
      WritesStage stage (words ++ rest)

/-- The text is the stages in their order, with a `|` between them. -/
inductive WritesPipeline : List Stage → Text → Prop where
  | single {stage text} : WritesStage stage text → WritesPipeline [stage] text
  | cons {stage segment before after stages text} : WritesStage stage segment →
      Text.Blank before → Text.Blank after → WritesPipeline stages text →
      WritesPipeline (stage :: stages) (segment ++ before ++ '|' :: (after ++ text))

/-- A stage in the form of lines of which nothing is replaced and nothing is taken for a comment. -/
structure Stage.Writable (listing : Listing) (path : Option Text) (stage : Stage) : Prop extends
    stage.WellFormed listing path where
  literal : ∀ text ∈ stage.argv ++ stage.redirects.targets, '$' ∉ text
  no_comment : ∀ text ∈ stage.argv ++ stage.redirects.targets, CommentFree text

/-! ## Words -/

namespace WritesWords

variable {tokens : List Text} {text : Text}

/-- Written words have the characters of the words and spaces, and no others. -/
theorem mem (h : WritesWords tokens text) {c : Char} (hc : c ∈ text) :
    c = ' ' ∨ ∃ token ∈ tokens, c ∈ token := by
  induction h with
  | single token => exact .inr ⟨token, List.mem_cons_self, hc⟩
  | cons token hgap _ _ ih =>
      rcases List.mem_append.mp hc with hc | hc
      · rcases List.mem_append.mp hc with hc | hc
        · exact .inr ⟨token, List.mem_cons_self, hc⟩
        · exact .inl (hgap c hc)
      · rcases ih hc with hspace | ⟨later, hlater, hc⟩
        · exact .inl hspace
        · exact .inr ⟨later, List.mem_cons_of_mem _ hlater, hc⟩

/-- Words in which no comment begins are written without one, spaces being followed by a word. -/
theorem comment_free (h : WritesWords tokens text) (htokens : ∀ token ∈ tokens, CommentFree token) :
    CommentFree text := by
  induction h with
  | single token => exact htokens token List.mem_cons_self
  | cons token hgap _ _ ih =>
      obtain ⟨htoken, hrest⟩ := List.forall_mem_cons.mp htokens
      exact (htoken.append (.blank hgap)).append (ih hrest)

/-- Written words are read back, however wide the gaps between them are. -/
theorem words_eq (h : WritesWords tokens text)
    (htokens : ∀ token ∈ tokens, token ≠ [] ∧ ' ' ∉ token) : Text.words text = tokens := by
  induction h with
  | single token =>
      obtain ⟨hne, hspace⟩ := htokens token List.mem_cons_self
      exact Text.words_eq_singleton hne hspace
  | cons token hgap hsome _ ih =>
      obtain ⟨⟨hne, hspace⟩, hrest⟩ := List.forall_mem_cons.mp htokens
      rw [Text.words_append_gap_append hne hspace hgap hsome, ih hrest]

/-- Words that are not empty are written as a text that is not. -/
theorem ne_nil (h : WritesWords tokens text) (htokens : ∀ token ∈ tokens, token ≠ []) :
    text ≠ [] := by
  cases h with
  | single token => exact htokens _ List.mem_cons_self
  | cons token _ _ _ =>
      have hne := htokens token List.mem_cons_self
      simp [hne]

/-- Written words begin and end with a word, so there are no blanks at the ends. -/
theorem trimmed (h : WritesWords tokens text)
    (htokens : ∀ token ∈ tokens, token ≠ [] ∧ ' ' ∉ token) : Text.Trimmed text := by
  induction h with
  | single token => exact .of_space_not_mem (htokens token List.mem_cons_self).2
  | cons token _ _ hwrites ih =>
      obtain ⟨⟨hne, hspace⟩, hrest⟩ := List.forall_mem_cons.mp htokens
      have htoken : Text.Trimmed token := .of_space_not_mem hspace
      rw [List.append_assoc]
      refine htoken.append_append hne (hwrites.ne_nil ?_) (ih hrest) _
      exact fun later hlater => (hrest later hlater).1

end WritesWords

/-! ## Operators -/

namespace WritesOperands

variable {operands : List (Operator × Text)} {text : Text}

/-- Written operands have the characters of the operands, those of the operators, and spaces. -/
theorem mem (h : WritesOperands operands text) {c : Char} (hc : c ∈ text) :
    c = ' ' ∨ isOperatorChar c = true ∨ ∃ operand ∈ operands, c ∈ operand.2 := by
  induction h with
  | nil => cases hc
  | cons op target hbefore hafter _ ih =>
      simp only [List.mem_append] at hc
      rcases hc with hc | hc | (hc | hc) | hc
      · exact .inl (hbefore c hc)
      · exact .inr (.inl (is_operator_char_of_mem_symbol hc))
      · exact .inl (hafter c hc)
      · exact .inr (.inr ⟨_, List.mem_cons_self, hc⟩)
      · rcases ih hc with hspace | hop | ⟨later, hlater, hc⟩
        · exact .inl hspace
        · exact .inr (.inl hop)
        · exact .inr (.inr ⟨later, List.mem_cons_of_mem _ hlater, hc⟩)

/-- Operands in which no comment begins are written without one. -/
theorem comment_free (h : WritesOperands operands text)
    (hoperands : ∀ operand ∈ operands, CommentFree operand.2) : CommentFree text := by
  induction h with
  | nil => exact .blank Text.blank_nil
  | cons op target hbefore hafter _ ih =>
      obtain ⟨htarget, hrest⟩ := List.forall_mem_cons.mp hoperands
      have hsymbol : CommentFree op.symbol.toList := .of_not_mem fun hmem =>
        absurd (is_operator_char_of_mem_symbol hmem) (by decide)
      have hfile := ((CommentFree.blank hafter).append htarget).append (ih hrest)
      exact (CommentFree.blank hbefore).append (hsymbol.append hfile)

/-- The file names may be written with spaces around them, which trimming takes off. What comes
before the first operator is blank. -/
theorem pieces_eq (h : WritesOperands operands text) (hoperands : ∀ operand ∈ operands,
      operand.2 ≠ [] ∧ Text.Trimmed operand.2 ∧ Redirects.Plain operand.2) :
    ∃ gap written, Text.Blank gap ∧ Redirects.pieces text = (gap, written) ∧
      written.map (fun operand => (operand.1, Text.trim operand.2)) = operands := by
  induction h with
  | nil => exact ⟨[], [], Text.blank_nil, rfl, rfl⟩
  | @cons op target before after operands text hbefore hafter _ ih =>
      obtain ⟨⟨hne, htrimmed, hplain⟩, hrest⟩ := List.forall_mem_cons.mp hoperands
      obtain ⟨gap, written, hgap, hpieces, hwritten⟩ := ih hrest
      -- Spaces are read into the operand on their left, for lack of an operator before them.
      have hname : Redirects.Plain (after ++ target) := (Redirects.plain_blank hafter).append hplain
      have hhead : (after ++ target ++ text).head? ≠ some '>' := by
        rw [List.head?_append_of_ne_nil _ (by simp [hne])]
        intro hhead
        cases hname '>' (List.mem_of_head? hhead)
      refine ⟨before, (op, after ++ target ++ gap) :: written, hbefore, ?_, ?_⟩
      · rw [Redirects.pieces_plain_append (Redirects.plain_blank hbefore),
          Redirects.pieces_symbol_append op (fun _ => hhead), Redirects.pieces_plain_append hname,
          hpieces, List.append_nil]
      · rw [List.map_cons, hwritten, Text.trim_blank_append hafter htrimmed hgap]

/-- Written operands end with an operand, so there is no blank at the end. -/
theorem last_ne_space (h : WritesOperands operands text)
    (hoperands : ∀ operand ∈ operands, operand.2 ≠ [] ∧ Text.Trimmed operand.2) :
    text.getLast? ≠ some ' ' := by
  induction h with
  | nil => simp
  | @cons op target before after operands text _ _ _ ih =>
      obtain ⟨⟨hne, htrimmed⟩, hrest⟩ := List.forall_mem_cons.mp hoperands
      have hlast := ih hrest
      cases text with
      | nil =>
          rw [List.append_nil, ← List.append_assoc, ← List.append_assoc,
            List.getLast?_append_of_ne_nil _ hne]
          exact htrimmed.last
      | cons c text =>
          rw [← List.append_assoc, ← List.append_assoc,
            List.getLast?_append_of_ne_nil _ (List.cons_ne_nil c text)]
          exact hlast

end WritesOperands

namespace Redirects

variable {r : Redirects} {operands : List (Operator × Text)}

/-- An operand of the redirects is one of their targets. -/
theorem HasOperands.mem_targets (h : r.HasOperands operands) {operand : Operator × Text}
    (hmem : operand ∈ operands) : operand.2 ∈ r.targets := by
  have hsides : operand ∈ r.inputOperand ∨ operand ∈ r.outputOperand := by
    rcases h with rfl | rfl
    · exact List.mem_append.mp hmem
    · exact (List.mem_append.mp hmem).symm
  rw [targets, List.mem_append, Option.mem_toList, Option.mem_toList]
  rcases hsides with hside | hside
  · simp only [inputOperand, Option.mem_toList, Option.map_eq_some_iff] at hside
    obtain ⟨target, htarget, rfl⟩ := hside
    exact .inl htarget
  · simp only [outputOperand, Option.mem_toList, Option.map_eq_some_iff] at hside
    obtain ⟨target, htarget, rfl⟩ := hside
    exact .inr htarget

/-- No side is taken twice. -/
theorem HasOperands.first_duplicate?_eq (h : r.HasOperands operands) :
    firstDuplicate? false false (operands.map Prod.fst) = none := by
  obtain ⟨input, output, append⟩ := r
  rcases h with rfl | rfl
  · cases input <;> cases output <;> cases append <;> rfl
  · cases input <;> cases output <;> cases append <;> rfl

/-- The operators of redirections make these redirections, in either order. -/
theorem HasOperands.foldl_put_eq (h : r.HasOperands operands)
    (hr : r.append = true → r.output.isSome) :
    operands.foldl (fun r operand => r.put operand.1 operand.2) {} = r := by
  obtain ⟨input, output, append⟩ := r
  cases output with
  | none =>
      obtain rfl : append = false := by
        cases append with
        | false => rfl
        | true => cases hr rfl
      rcases h with rfl | rfl
      · cases input <;> rfl
      · cases input <;> rfl
  | some target =>
      rcases h with rfl | rfl
      · cases input <;> cases append <;> rfl
      · cases input <;> cases append <;> rfl

end Redirects

/-! ## Stages -/

namespace Stage.WellFormed

variable {listing : Listing} {path : Option Text} {stage : Stage}

/-- A character of a word or a file name has no meaning in a line. -/
theorem char_of_part (h : stage.WellFormed listing path) {part : Text}
    (hpart : part ∈ stage.argv ++ stage.redirects.targets) {c : Char} (hc : c ∈ part) :
    c ≠ '|' ∧ c ≠ '=' ∧ isOperatorChar c = false := by
  have hnot : c ∉ ['|', '<', '>', '='] := by
    rcases List.mem_append.mp hpart with hpart | hpart
    · exact fun hmem => (h.tokens part hpart).2 c hc (List.mem_cons_of_mem _ hmem)
    · exact (h.targets part hpart).2.2 c hc
  simpa [isOperatorChar, not_or, and_assoc, and_comm, and_left_comm] using hnot

/-- The words of a stage that was read are not empty and have no spaces. -/
theorem token_of_mem (h : stage.WellFormed listing path) :
    ∀ token ∈ stage.argv, token ≠ [] ∧ ' ' ∉ token := by
  intro token htoken
  obtain ⟨hne, hchars⟩ := h.tokens token htoken
  exact ⟨hne, fun hspace => hchars ' ' hspace List.mem_cons_self⟩

/-- The operands of a stage that was read have something in them, no blanks at the ends, and no
operators. -/
theorem operand_of_mem (h : stage.WellFormed listing path) {operands : List (Operator × Text)}
    (hoperands : stage.redirects.HasOperands operands) : ∀ operand ∈ operands,
      operand.2 ≠ [] ∧ Text.Trimmed operand.2 ∧ Redirects.Plain operand.2 := by
  intro operand hmem
  have htarget := hoperands.mem_targets hmem
  obtain ⟨hne, htrimmed, _⟩ := h.targets _ htarget
  exact ⟨hne, htrimmed, fun c hc => (h.char_of_part (List.mem_append_right _ htarget) hc).2.2⟩

end Stage.WellFormed

namespace WritesStage

variable {listing : Listing} {path : Option Text} {stage : Stage} {text : Text}

/-- A written stage has the characters of its words and targets, those of the operators, and spaces.
-/
theorem mem (h : WritesStage stage text) {c : Char} (hc : c ∈ text) :
    c = ' ' ∨ isOperatorChar c = true ∨
      ∃ part ∈ stage.argv ++ stage.redirects.targets, c ∈ part := by
  obtain ⟨hoperands, hwords, hrest⟩ := h
  rcases List.mem_append.mp hc with hc | hc
  · rcases hwords.mem hc with hspace | ⟨token, htoken, hc⟩
    · exact .inl hspace
    · exact .inr (.inr ⟨token, List.mem_append_left _ htoken, hc⟩)
  · rcases hrest.mem hc with hspace | hop | ⟨operand, hmem, hc⟩
    · exact .inl hspace
    · exact .inr (.inl hop)
    · exact .inr (.inr ⟨_, List.mem_append_right _ (hoperands.mem_targets hmem), hc⟩)

/-- A stage is written without a comment if none begins in its words and targets. -/
theorem comment_free (h : WritesStage stage text)
    (hparts : ∀ part ∈ stage.argv ++ stage.redirects.targets, CommentFree part) :
    CommentFree text := by
  obtain ⟨hoperands, hwords, hrest⟩ := h
  refine (hwords.comment_free fun token htoken => ?_).append
    (hrest.comment_free fun operand hmem => ?_)
  · exact hparts token (List.mem_append_left _ htoken)
  · exact hparts _ (List.mem_append_right _ (hoperands.mem_targets hmem))

/-- A stage is never written as nothing, having a name. -/
theorem ne_nil (h : WritesStage stage text) (hstage : stage.WellFormed listing path) :
    text ≠ [] := by
  obtain ⟨_, hwords, _⟩ := h
  have hne := hwords.ne_nil fun token htoken => (hstage.token_of_mem token htoken).1
  simp [hne]

/-- A written stage has no blanks at its ends: it begins with its name and ends with a word or an
operand. -/
theorem trimmed (h : WritesStage stage text) (hstage : stage.WellFormed listing path) :
    Text.Trimmed text := by
  obtain ⟨hoperands, hwords, hrest⟩ := h
  rename_i operands words rest
  have hne := hwords.ne_nil fun token htoken => (hstage.token_of_mem token htoken).1
  have htrimmed := hwords.trimmed hstage.token_of_mem
  have hlast := hrest.last_ne_space fun operand hmem =>
    have hoperand := hstage.operand_of_mem hoperands operand hmem
    ⟨hoperand.1, hoperand.2.1⟩
  cases rest with
  | nil => rwa [List.append_nil]
  | cons c rest =>
      refine ⟨?_, ?_⟩
      · rw [List.head?_append_of_ne_nil _ hne]
        exact htrimmed.head
      · rw [List.getLast?_append_of_ne_nil _ (List.cons_ne_nil c rest)]
        exact hlast

/-- A stage is read from every text that writes it. -/
theorem read_from (h : WritesStage stage text) (hstage : stage.WellFormed listing path) :
    stage.ReadFrom listing path text := by
  obtain ⟨hoperands, hwords, hrest⟩ := h
  rename_i operands words rest
  obtain ⟨gap, written, hgap, hpieces, hwritten⟩ :=
    hrest.pieces_eq (hstage.operand_of_mem hoperands)
  have hplain : Redirects.Plain words := by
    intro c hc
    rcases hwords.mem hc with rfl | ⟨token, htoken, hc⟩
    · rfl
    · exact (hstage.char_of_part (List.mem_append_left _ htoken) hc).2.2
  refine ⟨⟨words ++ gap, split_redirects_eq_ok_iff.mpr ⟨written, ?_, ?_, ?_⟩, ?_⟩,
    hstage.argv_ne, hstage.resolved⟩
  · rw [Redirects.pieces_plain_append hplain, hpieces]
  · have hoperators := hoperands.first_duplicate?_eq
    rwa [← hwritten, List.map_map] at hoperators
  · refine Redirects.gather_eq_ok_iff.mpr ⟨fun operand hmem => ?_, ?_⟩
    · have hoperand : (operand.1, Text.trim operand.2) ∈ operands :=
        hwritten ▸ List.mem_map_of_mem hmem
      exact (hstage.operand_of_mem hoperands _ hoperand).1
    · have hput := hoperands.foldl_put_eq hstage.append
      rwa [← hwritten, List.foldl_map] at hput
  · rw [Text.words_append_blank _ hgap, hwords.words_eq hstage.token_of_mem]

end WritesStage

/-! ## Pipelines -/

namespace WritesPipeline

variable {listing : Listing} {path : Option Text} {stages : List Stage} {text : Text}

/-- A written pipeline has the characters of its stages, bars and spaces. -/
theorem mem (h : WritesPipeline stages text) {c : Char} (hc : c ∈ text) :
    c = ' ' ∨ c = '|' ∨ isOperatorChar c = true ∨
      ∃ stage ∈ stages, ∃ part ∈ stage.argv ++ stage.redirects.targets, c ∈ part := by
  induction h with
  | single hstage =>
      rcases hstage.mem hc with hspace | hop | hpart
      · exact .inl hspace
      · exact .inr (.inr (.inl hop))
      · exact .inr (.inr (.inr ⟨_, List.mem_cons_self, hpart⟩))
  | cons hstage hbefore hafter _ ih =>
      simp only [List.mem_append, List.mem_cons] at hc
      rcases hc with (hc | hc) | rfl | hc | hc
      · rcases hstage.mem hc with hspace | hop | hpart
        · exact .inl hspace
        · exact .inr (.inr (.inl hop))
        · exact .inr (.inr (.inr ⟨_, List.mem_cons_self, hpart⟩))
      · exact .inl (hbefore c hc)
      · exact .inr (.inl rfl)
      · exact .inl (hafter c hc)
      · rcases ih hc with hspace | hpipe | hop | ⟨later, hlater, hpart⟩
        · exact .inl hspace
        · exact .inr (.inl hpipe)
        · exact .inr (.inr (.inl hop))
        · exact .inr (.inr (.inr ⟨later, List.mem_cons_of_mem _ hlater, hpart⟩))

/-- A character without a meaning in lines gets into a line by a word or a file name only. -/
theorem not_mem (h : WritesPipeline stages text) {c : Char}
    (hc : c ≠ ' ' ∧ c ≠ '|' ∧ isOperatorChar c = false) (hparts : ∀ stage ∈ stages,
      ∀ part ∈ stage.argv ++ stage.redirects.targets, c ∉ part) : c ∉ text := by
  intro hmem
  rcases h.mem hmem with hspace | hpipe | hop | ⟨stage, hstage, part, hpart, hmem⟩
  · exact hc.1 hspace
  · exact hc.2.1 hpipe
  · exact absurd hop (by simp [hc.2.2])
  · exact hparts stage hstage part hpart hmem

/-- A pipeline is written without a comment if none begins in its words and targets. -/
theorem comment_free (h : WritesPipeline stages text) (hparts : ∀ stage ∈ stages,
      ∀ part ∈ stage.argv ++ stage.redirects.targets, CommentFree part) : CommentFree text := by
  induction h with
  | single hstage => exact hstage.comment_free (hparts _ List.mem_cons_self)
  | cons hstage hbefore hafter _ ih =>
      obtain ⟨hfirst, hrest⟩ := List.forall_mem_cons.mp hparts
      have hsegment := (hstage.comment_free hfirst).append (.blank hbefore)
      have hpipe : CommentFree ['|'] := .of_not_mem (by decide)
      exact hsegment.append (hpipe.append ((CommentFree.blank hafter).append (ih hrest)))

/-- A pipeline is never written as nothing, having a stage. -/
theorem ne_nil (h : WritesPipeline stages text)
    (hstages : ∀ stage ∈ stages, stage.WellFormed listing path) : text ≠ [] := by
  cases h with
  | single hstage => exact hstage.ne_nil (hstages _ List.mem_cons_self)
  | cons hstage _ _ _ =>
      have hne := hstage.ne_nil (hstages _ List.mem_cons_self)
      simp [hne]

/-- A written pipeline has no blanks at its ends. -/
theorem trimmed (h : WritesPipeline stages text)
    (hstages : ∀ stage ∈ stages, stage.WellFormed listing path) : Text.Trimmed text := by
  induction h with
  | single hstage => exact hstage.trimmed (hstages _ List.mem_cons_self)
  | @cons stage segment before after stages text hstage _ _ hwrites ih =>
      obtain ⟨hfirst, hrest⟩ := List.forall_mem_cons.mp hstages
      have hwhole : segment ++ before ++ '|' :: (after ++ text) =
          segment ++ ((before ++ '|' :: after) ++ text) := by
        simp only [List.append_assoc, List.cons_append]
      rw [hwhole]
      exact (hstage.trimmed hfirst).append_append (hstage.ne_nil hfirst) (hwrites.ne_nil hrest)
        (ih hrest) _

/-- The segments of a pipeline are the texts of its stages. -/
theorem segments_read (h : WritesPipeline stages text)
    (hstages : ∀ stage ∈ stages, stage.WellFormed listing path) :
    List.Forall₂ (Stage.ReadFrom listing path) (splitPipeline text) stages := by
  -- A bar in a written stage would have to stand in a word or a target.
  have hpipe : ∀ {stage : Stage} {segment : Text}, WritesStage stage segment →
      stage.WellFormed listing path → '|' ∉ segment := by
    intro stage segment hwrites hstage hmem
    rcases hwrites.mem hmem with hspace | hop | ⟨part, hpart, hmem⟩
    · cases hspace
    · cases hop
    · exact (hstage.char_of_part hpart hmem).1 rfl
  induction h with
  | single hwrites =>
      have hstage := hstages _ List.mem_cons_self
      rw [splitPipeline, List.splitOn_eq_singleton (hpipe hwrites hstage), List.map_singleton,
        (hwrites.trimmed hstage).trim_eq]
      exact .cons (hwrites.read_from hstage) .nil
  | @cons stage segment before after stages text hwrites hbefore hafter _ ih =>
      obtain ⟨hstage, hrest⟩ := List.forall_mem_cons.mp hstages
      have hseparator : '|' ∉ segment ++ before := by
        rw [List.mem_append, not_or]
        exact ⟨hpipe hwrites hstage, hbefore.not_mem (by decide)⟩
      have htrim : Text.trim (segment ++ before) = segment := by
        simpa using Text.trim_blank_append Text.blank_nil (hwrites.trimmed hstage) hbefore
      have hsegments : splitPipeline (segment ++ before ++ '|' :: (after ++ text)) =
          segment :: splitPipeline text := by
        rw [← split_pipeline_blank_append hafter text, splitPipeline, splitPipeline,
          List.splitOn_append_cons_self_of_not_mem hseparator, List.map_cons, htrim]
      rw [hsegments]
      exact .cons (hwrites.read_from hstage) (ih hrest)

end WritesPipeline

/-- However a pipeline is written, the line that it makes is read back as this pipeline. -/
theorem parse_line_of_writes {listing : Listing} {store : Store} {stages : List Stage}
    {before text after : Text} (hstages : ∀ stage ∈ stages, stage.Writable listing store.path?)
    (hwrites : WritesPipeline stages text) (hbefore : Text.Blank before)
    (hafter : Text.Blank after) :
    (parseLine listing store (before ++ text ++ after)).2 = .ok (.pipeline ⟨stages⟩) := by
  have hforms : ∀ stage ∈ stages, stage.WellFormed listing store.path? :=
    fun stage hstage => (hstages stage hstage).toWellFormed
  have htrimmed := hwrites.trimmed hforms
  have hne := hwrites.ne_nil hforms
  have hcomment : CommentFree text :=
    hwrites.comment_free fun stage hstage => (hstages stage hstage).no_comment
  have hreference : '$' ∉ text :=
    hwrites.not_mem (by decide) fun stage hstage => (hstages stage hstage).literal
  have hassignment : '=' ∉ text :=
    hwrites.not_mem (by decide) fun stage hstage part hpart hmem =>
      ((hforms stage hstage).char_of_part hpart hmem).2.1 rfl
  -- So each step of reading leaves the text as it is, and the segments are its stages.
  have hline : Text.trim (before ++ text ++ after) = text :=
    Text.trim_blank_append hbefore htrimmed hafter
  refine parse_line_eq_pipeline_iff.mpr ⟨⟨text, []⟩, ?_, ?_, ?_, ?_, ?_, ?_⟩
  · rwa [hline]
  · rw [hline]
    exact hcomment.head
  · rw [hline]
    exact substitute_eq_self hreference store
  · rwa [htrimmed.trim_eq]
  · rwa [htrimmed.trim_eq, hcomment.strip_comment_eq, htrimmed.trim_eq]
  · rw [htrimmed.trim_eq, hcomment.strip_comment_eq, htrimmed.trim_eq]
    exact hwrites.segments_read hforms

/-- Two stages, of which the first names its output before its input. -/
theorem parse_line_of_writes_two_stages :
    let first : Stage := ⟨.external ['/', 'a'], [['/', 'a'], ['x']],
      { input := some ['g'], output := some ['f', ' ', 'h'], append := true }⟩
    let second : Stage := ⟨.builtin .cd, [['c', 'd']], {}⟩
    let segment : Text := ['/', 'a', ' ', ' ', 'x', '>', '>', ' ', 'f', ' ', 'h', '<', 'g']
    let text : Text := segment ++ [] ++ '|' :: ([' '] ++ ['c', 'd'])
    let listing : Listing := fun _ => .ok []
    (∀ stage ∈ [first, second], stage.Writable listing none) ∧
    WritesPipeline [first, second] text ∧
    (parseLine listing .empty ([' '] ++ text ++ [' ', ' '])).2 =
      .ok (.pipeline ⟨[first, second]⟩) := by
  intro first second segment text listing
  have hfirst : first.Writable listing none := by
    have htargets : first.redirects.targets = [['g'], ['f', ' ', 'h']] := rfl
    refine ⟨⟨List.cons_ne_nil _ _, ?_, ?_, fun _ => rfl, ⟨_, rfl, rfl⟩⟩, ?_, ?_⟩
    · simp [first]
    · rw [htargets]
      refine List.forall_mem_cons.mpr ⟨?_, List.forall_mem_singleton.mpr ?_⟩
      · exact ⟨by simp, by decide, by simp⟩
      · exact ⟨by simp, by decide, by simp⟩
    · simp [first, htargets]
    · simp only [first, htargets, List.cons_append, List.nil_append, List.forall_mem_cons]
      exact ⟨by decide, by decide, by decide, by decide, by simp⟩
  have hsecond : second.Writable listing none := by
    refine ⟨⟨List.cons_ne_nil _ _, ?_, ?_, fun h => ?_, ⟨_, rfl, rfl⟩⟩, ?_, ?_⟩
    · simp [second]
    · simp [second, Redirects.targets]
    · cases h
    · simp [second, Redirects.targets]
    · rw [show second.argv ++ second.redirects.targets = [['c', 'd']] from rfl,
        List.forall_mem_singleton]
      decide
  have hstages : ∀ stage ∈ [first, second], stage.Writable listing none := by
    rw [List.forall_mem_cons, List.forall_mem_singleton]
    exact ⟨hfirst, hsecond⟩
  have hwords : WritesWords first.argv (['/', 'a'] ++ [' ', ' '] ++ ['x']) :=
    .cons _ (by decide) (by decide) (.single _)
  have hinput : WritesOperands [(.input, ['g'])]
      ([] ++ (Operator.input.symbol.toList ++ ([] ++ ['g'] ++ []))) :=
    .cons _ _ Text.blank_nil Text.blank_nil .nil
  have hoperands : WritesOperands [(.append, ['f', ' ', 'h']), (.input, ['g'])] _ :=
    .cons _ _ Text.blank_nil (by decide : Text.Blank [' ']) hinput
  have hsegment : WritesStage first segment := .intro (.inr rfl) hwords hoperands
  have hnone : second.redirects.HasOperands [] := .inl rfl
  have hlast : WritesStage second ['c', 'd'] := .intro hnone (.single _) .nil
  have hwrites : WritesPipeline [first, second] text :=
    .cons hsegment (by decide) (by decide) (.single hlast)
  exact ⟨hstages, hwrites, parse_line_of_writes hstages hwrites (by decide) (by decide)⟩

end LineShell
