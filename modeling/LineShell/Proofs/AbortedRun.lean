import LineShell.Proofs.PipeEnds

/-!
# Runs that are given up before the first start

Three things stand in the way of a run: a built-in command beside other stages, a text with a NUL
character, and a pipe that cannot be made. `Desk.Obstructed` says that at least one of them is
there, in any number and at any place, and `Desk.Obstacle` which one decides. The main statement is
`aborted_of_obstructed`: an obstructed run reports that one and has no effect, and no other run ends
in this way.
-/

namespace LineShell

namespace Desk

variable {σ : Type} {host : Host σ} {pipeline : Pipeline} {desk desk' middle : Desk σ}
  {pipes : List (Descriptor × Descriptor)} {n : Nat} {cause : SystemError} {e : ExecError}

/-! ## Pipes that cannot be made -/

/-- Of `n` pipes that are made one after the other, starting at `desk`, one cannot be made. -/
inductive PipeFailure (host : Host σ) : Nat → Desk σ → SystemError → Prop where
  | here {n : Nat} {desk : Desk σ} {cause : SystemError} :
      (desk.makePipe host).1 = .error cause → PipeFailure host (n + 1) desk cause
  | later {n : Nat} {desk middle : Desk σ} {ends : Descriptor × Descriptor} {cause : SystemError} :
      desk.makePipe host = (.ok ends, middle) → PipeFailure host n middle cause →
      PipeFailure host (n + 1) desk cause

/-- Making pipes stops exactly at a pipe that cannot be made. -/
theorem make_pipes_eq_some_iff :
    (desk.makePipes host n).1.2 = some cause ↔ PipeFailure host n desk cause := by
  induction n generalizing desk with
  | zero =>
      constructor
      · intro h
        cases h
      · intro h
        cases h
  | succ n ih =>
      -- The first pipe decides if it cannot be made, and the others decide if it can.
      rw [makePipes]
      split
      · rename_i cause' desk' hpipe
        constructor
        · intro h
          cases h
          exact .here (by rw [hpipe])
        · intro h
          cases h with
          | here hhere =>
              rw [hpipe] at hhere
              cases hhere
              rfl
          | later hlater _ => cases hpipe.symm.trans hlater
      · rename_i ends middle hpipe
        constructor
        · intro h
          exact .later hpipe (ih.mp h)
        · intro h
          cases h with
          | here hhere =>
              rw [hpipe] at hhere
              cases hhere
          | later hlater hrest =>
              cases hpipe.symm.trans hlater
              exact ih.mpr hrest

/-- The wiring of a pipeline fails exactly at one of its pipes, of which there are one fewer than
stages. -/
theorem wire_eq_error_iff :
    (desk.wire host n).1 = .error cause ↔ PipeFailure host (n - 1) desk cause := by
  rw [← make_pipes_eq_some_iff, wire]
  split
  · rename_i hpipes
    simp [hpipes]
  · rename_i hpipes
    simp [hpipes]

/-- Where no pipe is made, none fails. -/
theorem PipeFailure.pos (h : PipeFailure host n desk cause) : 0 < n := by
  cases h with
  | here _ | later _ _ => exact Nat.succ_pos _

/-- A step that makes a pipe is what making one at that desk does. -/
theorem make_pipe_of_step {reader writer : Descriptor}
    (h : Step host desk (.piped reader writer) desk') :
    desk.makePipe host = (.ok (reader, writer), desk') := by
  generalize hact : Act.piped reader writer = act at h
  cases h with
  | piped hpipe =>
      cases hact
      exact hpipe
  | closed _ | spawned _ | waited _ => cases hact

/-- Fewer pipes can be made than were asked for if one of those fails. -/
theorem PipeFailure.length_lt (h : PipeFailure host n desk cause)
    (hsteps : Steps host desk (pipes.map fun ends => .piped ends.1 ends.2) middle) :
    pipes.length < n := by
  induction h generalizing pipes with
  | here hhere =>
      cases pipes with
      | nil => exact Nat.succ_pos _
      | cons ends rest =>
          cases hsteps with
          | cons hstep _ =>
              rw [make_pipe_of_step hstep] at hhere
              cases hhere
  | later hpipe _ ih =>
      cases pipes with
      | nil => exact Nat.succ_pos _
      | cons ends rest =>
          cases hsteps with
          | cons hstep hrest =>
              cases hpipe.symm.trans (make_pipe_of_step hstep)
              exact Nat.succ_lt_succ (ih hrest)

/-! ## What stands in the way of a run -/

/-- Something stands in the way of the run: a built-in command beside other stages, a NUL character
in a pipeline without built-in commands, or a pipe that cannot be made. -/
def Obstructed (host : Host σ) (pipeline : Pipeline) (desk : Desk σ) : Prop :=
  (2 ≤ pipeline.size ∧ ∃ stage ∈ pipeline.stages, stage.builtin? ≠ none) ∨
  ((∀ stage ∈ pipeline.stages, stage.builtin? = none) ∧
    ∃ stage ∈ pipeline.stages, ¬ stage.NulFree) ∨
  ∃ cause, PipeFailure host (pipeline.size - 1) desk cause

/-- What is reported if several things stand in the way of a run: a built-in command before a text
with a NUL character, and that before a pipe. Among the texts the first counts, by stage. -/
inductive Obstacle (host : Host σ) (pipeline : Pipeline) (desk : Desk σ) : ExecError → Prop where
  | builtin {command : Builtin} : 2 ≤ pipeline.size → pipeline.builtin? = some command →
      Obstacle host pipeline desk (.builtinInPipeline command)
  | nul {text : Text} : pipeline.builtin? = none →
      (pipeline.stages.flatMap Stage.systemTexts).find? ('\x00' ∈ ·) = some text →
      Obstacle host pipeline desk (.nulByte text)
  | pipe {cause : SystemError} : pipeline.builtin? = none →
      (∀ stage ∈ pipeline.stages, stage.NulFree) →
      PipeFailure host (pipeline.size - 1) desk cause → Obstacle host pipeline desk (.pipe cause)

/-- Some text of a pipeline holds a NUL character exactly if a first one does. -/
theorem exists_find?_nul {stages : List Stage} (h : ∃ stage ∈ stages, ¬ stage.NulFree) :
    ∃ text, (stages.flatMap Stage.systemTexts).find? ('\x00' ∈ ·) = some text := by
  obtain ⟨stage, hstage, hnul⟩ := h
  rw [← Option.isSome_iff_exists, List.find?_isSome]
  simp only [Stage.NulFree, not_forall, not_not] at hnul
  obtain ⟨text, htext, hmem⟩ := hnul
  exact ⟨text, List.mem_flatMap.mpr ⟨stage, hstage, htext⟩, by simpa using hmem⟩

/-- Where anything stands in the way of a run, one thing decides. -/
theorem Obstructed.exists_obstacle (h : Obstructed host pipeline desk) :
    ∃ e, Obstacle host pipeline desk e := by
  cases hbuiltin : pipeline.builtin? with
  | some command =>
      refine ⟨_, .builtin ?_ hbuiltin⟩
      obtain ⟨stage, hstage, hcommand⟩ := List.exists_of_findSome?_eq_some hbuiltin
      obtain ⟨hsize, _⟩ | ⟨hexternal, _⟩ | ⟨cause, hfailure⟩ := h
      · exact hsize
      · cases hcommand.symm.trans (hexternal stage hstage)
      · have hpos := hfailure.pos
        omega
  | none =>
      have hexternal : ∀ stage ∈ pipeline.stages, stage.builtin? = none :=
        List.findSome?_eq_none_iff.mp hbuiltin
      by_cases hfree : ∀ stage ∈ pipeline.stages, stage.NulFree
      · obtain ⟨_, stage, hstage, hcommand⟩ | ⟨_, stage, hstage, hnul⟩ | ⟨cause, hfailure⟩ := h
        · exact absurd (hexternal stage hstage) hcommand
        · exact absurd (hfree stage hstage) hnul
        · exact ⟨_, .pipe hbuiltin hfree hfailure⟩
      · have hnul : ∃ stage ∈ pipeline.stages, ¬ stage.NulFree := by
          simpa only [not_forall, exists_prop] using hfree
        obtain ⟨text, htext⟩ := exists_find?_nul hnul
        exact ⟨_, .nul hbuiltin htext⟩

/-! ## Runs without effect -/

/-- The run from `desk` to `desk'` with the given acts was given up because of `e` before anything
was started, and left nothing behind. -/
structure Aborted (pipeline : Pipeline) (e : ExecError) (desk : Desk σ) (acts : List Act)
    (result : PipelineResult) (desk' : Desk σ) : Prop where
  acts_eq : desk'.acts = desk.acts ++ acts
  no_start : acts.filterMap Act.start? = []
  no_wait : acts.filterMap Act.wait? = []
  directory : desk'.context.directory = desk.context.directory
  table : desk'.context.table = desk.context.table
  /-- The pipes that could be made are closed again. -/
  ends : ∀ reader writer, .piped reader writer ∈ acts →
    reader ∉ desk'.context.table.used ∧ writer ∉ desk'.context.table.used
  /-- Unless a pipe could not be made, nothing was done at all. -/
  untouched : (∀ cause, e ≠ .pipe cause) → desk' = desk
  exit_code : result.exitCode = 126
  started : result.started = false
  stages : result.stages = List.replicate pipeline.size .notStarted
  error : result.error = some e

/-- A run that is given up at once. -/
theorem Aborted.at_once (pipeline : Pipeline) (e : ExecError) (desk : Desk σ) :
    Aborted pipeline e desk [] (.abortedBeforeSpawn pipeline.size e) desk where
  acts_eq := (List.append_nil _).symm
  no_start := rfl
  no_wait := rfl
  directory := rfl
  table := rfl
  ends := by simp
  untouched _ := rfl
  exit_code := rfl
  started := rfl
  stages := rfl
  error := rfl

/-- The ends of pipes that a run makes are new to the shell. -/
theorem Piped.fresh_of_mem {reader writer : Descriptor} {ds : List Descriptor}
    (h : Piped host desk pipes middle)
    (hmem : Act.piped reader writer ∈ Act.beforeWaits pipes [] ds) :
    reader ∉ desk.context.table.used ∧ writer ∉ desk.context.table.used := by
  obtain ⟨ends, hends, heq⟩ :
      ∃ ends ∈ pipes, Act.piped ends.1 ends.2 = Act.piped reader writer := by
    simpa only [Act.beforeWaits, List.flatMap_nil, List.append_nil, List.mem_append, List.mem_map,
      reduceCtorEq, and_false, exists_false, or_false] using hmem
  cases heq
  have hreader : ends.1 ∈ pipeEnds pipes := List.mem_flatMap.mpr ⟨ends, hends, by simp⟩
  have hwriter : ends.2 ∈ pipeEnds pipes := List.mem_flatMap.mpr ⟨ends, hends, by simp⟩
  exact ⟨h.fresh _ hreader, h.fresh _ hwriter⟩

/-- A run that is given up when a pipe cannot be made behind the given ones. -/
theorem Piped.aborted (h : Piped host desk pipes middle) (hne : pipeline.stages ≠ []) :
    Aborted pipeline (.pipe cause) desk
      (Act.beforeWaits pipes [] (Wiring.ofPipes pipeline.size pipes).pending)
      (.abortedBeforeSpawn pipeline.size (.pipe cause))
      (middle.closeAll (Wiring.ofPipes pipeline.size pipes).pending) := by
  have hsize : pipeline.size ≠ 0 := by simpa [Pipeline.size] using hne
  have hpending : (Wiring.ofPipes pipeline.size pipes).pending =
      (Wiring.chain none pipes).flatMap StageEnds.toList := by
    rw [Wiring.of_pipes_eq_of_row hsize, Wiring.pending_of_row]
  rw [hpending]
  generalize hleft : (Wiring.chain none pipes).flatMap StageEnds.toList = left
  have htable : (middle.closeAll left).context.table = desk.context.table := by
    rw [context_close_all, ← hleft]
    exact h.close_all_ends
  refine ⟨(h.close_all_steps left).acts_eq, Act.filter_map_start?_before_waits pipes [] left,
    Act.filter_map_wait?_eq_nil Act.wait?_before_waits, ?_, htable, ?_, ?_, rfl, rfl, rfl, rfl⟩
  · rw [context_close_all, h.context]
  · intro reader writer hmem
    rw [htable]
    exact h.fresh_of_mem hmem
  · intro hpipe
    exact absurd rfl (hpipe cause)

/-- Nothing stands in the way of a pipeline without stages. -/
theorem Obstacle.stages_ne_nil (h : Obstacle host pipeline desk e) : pipeline.stages ≠ [] := by
  intro hnil
  cases h with
  | builtin hsize _ => simp [Pipeline.size, hnil] at hsize
  | nul _ hfound => simp [hnil] at hfound
  | pipe _ _ hfailure =>
      have hpos := hfailure.pos
      simp [Pipeline.size, hnil] at hpos

/-- The obstacle that decides is what a run without built-in commands is given up for, with no
effect. -/
theorem ExternalRun.aborted {result : PipelineResult}
    (h : ExternalRun host pipeline desk result desk') (hexternal : pipeline.builtin? = none)
    (hobstacle : Obstacle host pipeline desk e) :
    ∃ acts, Aborted pipeline e desk acts result desk' := by
  have hne := hobstacle.stages_ne_nil
  cases hobstacle with
  | builtin _ hcommand => cases hcommand.symm.trans hexternal
  | nul _ hfound =>
      have herror := (PreparedStage.map_m_of_stage_eq_error_iff hexternal).mpr ⟨_, hfound, rfl⟩
      cases h with
      | unprepared hprepare =>
          cases herror.symm.trans hprepare
          exact ⟨[], .at_once pipeline _ _⟩
      | unwired hprepare _ _ | ran hprepare _ _ _ => cases herror.symm.trans hprepare
  | pipe _ hfree hfailure =>
      obtain ⟨prepared, hprepared⟩ := PreparedStage.exists_prepared hexternal hfree
      cases h with
      | unprepared hprepare => cases hprepared.symm.trans hprepare
      | unwired _ hwire hpiped =>
          cases (wire_eq_error_iff.mpr hfailure).symm.trans hwire
          exact ⟨_, hpiped.aborted hne⟩
      | ran _ hpiped hlength _ =>
          -- All pipes were made, so none of them failed.
          have hlt := hfailure.length_lt hpiped.steps
          omega

/-- The obstacle that decides is what the run is given up for. -/
theorem PipelineRun.aborted {result : PipelineResult}
    (h : PipelineRun host pipeline desk result desk') (hobstacle : Obstacle host pipeline desk e) :
    ∃ acts, Aborted pipeline e desk acts result desk' := by
  cases h with
  | empty hnil => exact absurd hnil hobstacle.stages_ne_nil
  | builtin hsingle hcommand _ =>
      -- Nothing stands in the way of a lone built-in command.
      cases hobstacle with
      | builtin hsize _ => simp [Pipeline.size, hsingle] at hsize
      | nul hexternal _ | pipe hexternal _ _ =>
          simp [Pipeline.builtin?, hsingle, hcommand] at hexternal
  | mixed _ hfirst =>
      cases hobstacle with
      | builtin _ hcommand =>
          cases hcommand.symm.trans hfirst
          exact ⟨[], .at_once pipeline _ _⟩
      | nul hexternal _ | pipe hexternal _ _ => cases hfirst.symm.trans hexternal
  | external hexternal _ hrun => exact hrun.aborted hexternal hobstacle

/-! ## Nothing else has no effect -/

/-- Where there are stages, at least one was tried. -/
theorem Ending.outcomes_ne_nil {stages : List PreparedStage}
    {outcomes : List (Except SystemError ChildId)} {children : List ChildId}
    {error : Option ExecError} (h : Ending stages outcomes children error) (hne : stages ≠ []) :
    outcomes ≠ [] := by
  cases h with
  | all => exact absurd rfl hne
  | failed stage rest cause | started stage child _ => exact List.cons_ne_nil _ _

/-- A stage that was tried is among the starts. -/
theorem starts_ne_nil {table : Table} {stages : List PreparedStage}
    {outcomes : List (Except SystemError ChildId)} (hstages : stages ≠ [])
    (houtcomes : outcomes ≠ []) :
    starts table stages (Wiring.chain none pipes) outcomes ≠ [] := by
  obtain ⟨stage, stages, rfl⟩ := List.exists_cons_of_ne_nil hstages
  obtain ⟨outcome, outcomes, rfl⟩ := List.exists_cons_of_ne_nil houtcomes
  cases pipes with
  | nil => exact List.cons_ne_nil _ _
  | cons ends pipes => exact List.cons_ne_nil _ _

/-- A run that gets as far as its stages starts the first of them. -/
theorem Ran.not_aborted {stages : List PreparedStage}
    {outcomes : List (Except SystemError ChildId)} {waits : List Wait} {result : PipelineResult}
    {acts : List Act} (h : Ran host stages pipes middle outcomes waits result desk')
    (hpiped : Piped host desk pipes middle) (hne : stages ≠ []) :
    ¬ Aborted pipeline e desk acts result desk' := by
  intro haborted
  obtain ⟨error, hending, _⟩ := h.result
  have hacts := (h.all_steps hpiped).acts_eq
  rw [haborted.acts_eq] at hacts
  have hstarts := haborted.no_start
  rw [List.append_cancel_left hacts, Act.filter_map_start?_run] at hstarts
  exact starts_ne_nil hne (hending.outcomes_ne_nil hne) hstarts

/-- A run that was given up before anything was started had an obstacle in its way. -/
theorem PipelineRun.obstacle {result : PipelineResult} {acts : List Act}
    (h : PipelineRun host pipeline desk result desk')
    (haborted : Aborted pipeline e desk acts result desk') : Obstacle host pipeline desk e := by
  have herror := haborted.error
  cases h with
  | empty _ | builtin _ _ _ => cases herror
  | mixed hsize hcommand =>
      cases herror
      exact .builtin hsize hcommand
  | external hexternal hne hrun =>
      cases hrun with
      | unprepared hprepare =>
          cases herror
          obtain ⟨text, hfound, rfl⟩ :=
            (PreparedStage.map_m_of_stage_eq_error_iff hexternal).mp hprepare
          exact .nul hexternal hfound
      | unwired hprepare hwire _ =>
          cases herror
          exact .pipe hexternal (PreparedStage.nul_free_of_map_m hprepare)
            (wire_eq_error_iff.mp hwire)
      | @ran stages _ _ _ _ _ _ hprepare hpiped _ hran =>
          have hsome : stages ≠ [] := by
            intro hnil
            have hlength := length_of_map_m_of_stage hprepare
            rw [hnil] at hlength
            exact hne (List.length_eq_zero_iff.mp hlength.symm)
          exact absurd haborted (hran.not_aborted hpiped hsome)

end Desk

/-- Whatever stands in the way of a run, the run has no effect: nothing is started or awaited, the
working directory stays, no end of a pipe is kept, and the result is that of stages of which none
was started, with the obstacle that decides as its error. Nothing but an obstacle makes a run end
so. -/
theorem aborted_of_obstructed {σ : Type} (host : Host σ) (pipeline : Pipeline) (desk : Desk σ) :
    (Desk.Obstructed host pipeline desk → ∃ e acts, Desk.Obstacle host pipeline desk e ∧
      Desk.Aborted pipeline e desk acts (desk.run host pipeline).1 (desk.run host pipeline).2) ∧
    ∀ e acts,
      Desk.Aborted pipeline e desk acts (desk.run host pipeline).1 (desk.run host pipeline).2 →
      Desk.Obstacle host pipeline desk e := by
  have hrun := Desk.pipeline_run host pipeline desk
  constructor
  · intro h
    obtain ⟨e, hobstacle⟩ := h.exists_obstacle
    obtain ⟨acts, haborted⟩ := hrun.aborted hobstacle
    exact ⟨e, acts, hobstacle, haborted⟩
  · intro e acts haborted
    exact hrun.obstacle haborted

/-- Three stages in a shell with room for one pipe only. -/
theorem aborted_of_second_pipe :
    let stage (name : Char) : Stage := ⟨.external ['/', name], [[name]], {}⟩
    let pipeline : Pipeline := ⟨[stage 'a', stage 'b', stage 'c']⟩
    let host := World.host []
    let desk : Desk World :=
      ⟨⟨World.firstTable (some 5), [], 0⟩, World.start .empty .empty, []⟩
    Desk.Obstructed host pipeline desk ∧
    (desk.run host pipeline).1.error = some (.pipe .tooManyOpenFiles) ∧
    ∃ e acts, Desk.Obstacle host pipeline desk e ∧
      Desk.Aborted pipeline e desk acts (desk.run host pipeline).1 (desk.run host pipeline).2 := by
  intro stage pipeline host desk
  have h : Desk.Obstructed host pipeline desk :=
    .inr (.inr ⟨.tooManyOpenFiles, .later rfl (.here rfl)⟩)
  exact ⟨h, rfl, (aborted_of_obstructed host pipeline desk).1 h⟩

end LineShell
