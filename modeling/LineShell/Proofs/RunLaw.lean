import LineShell.Proofs.ReadyShell
import LineShell.Proofs.Run

/-!
# The law of a run

What a run of external stages does and what it comes to, whatever the system answers. `RunLaw` lists
it: the stages are started in order up to the first that cannot be, every child that was started is
waited for once and in order, and the result gives every stage the status that its child's reports
lead to. `run_law` proves it for every pipeline whose stages can be prepared and whose pipes can be
made.

`SettledBy` says which status a row of reports leads to: reports that the child still runs, or that
the wait was interrupted, count for nothing, however many there are.
-/

namespace LineShell

/-- The reports on a child settle its status. -/
inductive StageStatus.SettledBy : List WaitReport → StageStatus → Prop where
  | exited (code rest) : SettledBy (.exited code :: rest) (.exited code)
  | signaled (signal rest) : SettledBy (.signaled signal :: rest) (.signaled signal)
  | failed {cause} (rest) : cause ≠ .interrupted → SettledBy (.failed cause :: rest) .notStarted
  | changed {rest status} : SettledBy rest status → SettledBy (.changed :: rest) status
  | interrupted {rest status} : SettledBy rest status →
      SettledBy (.failed .interrupted :: rest) status

/-- The status of a child is the one that its reports settle. -/
theorem StageStatus.SettledBy.of_reports_eq {reports : List WaitReport} {status : StageStatus}
    (h : SettledBy reports status) : ofReports reports = status := by
  induction h with
  | exited | signaled => rfl
  | failed rest hcause => exact if_neg hcause
  | changed _ ih => exact ih
  | interrupted _ ih => exact ih

/-- What is true of every run of external stages that can be prepared, over pipes that can be made.
From `desk` the shell does the acts `before`, with the stages started in them on record as `starts`;
then it does the waits, and comes to `result`. -/
structure RunLaw {σ : Type} (host : Host σ) (pipeline : Pipeline) (desk desk' : Desk σ)
    (before : List Act) (starts : List Start) (waits : List Wait) (result : PipelineResult) :
    Prop where
  /-- The acts are all that is done, each with the answer that the system gave to it. -/
  steps : Desk.Steps host desk (before ++ waits.map Wait.act) desk'
  starts_eq : before.filterMap Act.start? = starts
  /-- Nothing else is waited for, and nothing before all stages are started. -/
  no_wait : ∀ act ∈ before, act.wait? = none
  /-- Stages are started in the order of the pipeline. -/
  stages : ∀ (i : Nat) start, starts[i]? = some start →
    ∃ stage, pipeline.stages[i]? = some stage ∧ start.stage.IsFormOf stage
  /-- Every stage is started, or the last start on record is the first that failed. Waited for are
  the children that were started, once each and in their order. -/
  outcomes : (starts.map (·.outcome) = waits.map (fun wait => .ok wait.child) ∧
      starts.length = pipeline.size) ∨
    ∃ cause, starts.map (·.outcome) = waits.map (fun wait => .ok wait.child) ++ [.error cause]
  length : result.stages.length = pipeline.size
  /-- A stage that was started has the status that the reports on its child settle. -/
  settled : ∀ (i : Nat) wait status, waits[i]? = some wait →
    StageStatus.SettledBy wait.reports status → result.stages[i]? = some status
  /-- All other stages are not started. -/
  not_started : ∀ i, waits.length ≤ i → i < pipeline.size →
    result.stages[i]? = some .notStarted
  /-- There is an error if some stage could not be started; it names the stage and says why. -/
  error : ∀ e, result.error = some e ↔
    ∃ (i : Nat) (start : Start) (stage : Stage) (cause : SystemError),
      starts[i]? = some start ∧ start.outcome = .error cause ∧
      pipeline.stages[i]? = some stage ∧ e = .fork stage.name cause
  started : result.started = true ↔ ∃ start ∈ starts, ∃ child, start.outcome = .ok child

namespace Desk

variable {stages : List PreparedStage} {outcomes : List (Except SystemError ChildId)}
  {children : List ChildId} {error : Option ExecError}

/-! ## How starting ends -/

/-- The children and the error that starting ends with, read off its outcomes. -/
theorem Ending.cases_error (h : Ending stages outcomes children error) :
    (error = none ∧ outcomes = children.map .ok ∧ outcomes.length = stages.length) ∨
    ∃ cause stage, error = some (.fork stage.name cause) ∧
      outcomes = children.map .ok ++ [.error cause] ∧ stages[children.length]? = some stage := by
  induction h with
  | all => exact .inl ⟨rfl, rfl, rfl⟩
  | failed stage rest cause => exact .inr ⟨cause, stage, rfl, rfl, rfl⟩
  | started stage child _ ih =>
      rcases ih with ⟨rfl, rfl, hlength⟩ | ⟨cause, failed, rfl, rfl, hfailed⟩
      · exact .inl ⟨rfl, rfl, by simpa using hlength⟩
      · exact .inr ⟨cause, failed, rfl, rfl, by simpa using hfailed⟩

/-! ## What the result says -/

/-- The statuses of the children come first, and the stages that were not started are down as such.
-/
theorem stages_collect (n : Nat) (statuses : List StageStatus) (error : Option ExecError) :
    (collect n statuses error).stages =
      statuses ++ List.replicate (n - statuses.length) .notStarted := by
  unfold collect
  cases error <;> rfl

/-- The stage of a child has the status of that child. -/
theorem get?_stages_collect {n i : Nat} {statuses : List StageStatus} (h : i < statuses.length)
    (error : Option ExecError) : (collect n statuses error).stages[i]? = statuses[i]? := by
  rw [stages_collect, List.getElem?_append_left h]

/-- The stages behind those that were started have no status of their own. -/
theorem get?_stages_collect_of_le {n i : Nat} {statuses : List StageStatus}
    (hle : statuses.length ≤ i) (hlt : i < n) (error : Option ExecError) :
    (collect n statuses error).stages[i]? = some .notStarted := by
  rw [stages_collect, List.getElem?_append_right hle, List.getElem?_replicate, if_pos (by omega)]

/-- The error of a run is that of its start. -/
theorem error_collect (n : Nat) (statuses : List StageStatus) (error : Option ExecError) :
    (collect n statuses error).error = error := by
  unfold collect
  cases error <;> rfl

/-- A run counts as started unless its first stage could not be. -/
theorem started_collect (n : Nat) (statuses : List StageStatus) (error : Option ExecError) :
    (collect n statuses error).started = (error.isNone || !statuses.isEmpty) := by
  unfold collect
  cases error <;> rfl

/-! ## Reading a row of outcomes -/

/-- The failed start comes right after the children that were started. -/
theorem error_mem_outcomes_iff {cause cause' : SystemError} {i : Nat} :
    (children.map Except.ok ++ [Except.error cause])[i]? = some (.error cause') ↔
      i = children.length ∧ cause' = cause := by
  rcases Nat.lt_trichotomy i children.length with hlt | rfl | hgt
  · have hlt' : i < (children.map (Except.ok (ε := SystemError))).length := by simpa using hlt
    rw [List.getElem?_append_left hlt', List.getElem?_map]
    simp [hlt, Nat.ne_of_lt hlt]
  · simp [eq_comm]
  · have hout : (children.map Except.ok ++ [Except.error cause])[i]? = none :=
      List.getElem?_eq_none (by simpa using Nat.succ_le_of_lt hgt)
    rw [hout]
    simp [Nat.ne_of_gt hgt]

/-- As many children are waited for as were started. -/
theorem Ending.length_le (h : Ending stages outcomes children error) :
    children.length ≤ stages.length := by
  induction h with
  | all => exact Nat.le_refl 0
  | failed stage rest cause => exact Nat.zero_le _
  | started stage child _ ih => exact Nat.succ_le_succ ih

/-- The error is that of the failed start. -/
theorem Ending.error_iff (h : Ending stages outcomes children error) {e : ExecError} :
    error = some e ↔ ∃ (i : Nat) (stage : PreparedStage) (cause : SystemError),
      outcomes[i]? = some (.error cause) ∧ stages[i]? = some stage ∧
        e = .fork stage.name cause := by
  rcases h.cases_error with ⟨rfl, rfl, _⟩ | ⟨cause, stage, rfl, rfl, hstage⟩
  · simp
  · constructor
    · intro he
      exact ⟨children.length, stage, cause, error_mem_outcomes_iff.mpr ⟨rfl, rfl⟩, hstage,
        (Option.some.inj he).symm⟩
    · rintro ⟨i, stage', cause', hcause, hstage', rfl⟩
      obtain ⟨rfl, rfl⟩ := error_mem_outcomes_iff.mp hcause
      rw [hstage] at hstage'
      rw [Option.some.inj hstage']

/-- A stage was started if some outcome is a child. -/
theorem Ending.exists_child_iff (h : Ending stages outcomes children error)
    (hne : stages ≠ []) :
    (error.isNone || !children.isEmpty) = true ↔ ∃ child, .ok child ∈ outcomes := by
  rcases h.cases_error with ⟨rfl, rfl, hlength⟩ | ⟨cause, stage, rfl, rfl, _⟩
  · cases children with
    | nil => exact absurd (List.length_eq_zero_iff.mp hlength.symm) hne
    | cons child rest => simp
  · cases children <;> simp

variable {σ : Type} {host : Host σ} {pipeline : Pipeline} {desk middle desk' : Desk σ}
  {pipes : List (Descriptor × Descriptor)} {waits : List Wait} {result : PipelineResult}

/-- The error, read off the starts that are on record. -/
theorem Ending.start_error_iff (h : Ending stages outcomes children error)
    (hprepare : pipeline.stages.mapM PreparedStage.ofStage = .ok stages) {begun : List Start}
    (houtcomes : begun.map (·.outcome) = outcomes)
    (hstages : ∀ (i : Nat) start, begun[i]? = some start → stages[i]? = some start.stage)
    {e : ExecError} : error = some e ↔
      ∃ (i : Nat) (start : Start) (stage : Stage) (cause : SystemError), begun[i]? = some start ∧
        start.outcome = .error cause ∧ pipeline.stages[i]? = some stage ∧
        e = .fork stage.name cause := by
  rw [h.error_iff]
  constructor
  · rintro ⟨i, prepared, cause, hcause, hprepared, rfl⟩
    rw [← houtcomes, List.getElem?_map] at hcause
    obtain ⟨start, hstart, hcause⟩ := Option.map_eq_some_iff.mp hcause
    obtain ⟨stage, hstage, hform⟩ := PreparedStage.is_form_of_of_get? hprepare hprepared
    exact ⟨i, start, stage, cause, hstart, hcause, hstage, by rw [hform.name]⟩
  · rintro ⟨i, start, stage, cause, hstart, hcause, hstage, rfl⟩
    have hprepared := hstages i start hstart
    obtain ⟨stage', hstage', hform⟩ := PreparedStage.is_form_of_of_get? hprepare hprepared
    obtain rfl := Option.some.inj (hstage.symm.trans hstage')
    refine ⟨i, start.stage, cause, ?_, hprepared, by rw [hform.name]⟩
    rw [← houtcomes, List.getElem?_map, hstart, Option.map_some, hcause]

/-- Stages that were prepared, run over pipes that were made for them, obey the law of runs. -/
theorem Ran.law (hprepare : pipeline.stages.mapM PreparedStage.ofStage = .ok stages)
    (hpiped : Piped host desk pipes middle) (hlength : pipes.length + 1 = pipeline.size)
    (hran : Ran host stages pipes middle outcomes waits result desk') :
    ∃ before starts waits, RunLaw host pipeline desk desk' before starts waits result := by
  obtain ⟨error, hending, rfl⟩ := hran.result
  have hsize : stages.length = pipeline.size := length_of_map_m_of_stage hprepare
  have hrow : (Wiring.chain none pipes).length = stages.length := by
    rw [Wiring.length_chain, hlength, hsize]
  have hne : stages ≠ [] := by
    rintro rfl
    rw [← hsize] at hlength
    exact Nat.succ_ne_zero _ hlength
  have hwaits : waits.length ≤ stages.length := by simpa using hending.length_le
  have hsteps := hran.all_steps hpiped
  -- From here on the starts matter by their outcomes and their stages only.
  have houtcomes : (starts middle.context.table stages (Wiring.chain none pipes) outcomes).map
      (·.outcome) = outcomes := (hending.map_starts hrow).1
  have hstages : ∀ (i : Nat) start,
      (starts middle.context.table stages (Wiring.chain none pipes) outcomes)[i]? = some start →
      stages[i]? = some start.stage := fun i start h => (stage_of_starts_get? h).1
  generalize starts middle.context.table stages (Wiring.chain none pipes) outcomes = begun at *
  refine ⟨_, begun, waits, hsteps, Act.filter_map_start?_before_waits .., Act.wait?_before_waits,
    ?_, ?_, ?_, ?_, ?_, ?_, ?_⟩
  · intro i start hstart
    exact PreparedStage.is_form_of_of_get? hprepare (hstages i start hstart)
  · rcases hending.cases_error with ⟨_, hall, hcount⟩ | ⟨cause, _, _, hfailed, _⟩
    · refine .inl ⟨by rw [houtcomes, hall, List.map_map]; rfl, ?_⟩
      rw [← hsize, ← hcount, ← houtcomes, List.length_map]
    · exact .inr ⟨cause, by rw [houtcomes, hfailed, List.map_map]; rfl⟩
  · rw [stages_collect, ← hsize]
    simp [hwaits]
  · intro i wait status hwait hsettled
    have hlt : i < (waits.map Wait.status).length := by
      simpa using (List.getElem?_eq_some_iff.mp hwait).1
    rw [get?_stages_collect hlt, List.getElem?_map, hwait, Option.map_some, Wait.status,
      hsettled.of_reports_eq]
  · intro i hle hlt
    rw [← hsize] at hlt
    exact get?_stages_collect_of_le (by simpa using hle) hlt error
  · intro e
    rw [error_collect]
    exact hending.start_error_iff hprepare houtcomes hstages
  · have hstarted := hending.exists_child_iff hne
    rw [started_collect]
    simp only [List.isEmpty_map] at hstarted ⊢
    rw [hstarted, ← houtcomes]
    simp only [List.mem_map]
    exact ⟨fun ⟨child, start, hstart, h⟩ => ⟨start, hstart, child, h⟩,
      fun ⟨start, hstart, child, h⟩ => ⟨child, start, hstart, h⟩⟩

end Desk

/-- Whatever the system answers, a run of external stages obeys the law of runs, if no text of them
holds a NUL character and the pipes can be made. -/
theorem run_law {σ : Type} (host : Host σ) (pipeline : Pipeline) (desk : Desk σ) (wiring : Wiring)
    (hexternal : pipeline.builtin? = none) (hne : pipeline.stages ≠ [])
    (hfree : ∀ stage ∈ pipeline.stages, stage.NulFree)
    (hwire : (desk.wire host pipeline.size).1 = .ok wiring) :
    ∃ before starts waits, RunLaw host pipeline desk (desk.run host pipeline).2 before starts waits
      (desk.run host pipeline).1 := by
  have hrun := Desk.run_external_run host hexternal hne desk
  generalize desk.run host pipeline = run at hrun ⊢
  obtain ⟨result, desk'⟩ := run
  cases hrun with
  | unprepared hfailed =>
      obtain ⟨prepared, hprepare⟩ := PreparedStage.exists_prepared hexternal hfree
      rw [hprepare] at hfailed
      cases hfailed
  | unwired _ hfailed _ =>
      rw [hwire] at hfailed
      cases hfailed
  | ran hprepare hpiped hlength hran => exact hran.law hprepare hpiped hlength

/-- Three stages, of which the first exits with a code and the second cannot be started. -/
theorem run_law_with_failed_fork :
    let stage (name : Char) : Stage := ⟨.external ['/', name], [[name]], {}⟩
    let pipeline : Pipeline := ⟨[stage 'a', stage 'b', stage 'c']⟩
    let host := Rehearsal.host (World.host [])
    let desk := Desk.rehearsed [.ends (.exited 3), .fails .tryAgain]
    let run := desk.run host pipeline
    (pipeline.builtin? = none ∧ pipeline.stages ≠ [] ∧ (∀ stage ∈ pipeline.stages, stage.NulFree) ∧
      ∃ wiring, (desk.wire host pipeline.size).1 = .ok wiring) ∧
    run.1.stages = [.exited 3, .notStarted, .notStarted] ∧
    run.1.error = some (.fork ['b'] .tryAgain) ∧
    ∃ before starts waits, RunLaw host pipeline desk run.2 before starts waits run.1 := by
  intro stage pipeline host desk run
  have hne : pipeline.stages ≠ [] := List.cons_ne_nil _ _
  have hfree : ∀ stage ∈ pipeline.stages, stage.NulFree := by
    unfold Stage.NulFree
    decide
  exact ⟨⟨rfl, hne, hfree, _, rfl⟩, rfl, rfl, run_law host pipeline desk _ rfl hne hfree rfl⟩

end LineShell
