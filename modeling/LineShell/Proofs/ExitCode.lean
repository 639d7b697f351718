import LineShell.Proofs.RunLaw

/-!
# The exit code of a run

A result carries an exit code beside the status of each stage. `StageStatus.Decides` says which code
a row of statuses stands for: that of the last stage that failed. `PipelineResult.Consistent` says
that a result has the code that its stages stand for, and `result_consistent` that every run gives
such a result, at whichever of its steps it ends.

A run that ends early writes its code down without a look at the stages. That it is the right one
hangs on the last stage: after a failed start the stages behind it are not started, so the last
status is always `notStarted`, whatever the children before it came to.
-/

namespace LineShell

namespace StageStatus

/-- The stage failed, and the code is the one that it failed with. -/
inductive FailsWith : StageStatus → Int → Prop where
  | exited {code : Int} : code ≠ 0 → FailsWith (.exited code) code
  | signaled (signal : Nat) : FailsWith (.signaled signal) (128 + signal)
  | notStarted : FailsWith .notStarted 126

/-- The statuses stand for the code: that of the last stage that failed, or 0 if none did. -/
inductive Decides : List StageStatus → Int → Prop where
  | success {stages : List StageStatus} : (∀ status ∈ stages, status = .exited 0) →
      Decides stages 0
  | failure {before after : List StageStatus} {status : StageStatus} {code : Int} :
      status.FailsWith code → (∀ later ∈ after, later = .exited 0) →
      Decides (before ++ status :: after) code

/-- The code that a status fails with is the one that is computed for it. -/
theorem failure_code?_eq_some_iff {status : StageStatus} {code : Int} :
    status.failureCode? = some code ↔ status.FailsWith code := by
  constructor
  · intro h
    cases status with
    | exited exit =>
        by_cases hexit : exit = 0
        · simp [failureCode?, hexit] at h
        · obtain rfl : exit = code := by simpa [failureCode?, hexit] using h
          exact .exited hexit
    | signaled signal =>
        obtain rfl := Option.some.inj h
        exact .signaled signal
    | notStarted =>
        obtain rfl := Option.some.inj h
        exact .notStarted
  · intro h
    cases h with
    | exited hcode => simp [failureCode?, hcode]
    | signaled signal => rfl
    | notStarted => rfl

/-- Only a stage that exited with 0 did not fail. -/
theorem failure_code?_eq_none_iff {status : StageStatus} :
    status.failureCode? = none ↔ status = .exited 0 := by
  cases status with
  | exited code => by_cases hcode : code = 0 <;> simp [failureCode?, hcode]
  | signaled signal => simp [failureCode?]
  | notStarted => simp [failureCode?]

/-- No failure is coded as 0. -/
theorem FailsWith.ne_zero {status : StageStatus} {code : Int} (h : status.FailsWith code) :
    code ≠ 0 := by
  cases h with
  | exited hcode => exact hcode
  | signaled signal => omega
  | notStarted => decide

/-- A stage that failed did not exit with 0. -/
theorem FailsWith.ne_exited_zero {status : StageStatus} {code : Int} (h : status.FailsWith code) :
    status ≠ .exited 0 := by
  rintro rfl
  have hnone : (StageStatus.exited 0).failureCode? = some code := failure_code?_eq_some_iff.mpr h
  cases hnone

/-- Statuses stand for their aggregate. -/
theorem decides_aggregate (stages : List StageStatus) : Decides stages (aggregate stages) := by
  unfold aggregate
  cases hfound : stages.reverse.findSome? failureCode? with
  | none =>
      rw [List.findSome?_eq_none_iff] at hfound
      refine .success fun status hstatus => ?_
      exact failure_code?_eq_none_iff.mp (hfound status (List.mem_reverse.mpr hstatus))
  | some code =>
      -- The first failure from the right splits the row.
      obtain ⟨after, status, before, hsplit, hcode, hafter⟩ :=
        List.findSome?_eq_some_iff.mp hfound
      obtain rfl : stages = before.reverse ++ status :: after.reverse := by
        have hreverse := congrArg List.reverse hsplit
        simpa using hreverse
      refine .failure (failure_code?_eq_some_iff.mp hcode) fun later hlater => ?_
      exact failure_code?_eq_none_iff.mp (hafter later (List.mem_reverse.mp hlater))

/-- There is but one code that statuses stand for. -/
theorem Decides.aggregate_eq {stages : List StageStatus} {code : Int} (h : Decides stages code) :
    aggregate stages = code := by
  unfold aggregate
  cases h with
  | success hall =>
      have hnone : stages.reverse.findSome? failureCode? = none :=
        List.findSome?_eq_none_iff.mpr fun status hstatus =>
          failure_code?_eq_none_iff.mpr (hall status (List.mem_reverse.mp hstatus))
      rw [hnone]
      rfl
  | @failure before after status _ hstatus hafter =>
      have hlater : after.reverse.findSome? failureCode? = none :=
        List.findSome?_eq_none_iff.mpr fun later hlater =>
          failure_code?_eq_none_iff.mpr (hafter later (List.mem_reverse.mp hlater))
      have hcode := failure_code?_eq_some_iff.mpr hstatus
      simp [List.findSome?_append, hlater, hcode]

/-- Statuses stand for 0 if every stage exited with 0, and only then. -/
theorem Decides.eq_zero_iff {stages : List StageStatus} {code : Int} (h : Decides stages code) :
    code = 0 ↔ ∀ status ∈ stages, status = .exited 0 := by
  cases h with
  | success hall => exact ⟨fun _ => hall, fun _ => rfl⟩
  | @failure before after status _ hstatus _ =>
      constructor
      · intro hzero
        exact absurd hzero hstatus.ne_zero
      · intro hall
        exact absurd (hall status (by simp)) hstatus.ne_exited_zero

/-- A row that ends with stages that were not started stands for the code of these. -/
theorem decides_append_replicate {n : Nat} (hn : n ≠ 0) (statuses : List StageStatus) :
    Decides (statuses ++ List.replicate n .notStarted) cannotExecute := by
  obtain ⟨k, rfl⟩ := Nat.exists_eq_succ_of_ne_zero hn
  have hlast : statuses ++ List.replicate (k + 1) .notStarted =
      (statuses ++ List.replicate k .notStarted) ++ .notStarted :: [] := by
    rw [List.replicate_succ', List.append_assoc]
  rw [hlast]
  exact .failure .notStarted (by simp)

end StageStatus

namespace PipelineResult

/-- The parts of a result of `n` stages agree with each other. -/
structure Consistent (result : PipelineResult) (n : Nat) : Prop where
  length : result.stages.length = n
  exit_code : result.exitCode = StageStatus.aggregate result.stages
  decides : StageStatus.Decides result.stages result.exitCode
  success_iff : result.success = true ↔ ∀ status ∈ result.stages, status = .exited 0
  not_started : result.started = false → ∀ status ∈ result.stages, status = .notStarted

/-- An error leaves its mark on the stages, so success needs no look at it. -/
theorem Consistent.of_decides {result : PipelineResult} {n : Nat} (hlength : result.stages.length = n)
    (hdecides : StageStatus.Decides result.stages result.exitCode)
    (herror : result.error.isSome = true → .notStarted ∈ result.stages)
    (hstarted : result.started = false → ∀ status ∈ result.stages, status = .notStarted) :
    result.Consistent n where
  length := hlength
  exit_code := hdecides.aggregate_eq.symm
  decides := hdecides
  success_iff := by
    rw [← hdecides.eq_zero_iff]
    cases hresult : result.error with
    | none => simp [success, hresult]
    | some e =>
        have hmem := herror (by rw [hresult]; rfl)
        have hcode : result.exitCode ≠ 0 := by
          intro hzero
          cases hdecides.eq_zero_iff.mp hzero _ hmem
        simp [success, hresult, hcode]
  not_started := hstarted

/-- The result of an empty pipeline is consistent. -/
theorem consistent_empty : (⟨0, false, [], none⟩ : PipelineResult).Consistent 0 :=
  .of_decides rfl (.success (by simp)) (by simp) (by simp)

/-- The result of a lone built-in command is consistent, whatever its code is. -/
theorem consistent_exited (code : Int) :
    (⟨code, true, [.exited code], none⟩ : PipelineResult).Consistent 1 := by
  refine .of_decides rfl ?_ (by simp) (by simp)
  by_cases hcode : code = 0
  · subst hcode
    exact .success (by simp)
  · show StageStatus.Decides ([] ++ [.exited code]) code
    exact .failure (.exited hcode) (by simp)

/-- The result of a run that was given up before its first stage is consistent, all stages being
down as not started. -/
theorem consistent_aborted {n : Nat} (hn : n ≠ 0) (e : ExecError) :
    (abortedBeforeSpawn n e).Consistent n := by
  refine .of_decides (by simp [abortedBeforeSpawn]) ?_ ?_ ?_
  · exact StageStatus.decides_append_replicate hn []
  · intro _
    simp [abortedBeforeSpawn, hn]
  · intro _ status hstatus
    exact List.eq_of_mem_replicate hstatus

end PipelineResult

namespace Desk

/-- Fewer children than stages were started if one could not be. -/
theorem Ending.length_lt {stages : List PreparedStage}
    {outcomes : List (Except SystemError ChildId)} {children : List ChildId} {e : ExecError}
    (h : Ending stages outcomes children (some e)) : children.length < stages.length := by
  rcases h.cases_error with ⟨hnone, _⟩ | ⟨_, _, _, _, hstage⟩
  · cases hnone
  · exact (List.getElem?_eq_some_iff.mp hstage).1

/-- The result of a run that started stages is consistent: the children that were waited for come
first, and the stages that were not started after them. -/
theorem consistent_collect {stages : List PreparedStage}
    {outcomes : List (Except SystemError ChildId)} {children : List ChildId}
    {error : Option ExecError} (h : Ending stages outcomes children error)
    {statuses : List StageStatus} (hstatuses : statuses.length = children.length) :
    (collect stages.length statuses error).Consistent stages.length := by
  have hle : statuses.length ≤ stages.length := hstatuses ▸ h.length_le
  have hlength : (collect stages.length statuses error).stages.length = stages.length := by
    rw [stages_collect]
    simp [hle]
  cases error with
  | none =>
      refine .of_decides hlength (StageStatus.decides_aggregate _) ?_ ?_
      · intro herror
        cases herror
      · intro hstarted
        cases hstarted
  | some e =>
      have hlt : stages.length - statuses.length ≠ 0 := by
        have := h.length_lt
        omega
      refine .of_decides hlength (StageStatus.decides_append_replicate hlt statuses) ?_ ?_
      · intro _
        rw [stages_collect]
        simp [hlt]
      · intro hstarted status hstatus
        -- Nothing was started, so no status is that of a child.
        obtain rfl : statuses = [] := by simpa [collect] using hstarted
        rw [stages_collect, List.nil_append] at hstatus
        exact List.eq_of_mem_replicate hstatus

variable {σ : Type} {host : Host σ} {pipeline : Pipeline} {desk desk' : Desk σ}

/-- A run without built-in commands has a consistent result, at whichever step it ends. -/
theorem ExternalRun.consistent {result : PipelineResult}
    (h : ExternalRun host pipeline desk result desk') (hne : pipeline.stages ≠ []) :
    result.Consistent pipeline.size := by
  have hsize : pipeline.size ≠ 0 := by simpa [Pipeline.size] using hne
  cases h with
  | unprepared _ => exact PipelineResult.consistent_aborted hsize _
  | unwired _ _ _ => exact PipelineResult.consistent_aborted hsize _
  | ran hprepare _ _ hran =>
      obtain ⟨error, hending, rfl⟩ := hran.result
      rw [← length_of_map_m_of_stage hprepare]
      exact consistent_collect hending (by simp)

/-- Every run has a consistent result. -/
theorem PipelineRun.consistent {result : PipelineResult}
    (h : PipelineRun host pipeline desk result desk') : result.Consistent pipeline.size := by
  cases h with
  | empty hstages =>
      have hsize : pipeline.size = 0 := by rw [Pipeline.size, hstages, List.length_nil]
      rw [hsize]
      exact PipelineResult.consistent_empty
  | builtin hstages _ _ =>
      have hsize : pipeline.size = 1 := by rw [Pipeline.size, hstages, List.length_singleton]
      rw [hsize]
      exact PipelineResult.consistent_exited _
  | mixed hsize _ =>
      have hne : pipeline.size ≠ 0 := by omega
      exact PipelineResult.consistent_aborted hne _
  | external _ hne hexternal => exact hexternal.consistent hne

end Desk

/-- The result of every run agrees with itself: its exit code is that of the last stage that failed,
it is a success if every stage exited with 0 and only then, and no stage has a status of its own if
nothing was started. -/
theorem result_consistent {σ : Type} (host : Host σ) (pipeline : Pipeline) (desk : Desk σ) :
    (desk.run host pipeline).1.Consistent pipeline.size :=
  (Desk.pipeline_run host pipeline desk).consistent

end LineShell
