import LineShell.Proofs.PipeEnds
import Mathlib.Data.List.Count

/-!
# No descriptor is left open

Running a pipeline makes descriptors, two for each pipe, and every one of them is closed again, once
and by the shell itself, whether the stages are all started, one of them cannot be, or a pipe cannot
be made (`no_descriptor_leak`). So a shell that runs any pipelines has the same descriptors open
after each of them.

The ends of a run are closed in two ways: those of a stage right after its start, and those that no
stage took at the end. Together they are the ends of the whole chain (`Ran.closed_perm`).
-/

namespace LineShell

/-! ## What acts make and close -/

namespace Act

/-- The pipe ends that an act makes. -/
def made : Act → List Descriptor
  | piped reader writer => [reader, writer]
  | closed _ | spawned .. | waited .. | moved _ => []

/-- The descriptor that an act closes. -/
def closed? : Act → Option Descriptor
  | closed d => some d
  | piped .. | spawned .. | waited .. | moved _ => none

/-- Acts lead from one table of descriptors to another, and are balanced: whatever they open is
closed, and nothing else. -/
structure Balanced (before : Table) (acts : List Act) (after : Table) : Prop where
  /-- The same descriptors are open as before, and refer to the same. -/
  table : after = before
  /-- Pipe ends are new, and no two of them have the same descriptor. -/
  fresh : ∀ d ∈ acts.flatMap made, d ∉ before.used
  nodup : (acts.flatMap made).Nodup
  /-- Every end that was made is closed once, and nothing else is. -/
  once : ∀ d, (acts.filterMap closed?).count d = if d ∈ acts.flatMap made then 1 else 0
  /-- An end is made before it is closed. -/
  inOrder : ∀ front d rest, acts = front ++ closed d :: rest → d ∈ front.flatMap made

variable {before after : Table} {pipes : List (Descriptor × Descriptor)} {rest : List Act}

/-- Making pipes makes their ends. -/
theorem flat_map_made_pipes (pipes : List (Descriptor × Descriptor)) :
    (pipes.map fun ends => piped ends.1 ends.2).flatMap made = pipeEnds pipes := by
  rw [List.flatMap_map]
  rfl

/-- Making pipes closes nothing. -/
theorem filter_map_closed?_pipes (pipes : List (Descriptor × Descriptor)) :
    (pipes.map fun ends => piped ends.1 ends.2).filterMap closed? = [] := by
  simp [List.filterMap_map, Function.comp_def, closed?]

/-- Closing descriptors closes these. -/
theorem filter_map_closed?_closed (ds : List Descriptor) :
    (ds.map closed).filterMap closed? = ds := by
  simp [List.filterMap_map, Function.comp_def, closed?]

/-- Waiting closes nothing. -/
theorem filter_map_closed?_waits (waits : List Wait) :
    (waits.map Wait.act).filterMap closed? = [] := by
  simp [List.filterMap_map, Function.comp_def, closed?, Wait.act]

/-- Starting stages closes the ends that they were handed. -/
theorem filter_map_closed?_starts (starts : List Start) :
    (starts.flatMap Start.acts).filterMap closed? = starts.flatMap (·.ends.toList) := by
  induction starts with
  | nil => rfl
  | cons start rest ih =>
      have hact : start.act.closed? = none := rfl
      rw [List.flatMap_cons, List.filterMap_append, ih, Start.acts, List.filterMap_cons_none hact,
        filter_map_closed?_closed, List.flatMap_cons]

/-- Closing descriptors makes no ends. -/
theorem flat_map_made_closed (ds : List Descriptor) : (ds.map closed).flatMap made = [] := by
  simp [made]

/-- Waiting makes no ends. -/
theorem flat_map_made_waits (waits : List Wait) : (waits.map Wait.act).flatMap made = [] := by
  simp [Wait.act, made]

/-- Starting stages makes no ends. -/
theorem flat_map_made_starts (starts : List Start) :
    (starts.flatMap Start.acts).flatMap made = [] := by
  induction starts with
  | nil => rfl
  | cons start rest ih =>
      have hact : start.act.made = [] := rfl
      rw [List.flatMap_cons, List.flatMap_append, ih, Start.acts, List.flatMap_cons, hact,
        flat_map_made_closed]
      rfl

/-- Acts that make and close nothing are balanced. -/
theorem Balanced.refl (table : Table) {acts : List Act} (hmade : acts.flatMap made = [])
    (hclosed : acts.filterMap closed? = []) : Balanced table acts table where
  table := rfl
  fresh := by simp [hmade]
  nodup := by simp [hmade]
  once := by simp [hmade, hclosed]
  inOrder := by
    rintro front d rest rfl
    simp [closed?] at hclosed

/-- Nothing is closed while pipes are made. -/
theorem closed_not_mem_pipes (d : Descriptor) (pipes : List (Descriptor × Descriptor)) :
    closed d ∉ pipes.map fun ends => piped ends.1 ends.2 := by
  simp

/-- What is not in the first of two lists is behind it. -/
theorem exists_append_of_not_mem {α : Type} {first second front later : List α} {a : α}
    (h : first ++ second = front ++ a :: later) (ha : a ∉ first) :
    ∃ between, front = first ++ between ∧ second = between ++ a :: later := by
  rcases List.append_eq_append_iff.mp h with hbehind | ⟨_ | ⟨b, rest⟩, hfirst, hlater⟩
  · exact hbehind
  · rw [List.append_nil] at hfirst
    exact ⟨[], by rw [hfirst, List.append_nil], hlater.symm⟩
  · obtain ⟨rfl, -⟩ := List.cons.inj hlater
    exact absurd (by rw [hfirst]; simp) ha

/-- Pipes are made, and then their ends are closed in some order, with other things in between. -/
theorem Balanced.of_pipes (htable : after = before) (hfresh : ∀ d ∈ pipeEnds pipes, d ∉ before.used)
    (hnodup : (pipeEnds pipes).Nodup) (hmade : rest.flatMap made = [])
    (hclosed : (rest.filterMap closed?).Perm (pipeEnds pipes)) :
    Balanced before ((pipes.map fun ends => piped ends.1 ends.2) ++ rest) after := by
  have hmadeAll : ((pipes.map fun ends => piped ends.1 ends.2) ++ rest).flatMap made =
      pipeEnds pipes := by
    rw [List.flatMap_append, flat_map_made_pipes, hmade, List.append_nil]
  have hclosedAll : ((pipes.map fun ends => piped ends.1 ends.2) ++ rest).filterMap closed? =
      rest.filterMap closed? := by
    rw [List.filterMap_append, filter_map_closed?_pipes, List.nil_append]
  refine ⟨htable, ?_, ?_, ?_, ?_⟩
  · rwa [hmadeAll]
  · rwa [hmadeAll]
  · intro d
    rw [hmadeAll, hclosedAll, hclosed.count_eq, hnodup.count]
  · intro front d later hsplit
    -- All pipes are made by then, and `d` is one of their ends.
    obtain ⟨between, rfl, hrest⟩ := exists_append_of_not_mem hsplit (closed_not_mem_pipes d pipes)
    have hd : d ∈ rest.filterMap closed? :=
      List.mem_filterMap.mpr ⟨closed d, by rw [hrest]; simp, rfl⟩
    rw [List.flatMap_append, flat_map_made_pipes]
    exact List.mem_append_left _ (hclosed.mem_iff.mp hd)

/-- A run over pipes is balanced if the ends of the stages that were tried and those that were left
are all there are. -/
theorem Balanced.of_run {starts : List Start} {left : List Descriptor} (htable : after = before)
    (hfresh : ∀ d ∈ pipeEnds pipes, d ∉ before.used) (hnodup : (pipeEnds pipes).Nodup)
    (hclosed : (starts.flatMap (·.ends.toList) ++ left).Perm (pipeEnds pipes)) (waits : List Wait) :
    Balanced before (beforeWaits pipes starts left ++ waits.map Wait.act) after := by
  rw [beforeWaits, List.append_assoc, List.append_assoc]
  refine .of_pipes htable hfresh hnodup ?_ ?_
  · rw [List.flatMap_append, List.flatMap_append, flat_map_made_starts, flat_map_made_closed,
      flat_map_made_waits]
    rfl
  · rwa [List.filterMap_append, List.filterMap_append, filter_map_closed?_starts,
      filter_map_closed?_closed, filter_map_closed?_waits, List.append_nil]

end Act

/-! ## One run -/

namespace Desk

variable {σ : Type} {host : Host σ} {pipeline : Pipeline} {desk desk' middle : Desk σ}
  {pipes : List (Descriptor × Descriptor)} {stages : List PreparedStage}
  {outcomes : List (Except SystemError ChildId)}

/-- The ends that are closed right after the starts and those that are left are all there are. -/
theorem Ran.closed_perm {waits : List Wait} {result : PipelineResult}
    (h : Ran host stages pipes middle outcomes waits result desk')
    (hlength : pipes.length + 1 = stages.length) :
    ((starts middle.context.table stages (Wiring.chain none pipes) outcomes).flatMap
        (·.ends.toList) ++
      ((Wiring.chain none pipes).drop outcomes.length).flatMap StageEnds.toList).Perm
      (pipeEnds pipes) := by
  obtain ⟨error, hending, -⟩ := h.result
  have hrow : (Wiring.chain none pipes).length = stages.length := by
    rw [Wiring.length_chain, hlength]
  have hstarts : (starts middle.context.table stages (Wiring.chain none pipes) outcomes).flatMap
      (·.ends.toList) = ((Wiring.chain none pipes).take outcomes.length).flatMap StageEnds.toList := by
    rw [← (hending.map_starts hrow).2, List.flatMap_map]
  rw [hstarts, ← List.flatMap_append, List.take_append_drop]
  exact Wiring.flat_map_chain_perm none pipes

/-- A run without built-in commands is balanced, at whichever step it ends: what was not handed to a
stage is closed with the rest of the wiring. -/
theorem ExternalRun.balanced {result : PipelineResult}
    (h : ExternalRun host pipeline desk result desk') (hne : pipeline.stages ≠ []) :
    ∃ acts, desk'.acts = desk.acts ++ acts ∧
      Act.Balanced desk.context.table acts desk'.context.table := by
  have htable := h.table_eq hne
  cases h with
  | unprepared _ => exact ⟨[], (List.append_nil _).symm, .refl _ rfl rfl⟩
  | @unwired _ pipes _ _ _ _ hpiped =>
      have hsize : pipeline.size ≠ 0 := by simpa [Pipeline.size] using hne
      have hclosed : ((Wiring.ofPipes pipeline.size pipes).pending).Perm (pipeEnds pipes) := by
        rw [Wiring.of_pipes_eq_of_row hsize, Wiring.pending_of_row]
        exact Wiring.flat_map_chain_perm none pipes
      refine ⟨_, (hpiped.close_all_steps _).acts_eq, ?_⟩
      rw [← List.append_nil (Act.beforeWaits pipes [] _)]
      exact .of_run htable hpiped.fresh hpiped.nodup hclosed []
  | ran hprepare hpiped hlength hran =>
      refine ⟨_, (hran.all_steps hpiped).acts_eq, ?_⟩
      exact .of_run htable hpiped.fresh hpiped.nodup
        (hran.closed_perm (hlength.trans (length_of_map_m_of_stage hprepare).symm)) _

/-- A built-in command opens nothing and closes nothing. -/
theorem balanced_run_builtin (host : Host σ) (command : Builtin) (arguments : List Text)
    (desk : Desk σ) : ∃ acts, (desk.runBuiltin host command arguments).2.acts = desk.acts ++ acts ∧
      Act.Balanced desk.context.table acts
        (desk.runBuiltin host command arguments).2.context.table := by
  cases command
  simp only [runBuiltin]
  split
  · exact ⟨[_], rfl, .refl _ rfl rfl⟩
  · exact ⟨[_], rfl, .refl _ rfl rfl⟩

/-- Every run is balanced; one that starts nothing opens nothing. -/
theorem PipelineRun.balanced {result : PipelineResult}
    (h : PipelineRun host pipeline desk result desk') :
    ∃ acts, desk'.acts = desk.acts ++ acts ∧
      Act.Balanced desk.context.table acts desk'.context.table := by
  cases h with
  | empty _ | mixed _ _ => exact ⟨[], (List.append_nil _).symm, .refl _ rfl rfl⟩
  | @builtin stage command _ _ _ _ hbuiltin =>
      have hbalanced := balanced_run_builtin host command (stage.argv.drop 1) desk
      rwa [hbuiltin] at hbalanced
  | external _ hne hexternal => exact hexternal.balanced hne

/-! ## Many runs -/

end Desk

/-- A pipeline that was run, with the desk before it and after it. -/
structure Call (σ : Type) where
  pipeline : Pipeline
  before : Desk σ
  result : PipelineResult
  after : Desk σ

namespace Desk

/-- The runs of pipelines one after the other. -/
def calls (host : Host σ) : List Pipeline → Desk σ → List (Call σ)
  | [], _ => []
  | pipeline :: rest, desk =>
    ⟨pipeline, desk, (desk.run host pipeline).1, (desk.run host pipeline).2⟩ ::
      calls host rest (desk.run host pipeline).2

end Desk

/-- However many pipelines are run, whatever the system answers: each run leaves the shell
with the descriptors from before the first one, and closes every pipe end that it made,
once, and nothing else. -/
theorem no_descriptor_leak {σ : Type} (host : Host σ) (pipelines : List Pipeline) (desk : Desk σ) :
    ∀ call ∈ desk.calls host pipelines, call.after.context.table = desk.context.table ∧
      ∃ acts, call.after.acts = call.before.acts ++ acts ∧
        Act.Balanced call.before.context.table acts call.after.context.table := by
  induction pipelines generalizing desk with
  | nil => exact fun call hcall => nomatch hcall
  | cons pipeline rest ih =>
      obtain ⟨acts, hacts, hbalanced⟩ := (Desk.pipeline_run host pipeline desk).balanced
      intro call hcall
      rcases List.mem_cons.mp hcall with rfl | hlater
      · exact ⟨hbalanced.table, acts, hacts, hbalanced⟩
      · obtain ⟨htable, hcall⟩ := ih (desk.run host pipeline).2 call hlater
        exact ⟨htable.trans hbalanced.table, hcall⟩

/-- There is room for one pipe only. In the first run the second stage cannot be started, and in the
second run the second pipe cannot be made. -/
theorem no_descriptor_leak_after_failures :
    let stage (name : Char) : Stage := ⟨.external ['/', name], [[name]], {}⟩
    let pipelines : List Pipeline :=
      [⟨[stage 'a', stage 'b']⟩, ⟨[stage 'a', stage 'b', stage 'c']⟩]
    let host := Rehearsal.host (World.host [])
    let desk : Desk (Rehearsal World) := ⟨⟨World.firstTable (some 5), [], 0⟩,
      ⟨World.start .empty .empty, [.ends (.exited 0), .fails .tryAgain], []⟩, []⟩
    (desk.calls host pipelines).map (·.result.error) =
      [some (.fork ['b'] .tryAgain), some (.pipe .tooManyOpenFiles)] ∧
    ∃ call ∈ desk.calls host pipelines, call.after.context.table = desk.context.table ∧
      ∃ acts, call.after.acts = call.before.acts ++ acts ∧
        Act.Balanced call.before.context.table acts call.after.context.table := by
  intro stage pipelines host desk
  have hsecond : (⟨_, _, _, _⟩ : Call (Rehearsal World)) ∈ desk.calls host pipelines :=
    List.mem_cons_of_mem _ List.mem_cons_self
  exact ⟨by decide +kernel, _, hsecond, no_descriptor_leak host pipelines desk _ hsecond⟩

end LineShell
