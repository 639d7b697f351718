import LineShell.Execution
import LineShell.Proofs.PreparedForm
import LineShell.Proofs.WiringRow

/-!
# The acts of a run

A run is a chain of single acts. `Desk.Step` says what one act does to the desk, with the answer
that the system gave to it, and `Desk.Steps` strings acts together; the record of a run is exactly
the list of its acts (`Steps.acts_eq`), so what holds of the record holds of what was done.

Each part of a run has one lemma here that says which acts it is made of: `make_pipes_piped`,
`start_all_starting`, `wait_all_steps`. What a part does to the shell's descriptors stands in its
`context` field.
-/

namespace LineShell

namespace Desk

variable {σ : Type} {host : Host σ} {desk desk' : Desk σ}

/-- One act of the shell, and the desk after it. -/
inductive Step (host : Host σ) (desk : Desk σ) : Act → Desk σ → Prop where
  | piped {ends : Descriptor × Descriptor} {desk' : Desk σ} :
      desk.makePipe host = (.ok ends, desk') → Step host desk (.piped ends.1 ends.2) desk'
  | closed (d) : Step host desk (.closed d) (desk.close d)
  | spawned (stage ends siblings) :
      Step host desk
        (.spawned stage ends siblings desk.context.table
          (host.spawn desk.state desk.context stage ends siblings).1)
        (desk.spawn host stage ends siblings).2
  | waited (child) :
      Step host desk
        (.waited child desk.context.table (host.wait desk.state desk.context child).1)
        (desk.wait host child).2

/-- Acts of the shell in their order, and the desk after them. -/
inductive Steps (host : Host σ) : Desk σ → List Act → Desk σ → Prop where
  | refl (start : Desk σ) : Steps host start [] start
  | cons {start middle finish : Desk σ} {act : Act} {acts : List Act} :
      Step host start act middle → Steps host middle acts finish →
      Steps host start (act :: acts) finish

/-- A pipe that is made adds two new descriptors to the shell's, and its number is the count of
pipes before it. -/
theorem make_pipe_ok {reader writer : Descriptor}
    (h : desk.makePipe host = (.ok (reader, writer), desk')) :
    reader ∉ desk.context.table.used ∧ writer ∉ desk.context.table.used ∧ reader ≠ writer ∧
    desk'.context = { desk.context with
      table := desk.context.table.withSlots (pipeSlots desk.context.pipesMade [(reader, writer)])
      pipesMade := desk.context.pipesMade + 1 } ∧
    desk'.acts = desk.acts ++ [.piped reader writer] := by
  simp only [makePipe] at h
  split at h
  · split at h
    · cases h
    · cases h
      have hreader := Table.lowest_free_not_mem_used desk.context.table
      have hwriter := Table.lowest_free_not_mem_used
        (desk.context.table.add (.pipeReader desk.context.pipesMade)).2
      rw [Table.used_add] at hwriter
      simp only [List.mem_append, List.mem_singleton, not_or] at hwriter
      refine ⟨hreader, hwriter.1, Ne.symm hwriter.2, ?_, rfl⟩
      simp [record, Table.add, Table.withSlots, pipeSlots]
  · cases h

/-- A pipe that cannot be made leaves everything as it was. -/
theorem make_pipe_error {cause : SystemError} (h : desk.makePipe host = (.error cause, desk')) :
    desk' = desk := by
  simp only [makePipe] at h
  split at h
  · split at h
    · cases h
      rfl
    · cases h
  · cases h
    rfl

namespace Step

/-- An act is put on record. -/
theorem acts_eq {act : Act} (h : Step host desk act desk') : desk'.acts = desk.acts ++ [act] := by
  cases h with
  | piped h => exact (make_pipe_ok h).2.2.2.2
  | closed d => rfl
  | spawned stage ends siblings => rfl
  | waited child => rfl

/-- Starting a stage is a step, whatever comes of it. -/
theorem of_spawn {stage : PreparedStage} {ends : StageEnds} {siblings : List Descriptor}
    {outcome : Except SystemError ChildId}
    (h : desk.spawn host stage ends siblings = (outcome, desk')) :
    Step host desk (.spawned stage ends siblings desk.context.table outcome) desk' := by
  cases h
  exact .spawned stage ends siblings

end Step

namespace Steps

/-- Steps are followed by steps. -/
theorem trans {middle : Desk σ} {acts more : List Act} (h : Steps host desk acts middle)
    (hmore : Steps host middle more desk') : Steps host desk (acts ++ more) desk' := by
  induction h with
  | refl => exact hmore
  | cons hstep _ ih => exact .cons hstep (ih hmore)

/-- The record of a run is the list of its acts. -/
theorem acts_eq {acts : List Act} (h : Steps host desk acts desk') :
    desk'.acts = desk.acts ++ acts := by
  induction h with
  | refl => simp
  | cons hstep _ ih => rw [ih, hstep.acts_eq, List.append_assoc, List.singleton_append]

end Steps

/-! ## Closing -/

/-- Closing descriptors is one step for each. -/
theorem close_all_steps (desk : Desk σ) (ds : List Descriptor) :
    Steps host desk (ds.map .closed) (desk.closeAll ds) := by
  induction ds generalizing desk with
  | nil => exact .refl _
  | cons d ds ih => exact .cons (.closed d) (ih (desk.close d))

/-- Closing descriptors changes the shell's table and nothing else. -/
theorem context_close_all (desk : Desk σ) (ds : List Descriptor) :
    (desk.closeAll ds).context =
      { desk.context with table := desk.context.table.closeAll ds } := by
  induction ds generalizing desk with
  | nil => rfl
  | cons d ds ih =>
      show ((desk.close d).closeAll ds).context = _
      rw [ih]
      rfl

/-! ## Making the pipes -/

/-- From `desk` the given pipes were made, whose ends are new and differ from each other. -/
structure Piped (host : Host σ) (desk : Desk σ) (pipes : List (Descriptor × Descriptor))
    (desk' : Desk σ) : Prop where
  steps : Steps host desk (pipes.map fun ends => .piped ends.1 ends.2) desk'
  context : desk'.context = { desk.context with
    table := desk.context.table.withSlots (pipeSlots desk.context.pipesMade pipes)
    pipesMade := desk.context.pipesMade + pipes.length }
  nodup : (pipeEnds pipes).Nodup
  fresh : ∀ d ∈ pipeEnds pipes, d ∉ desk.context.table.used

/-- No pipes are made by doing nothing. -/
theorem Piped.refl (desk : Desk σ) : Piped host desk [] desk where
  steps := .refl _
  context := by simp [pipeSlots]
  nodup := by simp [pipeEnds]
  fresh := by simp [pipeEnds]

/-- One more pipe is made before the others, whose ends are then new beside its own. -/
theorem Piped.cons {middle : Desk σ} {reader writer : Descriptor}
    {pipes : List (Descriptor × Descriptor)}
    (hpipe : desk.makePipe host = (.ok (reader, writer), middle))
    (h : Piped host middle pipes desk') : Piped host desk ((reader, writer) :: pipes) desk' := by
  obtain ⟨hreader, hwriter, hne, hcontext, _⟩ := make_pipe_ok hpipe
  have hfresh : ∀ d ∈ pipeEnds pipes, d ∉ desk.context.table.used ∧ d ≠ reader ∧ d ≠ writer := by
    intro d hd
    have hnew := h.fresh d hd
    rw [hcontext, Table.used_with_slots] at hnew
    simpa [pipeSlots, not_or] using hnew
  refine ⟨.cons (.piped hpipe) h.steps, ?_, ?_, ?_⟩
  · rw [h.context, hcontext]
    simp [Table.withSlots, pipeSlots, Nat.add_comm, Nat.add_left_comm]
  · simp only [pipeEnds, List.flatMap_cons, List.cons_append, List.nil_append, List.nodup_cons,
      List.mem_cons, not_or]
    exact ⟨⟨hne, fun hd => (hfresh _ hd).2.1 rfl⟩, fun hd => (hfresh _ hd).2.2 rfl, h.nodup⟩
  · intro d hd
    simp only [pipeEnds, List.flatMap_cons, List.cons_append, List.nil_append, List.mem_cons] at hd
    rcases hd with rfl | rfl | hd
    · exact hreader
    · exact hwriter
    · exact (hfresh d hd).1

/-- The pipes that `makePipes` gives are the ones that were made, whether or not they are all. -/
theorem make_pipes_piped (host : Host σ) (n : Nat) (desk : Desk σ) :
    Piped host desk (desk.makePipes host n).1.1 (desk.makePipes host n).2 := by
  induction n generalizing desk with
  | zero => exact .refl desk
  | succ n ih =>
      unfold makePipes
      split
      · rename_i cause desk' hpipe
        rw [make_pipe_error hpipe]
        exact .refl desk
      · rename_i ends middle hpipe
        exact .cons hpipe (ih middle)

/-- If no pipe failed, there are as many as were asked for. -/
theorem length_make_pipes {n : Nat} {desk : Desk σ} (h : (desk.makePipes host n).1.2 = none) :
    (desk.makePipes host n).1.1.length = n := by
  induction n generalizing desk with
  | zero => rfl
  | succ n ih =>
      unfold makePipes at h ⊢
      split
      · rename_i hpipe
        rw [hpipe] at h
        cases h
      · rename_i ends middle hpipe
        rw [hpipe] at h
        simp only [List.length_cons]
        rw [ih h]

/-! ## Starting the stages -/

end Desk

/-- The start of a stage, as a run has it on record. -/
structure Start where
  stage : PreparedStage
  ends : StageEnds
  siblings : List Descriptor
  table : Table
  outcome : Except SystemError ChildId

/-- A wait for a child, as a run has it on record. -/
structure Wait where
  child : ChildId
  table : Table
  reports : List WaitReport

/-- The act of starting a stage. -/
def Start.act (s : Start) : Act :=
  .spawned s.stage s.ends s.siblings s.table s.outcome

/-- What the shell does for one stage: it starts the stage and closes its ends. -/
def Start.acts (s : Start) : List Act :=
  s.act :: s.ends.toList.map .closed

/-- The act of waiting for a child. -/
def Wait.act (w : Wait) : Act :=
  .waited w.child w.table w.reports

/-- How the awaited child ended. -/
def Wait.status (w : Wait) : StageStatus :=
  .ofReports w.reports

namespace Act

/-- The start that an act is, if it is one. -/
def start? : Act → Option Start
  | spawned stage ends siblings table outcome => some ⟨stage, ends, siblings, table, outcome⟩
  | _ => none

/-- The wait that an act is, if it is one. -/
def wait? : Act → Option Wait
  | waited child table reports => some ⟨child, table, reports⟩
  | _ => none

/-- Making pipes starts no stage. -/
theorem filter_map_start?_pipes (pipes : List (Descriptor × Descriptor)) :
    (pipes.map fun ends => piped ends.1 ends.2).filterMap start? = [] := by
  simp [List.filterMap_map, Function.comp_def, start?]

/-- Closing descriptors starts no stage. -/
theorem filter_map_start?_closed (ds : List Descriptor) :
    (ds.map closed).filterMap start? = [] := by
  simp [List.filterMap_map, Function.comp_def, start?]

/-- Waiting starts no stage. -/
theorem filter_map_start?_waits (waits : List Wait) :
    (waits.map Wait.act).filterMap start? = [] := by
  simp [List.filterMap_map, Function.comp_def, start?, Wait.act]

/-- The starts are read off the acts of starting stages. -/
theorem filter_map_start?_starts (starts : List Start) :
    (starts.flatMap Start.acts).filterMap start? = starts := by
  induction starts with
  | nil => rfl
  | cons start rest ih =>
      have hact : start.act.start? = some start := rfl
      rw [List.flatMap_cons, List.filterMap_append, ih, Start.acts, List.filterMap_cons_some hact,
        filter_map_start?_closed, List.singleton_append]

/-- The waits are read off the acts of waiting. -/
theorem filter_map_wait?_waits (waits : List Wait) :
    (waits.map Wait.act).filterMap wait? = waits := by
  simp [List.filterMap_map, Function.comp_def, wait?, Wait.act]

/-- Making pipes waits for no child. -/
theorem wait?_pipes {act : Act} {pipes : List (Descriptor × Descriptor)}
    (h : act ∈ pipes.map fun ends => piped ends.1 ends.2) : act.wait? = none := by
  obtain ⟨ends, _, rfl⟩ := List.mem_map.mp h
  rfl

/-- Closing descriptors waits for no child. -/
theorem wait?_closed {act : Act} {ds : List Descriptor} (h : act ∈ ds.map closed) :
    act.wait? = none := by
  obtain ⟨d, _, rfl⟩ := List.mem_map.mp h
  rfl

/-- Starting stages waits for no child. -/
theorem wait?_starts {act : Act} {starts : List Start} (h : act ∈ starts.flatMap Start.acts) :
    act.wait? = none := by
  obtain ⟨start, _, hact⟩ := List.mem_flatMap.mp h
  rcases List.mem_cons.mp hact with rfl | hact
  · rfl
  · exact wait?_closed hact

/-- Acts none of which waits have no waits. -/
theorem filter_map_wait?_eq_nil {acts : List Act} (h : ∀ act ∈ acts, act.wait? = none) :
    acts.filterMap wait? = [] :=
  List.filterMap_eq_nil_iff.mpr h

/-- What a run does before it waits. -/
def beforeWaits (pipes : List (Descriptor × Descriptor)) (starts : List Start)
    (left : List Descriptor) : List Act :=
  (pipes.map fun ends => piped ends.1 ends.2) ++ starts.flatMap Start.acts ++ left.map closed

/-- What comes before the waits of a run waits for no child. -/
theorem wait?_before_waits {pipes : List (Descriptor × Descriptor)} {starts : List Start}
    {left : List Descriptor} : ∀ act ∈ beforeWaits pipes starts left, act.wait? = none := by
  intro act hact
  rcases List.mem_append.mp hact with hact | hact
  · rcases List.mem_append.mp hact with hact | hact
    · exact wait?_pipes hact
    · exact wait?_starts hact
  · exact wait?_closed hact

/-- The starts of a run are those of its stages, in order. -/
theorem filter_map_start?_before_waits (pipes : List (Descriptor × Descriptor))
    (starts : List Start) (left : List Descriptor) :
    (beforeWaits pipes starts left).filterMap start? = starts := by
  simp only [beforeWaits, List.filterMap_append, filter_map_start?_pipes, filter_map_start?_starts,
    filter_map_start?_closed, List.nil_append, List.append_nil]

/-- The starts of a run. -/
theorem filter_map_start?_run (pipes : List (Descriptor × Descriptor)) (starts : List Start)
    (left : List Descriptor) (waits : List Wait) :
    (beforeWaits pipes starts left ++ waits.map Wait.act).filterMap start? = starts := by
  rw [List.filterMap_append, filter_map_start?_before_waits, filter_map_start?_waits, List.append_nil]

/-- The waits of a run. -/
theorem filter_map_wait?_run (pipes : List (Descriptor × Descriptor)) (starts : List Start)
    (left : List Descriptor) (waits : List Wait) :
    (beforeWaits pipes starts left ++ waits.map Wait.act).filterMap wait? = waits := by
  rw [List.filterMap_append, filter_map_wait?_eq_nil wait?_before_waits, filter_map_wait?_waits,
    List.nil_append]

end Act

namespace Desk

variable {σ : Type} {host : Host σ} {desk desk' : Desk σ}

/-- Where nothing is started, the pipes that were made are followed by the closing of
descriptors. -/
theorem Piped.close_all_steps {pipes : List (Descriptor × Descriptor)} {middle : Desk σ}
    (h : Piped host desk pipes middle) (ds : List Descriptor) :
    Steps host desk (Act.beforeWaits pipes [] ds) (middle.closeAll ds) := by
  simpa only [Act.beforeWaits, List.flatMap_nil, List.append_nil] using
    h.steps.trans (Desk.close_all_steps middle ds)

/-- The starts of stages with the ends `row`, by a shell with the descriptors `table`, of which as
many were tried as there are outcomes. -/
def starts (table : Table) : List PreparedStage → List StageEnds →
    List (Except SystemError ChildId) → List Start
  | stage :: stages, ends :: row, outcome :: outcomes =>
      ⟨stage, ends, row.flatMap StageEnds.toList, table, outcome⟩ ::
        starts (table.closeAll ends.toList) stages row outcomes
  | _, _, _ => []

/-- The start at `i` is that of the stage at `i`, with the outcome at `i`. -/
theorem stage_of_starts_get? {table : Table} {stages : List PreparedStage} {row : List StageEnds}
    {outcomes : List (Except SystemError ChildId)} {i : Nat} {start : Start}
    (h : (starts table stages row outcomes)[i]? = some start) :
    stages[i]? = some start.stage ∧ outcomes[i]? = some start.outcome := by
  induction stages generalizing table row outcomes i with
  | nil => simp [starts] at h
  | cons stage rest ih =>
      cases row with
      | nil => simp [starts] at h
      | cons ends row =>
          cases outcomes with
          | nil => simp [starts] at h
          | cons outcome outcomes =>
              cases i with
              | zero =>
                  cases h
                  exact ⟨rfl, rfl⟩
              | succ i => exact ih h

/-- How starting stages may end: all were started, or one could not be and those behind it were not
tried. -/
inductive Ending : List PreparedStage → List (Except SystemError ChildId) → List ChildId →
    Option ExecError → Prop where
  | all : Ending [] [] [] none
  | failed (stage rest cause) :
      Ending (stage :: rest) [.error cause] [] (some (.fork stage.name cause))
  | started {rest outcomes children error} (stage child) : Ending rest outcomes children error →
      Ending (stage :: rest) (.ok child :: outcomes) (child :: children) error

/-- As many stages are tried as there are outcomes, each with its own ends. -/
theorem Ending.map_starts {stages : List PreparedStage}
    {outcomes : List (Except SystemError ChildId)} {children : List ChildId}
    {error : Option ExecError} (h : Ending stages outcomes children error) {table : Table}
    {row : List StageEnds} (hrow : row.length = stages.length) :
    (starts table stages row outcomes).map (·.outcome) = outcomes ∧
      (starts table stages row outcomes).map (·.ends) = row.take outcomes.length := by
  induction h generalizing table row with
  | all =>
      rw [List.length_eq_zero_iff.mp hrow]
      exact ⟨rfl, rfl⟩
  | failed stage rest cause =>
      cases row with
      | nil => cases hrow
      | cons ends row => cases rest <;> cases row <;> exact ⟨rfl, rfl⟩
  | started stage child _ ih =>
      cases row with
      | nil => cases hrow
      | cons ends row =>
          simp only [starts, List.map_cons, List.length_cons, List.take_succ_cons]
          obtain ⟨houtcomes, hends⟩ := ih (by simpa using hrow)
          rw [houtcomes, hends]
          exact ⟨rfl, rfl⟩

/-- From `desk`, stages with the ends `row` were started with the given outcomes. -/
structure Starting (host : Host σ) (index : Nat) (stages : List PreparedStage)
    (row : List StageEnds) (desk : Desk σ) (outcomes : List (Except SystemError ChildId))
    (started : Started) (desk' : Desk σ) : Prop where
  ending : Ending stages outcomes started.children started.error
  wiring : started.wiring = .ofRow (index + outcomes.length) (row.drop outcomes.length)
  steps : Steps host desk
    ((starts desk.context.table stages row outcomes).flatMap Start.acts) desk'
  context : desk'.context = { desk.context with
    table := desk.context.table.closeAll ((row.take outcomes.length).flatMap StageEnds.toList) }

/-- Starting a stage leaves the shell's descriptors and directory alone. -/
theorem context_spawn {stage : PreparedStage} {ends : StageEnds} {siblings : List Descriptor}
    {outcome : Except SystemError ChildId}
    (h : desk.spawn host stage ends siblings = (outcome, desk')) :
    desk'.context = desk.context := by
  cases h
  rfl

/-- Stages are started in their order, up to the first that cannot be. -/
theorem start_all_starting (host : Host σ) (index : Nat) (stages : List PreparedStage)
    (row : List StageEnds) (desk : Desk σ) (hlength : row.length = stages.length) :
    ∃ outcomes, Starting host index stages row desk outcomes
      (startAll host index stages (.ofRow index row) desk).1
      (startAll host index stages (.ofRow index row) desk).2 := by
  -- Each stage takes its ends off the row, and what is left of both goes with the rest.
  induction stages generalizing index row desk with
  | nil =>
      have hrow : row = [] := List.length_eq_zero_iff.mp hlength
      subst hrow
      exact ⟨[], .all, rfl, .refl _, rfl⟩
  | cons stage rest ih =>
      obtain ⟨ends, row, rfl⟩ : ∃ ends row', row = ends :: row' :=
        List.exists_cons_of_length_eq_add_one hlength
      have hlength' : row.length = rest.length := by simpa using hlength
      simp only [startAll, Wiring.take_of_row, Wiring.pending_of_row]
      split
      · rename_i cause middle hspawn
        have hcontext := context_spawn hspawn
        refine ⟨[.error cause], .failed stage rest cause, rfl, ?_, ?_⟩
        · simpa [starts, Start.acts, Start.act] using
            Steps.cons (.of_spawn hspawn) (close_all_steps middle ends.toList)
        · simp [context_close_all, hcontext]
      · rename_i child middle hspawn
        have hcontext := context_spawn hspawn
        obtain ⟨outcomes, hending, hwiring, hsteps, hafter⟩ :=
          ih (index + 1) row (middle.closeAll ends.toList) hlength'
        refine ⟨.ok child :: outcomes, .started stage child hending, ?_, ?_, ?_⟩
        · rw [hwiring]
          simp [Nat.add_assoc, Nat.add_comm 1]
        · rw [context_close_all, hcontext] at hsteps
          simpa [starts, Start.acts, Start.act] using
            Steps.cons (.of_spawn hspawn) ((close_all_steps middle ends.toList).trans hsteps)
        · rw [hafter, context_close_all, hcontext]
          simp [Table.close_all_append]

/-! ## Waiting -/

/-- Every child is waited for once, in order, and the shell's descriptors stay as they are. -/
theorem wait_all_steps (host : Host σ) (children : List ChildId) (desk : Desk σ) :
    ∃ waits : List Wait, waits.map (·.child) = children ∧
      (waitAll host children desk).1 = waits.map Wait.status ∧
      (∀ w ∈ waits, w.table = desk.context.table) ∧
      (waitAll host children desk).2.context = desk.context ∧
      Steps host desk (waits.map Wait.act) (waitAll host children desk).2 := by
  induction children generalizing desk with
  | nil => exact ⟨[], rfl, rfl, by simp, rfl, .refl _⟩
  | cons child rest ih =>
      obtain ⟨waits, hchildren, hstatuses, htables, hcontext, hsteps⟩ := ih (desk.wait host child).2
      refine ⟨⟨child, desk.context.table, (host.wait desk.state desk.context child).1⟩ :: waits,
        ?_, ?_, ?_, hcontext, .cons (.waited child) hsteps⟩
      · simp [hchildren]
      · simp only [waitAll, hstatuses, List.map_cons]
        rfl
      · intro w hw
        rcases List.mem_cons.mp hw with rfl | hw
        · rfl
        · exact htables w hw

/-! ## Running prepared stages -/

/-- From `desk`, the prepared stages were run over the given pipes. -/
structure Ran (host : Host σ) (stages : List PreparedStage)
    (pipes : List (Descriptor × Descriptor)) (desk : Desk σ)
    (outcomes : List (Except SystemError ChildId)) (waits : List Wait) (result : PipelineResult)
    (desk' : Desk σ) : Prop where
  result : ∃ error, Ending stages outcomes (waits.map (·.child)) error ∧
    result = collect stages.length (waits.map Wait.status) error
  steps : Steps host desk
    ((starts desk.context.table stages (Wiring.chain none pipes) outcomes).flatMap Start.acts ++
      (((Wiring.chain none pipes).drop outcomes.length).flatMap StageEnds.toList).map .closed ++
      waits.map Wait.act) desk'
  context : desk'.context = { desk.context with
    table := desk.context.table.closeAll ((Wiring.chain none pipes).flatMap StageEnds.toList) }
  tables : ∀ w ∈ waits, w.table = desk'.context.table

/-- The steps of a run from the pipes on, behind those that made the pipes. -/
theorem Ran.all_steps {stages : List PreparedStage} {pipes : List (Descriptor × Descriptor)}
    {middle : Desk σ} {outcomes : List (Except SystemError ChildId)} {waits : List Wait}
    {result : PipelineResult} (h : Ran host stages pipes middle outcomes waits result desk')
    (hpiped : Piped host desk pipes middle) :
    Steps host desk (Act.beforeWaits pipes
        (starts middle.context.table stages (Wiring.chain none pipes) outcomes)
        (((Wiring.chain none pipes).drop outcomes.length).flatMap StageEnds.toList) ++
      waits.map Wait.act) desk' := by
  simpa only [Act.beforeWaits, List.append_assoc] using hpiped.steps.trans h.steps

/-- Running prepared stages is starting them, closing what is left of the wiring, and waiting for
the children, by the laws of each of these. -/
theorem run_stages_ran (host : Host σ) {stages : List PreparedStage}
    {pipes : List (Descriptor × Descriptor)}
    (hlength : pipes.length + 1 = stages.length) (desk : Desk σ) :
    ∃ outcomes waits, Ran host stages pipes desk outcomes waits
      (runStages host stages (.ofRow 0 (Wiring.chain none pipes)) desk).1
      (runStages host stages (.ofRow 0 (Wiring.chain none pipes)) desk).2 := by
  have hrow : (Wiring.chain none pipes).length = stages.length := by
    rw [Wiring.length_chain, hlength]
  obtain ⟨outcomes, hending, hwiring, hsteps, hcontext⟩ :=
    start_all_starting host 0 stages (Wiring.chain none pipes) desk hrow
  simp only [runStages]
  generalize startAll host 0 stages (.ofRow 0 (Wiring.chain none pipes)) desk = result at *
  obtain ⟨started, middle⟩ := result
  dsimp only at hending hwiring hsteps hcontext ⊢
  generalize hleft :
    ((Wiring.chain none pipes).drop outcomes.length).flatMap StageEnds.toList = left
  have hpending : started.wiring.pending = left := by rw [hwiring, Wiring.pending_of_row, hleft]
  rw [hpending]
  obtain ⟨waits, hchildren, hstatuses, htables, hwaited, hwaits⟩ :=
    wait_all_steps host started.children (middle.closeAll left)
  refine ⟨outcomes, waits, ⟨started.error, ?_, ?_⟩, ?_, ?_, ?_⟩
  · rw [hchildren]
    exact hending
  · rw [hstatuses]
  · rw [hleft]
    exact (hsteps.trans (close_all_steps middle left)).trans hwaits
  · have hall : ((Wiring.chain none pipes).take outcomes.length).flatMap StageEnds.toList ++ left =
        (Wiring.chain none pipes).flatMap StageEnds.toList := by
      rw [← hleft, ← List.flatMap_append, List.take_append_drop]
    rw [hwaited, context_close_all, hcontext, ← hall, Table.close_all_append]
  · intro w hw
    rw [htables w hw, hwaited]

/-! ## Running a pipeline -/

/-- How the run of a pipeline without built-in commands ends, by the step at which it ends. -/
inductive ExternalRun (host : Host σ) (pipeline : Pipeline) (desk : Desk σ) :
    PipelineResult → Desk σ → Prop where
  | unprepared {e} : pipeline.stages.mapM PreparedStage.ofStage = .error e →
      ExternalRun host pipeline desk (.abortedBeforeSpawn pipeline.size e) desk
  | unwired {stages pipes cause} {middle : Desk σ} :
      pipeline.stages.mapM PreparedStage.ofStage = .ok stages →
      (desk.wire host pipeline.size).1 = .error cause → Piped host desk pipes middle →
      ExternalRun host pipeline desk (.abortedBeforeSpawn pipeline.size (.pipe cause))
        (middle.closeAll (Wiring.ofPipes pipeline.size pipes).pending)
  | ran {stages pipes outcomes waits result} {middle desk' : Desk σ} :
      pipeline.stages.mapM PreparedStage.ofStage = .ok stages →
      Piped host desk pipes middle → pipes.length + 1 = pipeline.size →
      Ran host stages pipes middle outcomes waits result desk' →
      ExternalRun host pipeline desk result desk'

/-- Every stage of a pipeline is prepared. -/
theorem length_of_map_m_of_stage {pipeline : Pipeline} {stages : List PreparedStage}
    (h : pipeline.stages.mapM PreparedStage.ofStage = .ok stages) : stages.length = pipeline.size :=
  (map_m_eq_ok_iff_forall₂.mp h).length_eq.symm

/-- Every run of a pipeline without built-in commands is an `ExternalRun`. -/
theorem run_external_run (host : Host σ) {pipeline : Pipeline}
    (hexternal : pipeline.builtin? = none) (hne : pipeline.stages ≠ []) (desk : Desk σ) :
    ExternalRun host pipeline desk (desk.run host pipeline).1 (desk.run host pipeline).2 := by
  have hrun : desk.run host pipeline = desk.runExternal host pipeline := by
    unfold run
    split
    · contradiction
    · rw [hexternal]
  have hsize : pipeline.size ≠ 0 := by simpa [Pipeline.size] using hne
  rw [hrun]
  unfold runExternal
  split
  · rename_i e hprepare
    exact .unprepared hprepare
  · rename_i stages hprepare
    have hpiped := make_pipes_piped host (pipeline.size - 1) desk
    have hlength : (desk.makePipes host (pipeline.size - 1)).1.2 = none →
        (desk.makePipes host (pipeline.size - 1)).1.1.length = pipeline.size - 1 :=
      length_make_pipes
    -- A wiring fails where its pipes do, and there is nothing else to it.
    generalize hpipes : desk.makePipes host (pipeline.size - 1) = made at hpiped hlength
    obtain ⟨⟨pipes, cause?⟩, middle⟩ := made
    cases cause? with
    | some cause =>
        have hwire : desk.wire host pipeline.size =
            (.error cause, middle.closeAll (Wiring.ofPipes pipeline.size pipes).pending) := by
          rw [wire, hpipes]
        rw [hwire]
        exact .unwired hprepare (by rw [hwire]) hpiped
    | none =>
        have hwire : desk.wire host pipeline.size =
            (.ok (.ofPipes pipeline.size pipes), middle) := by
          rw [wire, hpipes]
        have hcount : pipes.length + 1 = pipeline.size := by
          have := hlength rfl
          simp only at this
          omega
        have hstages : pipes.length + 1 = stages.length := by
          rw [hcount, length_of_map_m_of_stage hprepare]
        rw [hwire, Wiring.of_pipes_eq_of_row hsize]
        obtain ⟨outcomes, waits, hran⟩ := run_stages_ran host hstages middle
        exact .ran hprepare hpiped hcount hran

/-- How the run of any pipeline goes, by what the pipeline consists of. -/
inductive PipelineRun (host : Host σ) (pipeline : Pipeline) (desk : Desk σ) :
    PipelineResult → Desk σ → Prop where
  | empty : pipeline.stages = [] → PipelineRun host pipeline desk ⟨0, false, [], none⟩ desk
  | builtin {stage command code} {desk' : Desk σ} :
      pipeline.stages = [stage] → stage.builtin? = some command →
      desk.runBuiltin host command (stage.argv.drop 1) = (code, desk') →
      PipelineRun host pipeline desk ⟨code, true, [.exited code], none⟩ desk'
  | mixed {command} : 2 ≤ pipeline.size → pipeline.builtin? = some command →
      PipelineRun host pipeline desk
        (.abortedBeforeSpawn pipeline.size (.builtinInPipeline command)) desk
  | external {result} {desk' : Desk σ} : pipeline.builtin? = none → pipeline.stages ≠ [] →
      ExternalRun host pipeline desk result desk' → PipelineRun host pipeline desk result desk'

/-- Every run is a `PipelineRun`. -/
theorem pipeline_run (host : Host σ) (pipeline : Pipeline) (desk : Desk σ) :
    PipelineRun host pipeline desk (desk.run host pipeline).1 (desk.run host pipeline).2 := by
  obtain ⟨stages⟩ := pipeline
  cases stages with
  | nil => exact .empty rfl
  | cons stage rest =>
      cases hbuiltin : Pipeline.builtin? ⟨stage :: rest⟩ with
      | none =>
          have hne : stage :: rest ≠ [] := List.cons_ne_nil _ _
          exact .external hbuiltin hne (run_external_run host hbuiltin hne desk)
      | some command =>
          simp only [run, hbuiltin]
          cases rest with
          | nil =>
              have hstage : stage.builtin? = some command := by
                simpa [Pipeline.builtin?] using hbuiltin
              exact .builtin rfl hstage rfl
          | cons next rest =>
              have hsize : 2 ≤ Pipeline.size ⟨stage :: next :: rest⟩ := by
                simp [Pipeline.size]
              exact .mixed hsize hbuiltin

end Desk

end LineShell
