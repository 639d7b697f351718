import LineShell.Proofs.ChildSetUp
import LineShell.Proofs.ReadyShell
import LineShell.Proofs.Run

/-!
# Who holds the ends of the pipes

A reader of a pipe sees its end only when nobody holds the other end any more, so each end has to be
closed in every process but the one that uses it. `pipe_ends_of_run` shows that a run achieves this,
however long its pipeline is, whatever its redirections are and wherever it stops: the shell waits
with no end in its hands, and a child starts its program with the two ends at 0 and 1 that its place
in the pipeline gives it, less those that a redirection replaces.

The argument is about one start. `Start.At` says how the shell's descriptors look when a stage is
started; `Desk.start_at_of_get?` finds every start of a run in such a situation, and
`Start.At.get?_set_up` follows the child from there.
-/

namespace LineShell

/-! ## The slots of a chain -/

section Slots

variable {shell : Table} {k : Nat} {input : Option Descriptor}
  {pipes : List (Descriptor × Descriptor)} {d : Descriptor}

/-- A descriptor that is no end of the chain refers to what it refers to without the chain. -/
theorem get?_with_slots_of_not_mem (h : d ∉ chainEnds input pipes) :
    (shell.withSlots (chainSlots k input pipes)).get? d = shell.get? d := by
  have hnone : (chainSlots k input pipes).lookup d = none := by
    rw [List.lookup_eq_none_iff]
    intro slot hslot
    have hmem : slot.1 ∈ chainEnds input pipes := by
      rw [← map_fst_chain_slots k]
      exact List.mem_map_of_mem hslot
    have hne : d ≠ slot.1 := fun heq => h (heq ▸ hmem)
    simpa using hne
  simp only [Table.get?, Table.withSlots, List.lookup_append, hnone, Option.or_none]

/-- A descriptor that the shell did not use is looked up in the chain alone. -/
theorem get?_with_slots_of_not_mem_used (h : d ∉ shell.used) :
    (shell.withSlots (chainSlots k input pipes)).get? d = (chainSlots k input pipes).lookup d := by
  have hnone : shell.slots.lookup d = none := Table.get?_eq_none_iff.mpr h
  simp only [Table.get?, Table.withSlots, List.lookup_append, hnone, Option.none_or]

/-- The input of the first stage of a chain is the reader of the pipe before it. -/
theorem get?_chain_input (h : d ∉ shell.used) :
    (shell.withSlots (chainSlots k (some d) pipes)).get? d = some (.pipeReader (k - 1)) := by
  rw [get?_with_slots_of_not_mem_used h]
  simp [chainSlots]

/-- The output of the first stage of a chain is the writer of its first pipe. -/
theorem get?_chain_output {reader writer : Descriptor} (h : writer ∉ shell.used)
    (hnodup : (chainEnds input ((reader, writer) :: pipes)).Nodup) :
    (shell.withSlots (chainSlots k input ((reader, writer) :: pipes))).get? writer =
      some (.pipeWriter k) := by
  simp only [chainEnds, pipeEnds, List.flatMap_cons, List.cons_append, List.nil_append,
    List.nodup_append, List.nodup_cons, List.mem_cons, not_or] at hnodup
  obtain ⟨_, ⟨⟨hne, _⟩, _⟩, hinput⟩ := hnodup
  rw [get?_with_slots_of_not_mem_used h]
  cases input with
  | none => simp [chainSlots, pipeSlots, lookup_cons_eq_ite, Ne.symm hne]
  | some d =>
      have hd : writer ≠ d := fun heq => hinput d (by simp) writer (by simp) heq.symm
      simp [chainSlots, pipeSlots, lookup_cons_eq_ite, Ne.symm hne, hd]

end Slots

/-! ## One start -/

/-- Opening a file gives no end of a pipe of the run, the pipes being numbered from `first` on. This
is assumed of the system: even a name that stands for a descriptor opens something new. -/
def Child.Opener.OpensNoEnd {τ : Type} (opener : Child.Opener τ) (first : Nat) : Prop :=
  opener.OpensOnly fun channel => ¬ channel.EndFrom first

/-- The stage before pipe `k` is started by a shell that held the descriptors `shell` before the
run: its own ends are `input` and the writer of the first of `pipes`, and the shell still has these
and the ends of the stages behind it. -/
structure Start.At (shell : Table) (k : Nat) (input : Option Descriptor)
    (pipes : List (Descriptor × Descriptor)) (start : Start) : Prop where
  ends : start.ends = ⟨input, pipes.head?.map Prod.snd⟩
  siblings : start.siblings = (Wiring.chain input pipes).tail.flatMap StageEnds.toList
  table : start.table = shell.withSlots (chainSlots k input pipes)
  nodup : (chainEnds input pipes).Nodup
  fresh : ∀ d ∈ chainEnds input pipes, d ∉ shell.used

namespace Start.At

variable {shell table : Table} {k : Nat} {input : Option Descriptor}
  {pipes : List (Descriptor × Descriptor)} {start : Start} {τ : Type} {opener : Child.Opener τ}
  {state : τ}

/-- What a stage is handed and what it has to close are together all ends of the chain. -/
theorem mem_ends_or_siblings (h : start.At shell k input pipes) (d : Descriptor) :
    d ∈ start.ends.toList ++ start.siblings ↔ d ∈ chainEnds input pipes := by
  have hchain : (Wiring.chain input pipes).flatMap StageEnds.toList =
      start.ends.toList ++ start.siblings := by
    rw [h.ends, h.siblings]
    cases pipes <;> rfl
  rw [← hchain, Wiring.mem_flat_map_chain]

/-- A stage is started with the shell's descriptors 0, 1 and 2, which the chain leaves alone. -/
theorem standard (h : start.At shell k input pipes) (hshell : shell.Standard) :
    start.table.Standard := by
  rw [h.table]
  exact hshell.mono fun d hd => by simp [Table.used_with_slots, hd]

/-- No end of the chain is one of the descriptors 0, 1 and 2. -/
theorem gt_two (h : start.At shell k input pipes) (hshell : shell.Standard) :
    ∀ d ∈ start.ends.toList ++ start.siblings, 2 < d := fun d hd =>
  hshell.gt_two (h.fresh d ((h.mem_ends_or_siblings d).mp hd))

/-- The ends that a stage is handed or has to close are open when it is started. -/
theorem mem_used (h : start.At shell k input pipes) :
    ∀ d ∈ start.ends.toList ++ start.siblings, d ∈ start.table.used := by
  intro d hd
  have hmem := (h.mem_ends_or_siblings d).mp hd
  rw [h.table, Table.used_with_slots, map_fst_chain_slots]
  exact List.mem_append_right _ hmem

/-- What the shell held before the run is still there, and is no end of a pipe made in the run. -/
theorem get?_ne_end (h : start.At shell k input pipes) {first : Nat}
    (hnumbered : ∀ d channel, shell.get? d = some channel → ¬ channel.EndFrom first)
    {d : Descriptor} (hd : d ∉ chainEnds input pipes) {channel : Channel}
    (hend : channel.EndFrom first) : start.table.get? d ≠ some channel := by
  rw [h.table, get?_with_slots_of_not_mem hd]
  exact fun hget => hnumbered d channel hget hend

/-- After the set-up, descriptor 0 refers to an end of a pipe only if there is a pipe before the
stage and no redirection of its input; then it is the reader of that pipe. -/
theorem get?_set_up_stdin (h : start.At shell k input pipes) (hshell : shell.Standard)
    {first : Nat}
    (hnumbered : ∀ d channel, shell.get? d = some channel → ¬ channel.EndFrom first)
    {i o : Channel}
    (harranged : Child.Arranged start.stage start.ends start.siblings i o start.table table)
    (hopened : start.stage.input.isSome → ¬ i.EndFrom first)
    {channel : Channel} (hend : channel.EndFrom first) :
    table.get? .stdin = some channel ↔
      channel = .pipeReader (k - 1) ∧ input.isSome ∧ start.stage.input = none := by
  rw [harranged.stdin]
  cases hredirect : start.stage.input with
  | some path =>
      simp only [Option.isSome_some, if_true, Option.some.injEq, reduceCtorEq, and_false, iff_false]
      rintro rfl
      exact hopened (by rw [hredirect]; rfl) hend
  | none =>
      -- Without a redirection the stage reads from its end, or from the shell's own input.
      have hinput : start.ends.input = input := by rw [h.ends]
      rw [hinput]
      cases input with
      | some d =>
          have hd : d ∉ shell.used := h.fresh d (by simp [chainEnds])
          simp only [Option.isSome_none, Bool.false_eq_true, if_false, Option.getD_some]
          rw [h.table, get?_chain_input hd]
          simp only [Option.some.injEq, Option.isSome_some, and_true]
          exact eq_comm
      | none =>
          have hstdin : .stdin ∉ chainEnds none pipes := fun hd => h.fresh _ hd hshell.stdin
          simpa using h.get?_ne_end hnumbered hstdin hend

/-- After the set-up, descriptor 1 refers to an end of a pipe only if there is a pipe behind the
stage and no redirection of its output; then it is the writer of that pipe. -/
theorem get?_set_up_stdout (h : start.At shell k input pipes) (hshell : shell.Standard)
    {first : Nat}
    (hnumbered : ∀ d channel, shell.get? d = some channel → ¬ channel.EndFrom first)
    {i o : Channel}
    (harranged : Child.Arranged start.stage start.ends start.siblings i o start.table table)
    (hopened : start.stage.output.isSome → ¬ o.EndFrom first)
    {channel : Channel} (hend : channel.EndFrom first) :
    table.get? .stdout = some channel ↔
      channel = .pipeWriter k ∧ pipes ≠ [] ∧ start.stage.output = none := by
  rw [harranged.stdout]
  cases hredirect : start.stage.output with
  | some path =>
      simp only [Option.isSome_some, if_true, Option.some.injEq, reduceCtorEq, and_false, iff_false]
      rintro rfl
      exact hopened (by rw [hredirect]; rfl) hend
  | none =>
      have houtput : start.ends.output = pipes.head?.map Prod.snd := by rw [h.ends]
      rw [houtput]
      cases pipes with
      | cons ends rest =>
          obtain ⟨reader, writer⟩ := ends
          have hwriter : writer ∉ shell.used := h.fresh writer (by simp [chainEnds, pipeEnds])
          simp only [Option.isSome_none, Bool.false_eq_true, if_false, List.head?_cons,
            Option.map_some, Option.getD_some]
          rw [h.table, get?_chain_output hwriter h.nodup]
          simp only [Option.some.injEq, ne_eq, reduceCtorEq, not_false_eq_true, and_true]
          exact eq_comm
      | nil =>
          have hstdout : .stdout ∉ chainEnds input [] := fun hd => h.fresh _ hd hshell.stdout
          simpa using h.get?_ne_end hnumbered hstdout hend

/-- The child of a stage starts its program with no end but that of its own input at 0 and that of
its own output at 1, each unless a redirection takes its place. -/
theorem get?_set_up (h : start.At shell k input pipes) (hshell : shell.Standard) {first : Nat}
    (hnumbered : ∀ d channel, shell.get? d = some channel → ¬ channel.EndFrom first)
    (hopens : opener.OpensNoEnd first)
    (hset : (Child.setUp opener start.stage start.ends start.siblings start.table state).1 =
      .ok table) {d : Descriptor} {channel : Channel} (hend : channel.EndFrom first) :
    table.get? d = some channel ↔
      (d = .stdin ∧ channel = .pipeReader (k - 1) ∧ input.isSome ∧ start.stage.input = none) ∨
      (d = .stdout ∧ channel = .pipeWriter k ∧ pipes ≠ [] ∧ start.stage.output = none) := by
  -- Only the ends and the siblings are closed, so all other descriptors must be harmless.
  obtain ⟨i, o, harranged, hinput, houtput⟩ :=
    Child.set_up_arranged (h.standard hshell) h.mem_used (h.gt_two hshell) hopens hset
  have hcases : d = .stdin ∨ d = .stdout ∨ 2 ≤ d := by
    simp only [Descriptor, Descriptor.stdin, Descriptor.stdout]
    omega
  rcases hcases with rfl | rfl | hd
  · rw [h.get?_set_up_stdin hshell hnumbered harranged hinput hend]
    simp
  · rw [h.get?_set_up_stdout hshell hnumbered harranged houtput hend]
    simp
  · have h0 := Descriptor.ne_stdin_of_two_le hd
    have h1 := Descriptor.ne_stdout_of_two_le hd
    simp only [h0, h1, false_and, or_false, iff_false]
    rw [harranged.others d hd]
    split
    · simp
    · rename_i hgiven
      rw [h.mem_ends_or_siblings] at hgiven
      exact h.get?_ne_end hnumbered hgiven hend

end Start.At

/-! ## The starts of a run -/

namespace Desk

variable {shell : Table} {k i : Nat} {input : Option Descriptor}
  {pipes : List (Descriptor × Descriptor)} {stages : List PreparedStage}
  {outcomes : List (Except SystemError ChildId)} {start : Start}

/-- The table in which the stage behind the first is started. -/
theorem close_all_first_ends {reader writer : Descriptor}
    (hnodup : (chainEnds input ((reader, writer) :: pipes)).Nodup)
    (hfresh : ∀ d ∈ chainEnds input ((reader, writer) :: pipes), d ∉ shell.used) :
    (shell.withSlots (chainSlots k input ((reader, writer) :: pipes))).closeAll
        (StageEnds.toList ⟨input, some writer⟩) =
      shell.withSlots (chainSlots (k + 1) (some reader) pipes) := by
  have hnew : ∀ d ∈ StageEnds.toList ⟨input, some writer⟩, d ∉ shell.used := by
    intro d hd
    refine hfresh d ?_
    simp only [StageEnds.toList, List.mem_append, Option.toList_some, List.mem_singleton] at hd
    simp only [chainEnds, pipeEnds, List.flatMap_cons, List.mem_append, List.mem_cons]
    tauto
  rw [Table.close_all_with_slots hnew, filter_chain_slots k hnodup]

/-- The ends of a chain behind its first stage. -/
theorem chain_ends_sublist {reader writer : Descriptor} :
    (chainEnds (some reader) pipes).Sublist (chainEnds input ((reader, writer) :: pipes)) := by
  refine List.Sublist.trans ?_ (List.sublist_append_right _ _)
  simp [chainEnds, pipeEnds]

/-- The first start is that of the first stage of the chain. -/
theorem start_of_get?_zero {table : Table}
    (h : (starts table stages (Wiring.chain input pipes) outcomes)[0]? = some start) :
    start.ends = ⟨input, pipes.head?.map Prod.snd⟩ ∧
      start.siblings = (Wiring.chain input pipes).tail.flatMap StageEnds.toList ∧
      start.table = table := by
  cases stages with
  | nil => simp [starts] at h
  | cons stage rest =>
      cases outcomes with
      | nil => cases pipes <;> simp [starts, Wiring.chain] at h
      | cons outcome outcomes =>
          cases pipes with
          | nil =>
              cases h
              exact ⟨rfl, rfl, rfl⟩
          | cons ends pipes =>
              cases h
              exact ⟨rfl, rfl, rfl⟩

/-- A later start is one of the stages behind the first, whose ends are closed by then. -/
theorem start_of_get?_succ {table : Table}
    (h : (starts table stages (Wiring.chain input pipes) outcomes)[i + 1]? = some start) :
    ∃ reader writer rest, pipes = (reader, writer) :: rest ∧
      (starts (table.closeAll (StageEnds.toList ⟨input, some writer⟩)) stages.tail
        (Wiring.chain (some reader) rest) outcomes.tail)[i]? = some start := by
  cases stages with
  | nil => simp [starts] at h
  | cons stage rest =>
      cases outcomes with
      | nil => cases pipes <;> simp [starts, Wiring.chain] at h
      | cons outcome outcomes =>
          cases pipes with
          | nil => simp [starts, Wiring.chain] at h
          | cons ends pipes => exact ⟨ends.1, ends.2, pipes, rfl, h⟩

/-- Every start of a run happens in a situation of `Start.At`: before the stage at `i` the shell
closed the ends of the `i` stages before it and none else. -/
theorem start_at_of_get? (hnodup : (chainEnds input pipes).Nodup)
    (hfresh : ∀ d ∈ chainEnds input pipes, d ∉ shell.used)
    (h : (starts (shell.withSlots (chainSlots k input pipes)) stages (Wiring.chain input pipes)
      outcomes)[i]? = some start) :
    ∃ input' pipes', start.At shell (k + i) input' pipes' ∧ pipes'.length + i = pipes.length ∧
      (input'.isSome ↔ 0 < i ∨ input.isSome) := by
  -- Closing the ends of the first stage makes the next start the first one of a shorter chain.
  induction i generalizing k input pipes stages outcomes with
  | zero =>
      obtain ⟨hends, hsiblings, htable⟩ := start_of_get?_zero h
      exact ⟨input, pipes, ⟨hends, hsiblings, htable, hnodup, hfresh⟩, rfl, by simp⟩
  | succ i ih =>
      obtain ⟨reader, writer, rest, rfl, hlater⟩ := start_of_get?_succ h
      rw [close_all_first_ends hnodup hfresh] at hlater
      obtain ⟨input', pipes', hat, hlength, hinput⟩ := ih (hnodup.sublist chain_ends_sublist)
        (fun d hd => hfresh d (chain_ends_sublist.subset hd)) hlater
      refine ⟨input', pipes', ?_, ?_, ?_⟩
      · rwa [show k + (i + 1) = k + 1 + i by omega]
      · simp only [List.length_cons]
        omega
      · simpa using hinput

end Desk

/-! ## Whole runs -/

/-- A process of a run. -/
inductive Process where
  | shell
  /-- The child of the stage at an index. -/
  | child (stage : Nat)

/-- Once all stages are started, a process has a descriptor for a channel: the shell, whose
descriptors are `shell` by then, or a child that starts its program, however the files of its stage
are opened, if opening gives no end of a pipe numbered from `first` on. -/
inductive Holds (first : Nat) (starts : List Start) (shell : Table) : Process → Channel → Prop where
  | shell {d channel} : shell.get? d = some channel → Holds first starts shell .shell channel
  | child {i start child table d channel} {τ : Type} {opener : Child.Opener τ} {state : τ} :
      opener.OpensNoEnd first → starts[i]? = some start → start.outcome = .ok child →
      (Child.setUp opener start.stage start.ends start.siblings start.table state).1 = .ok table →
      table.get? d = some channel → Holds first starts shell (.child i) channel

/-- The program of the stage at `i` uses, at `d`, an end of a pipe, the pipes being numbered from
`first` on: it reads from the pipe before it and writes to the pipe behind it, unless a redirection
replaces them. -/
def UsesEnd (first : Nat) (pipeline : Pipeline) (i : Nat) (d : Descriptor) (channel : Channel) :
    Prop :=
  ∃ stage, pipeline.stages[i]? = some stage ∧
    ((d = .stdin ∧ channel = .pipeReader (first + (i - 1)) ∧ 0 < i ∧ stage.redirects.input = none) ∨
      (d = .stdout ∧ channel = .pipeWriter (first + i) ∧ i < pipeline.size - 1 ∧
        stage.redirects.output = none))

/-- Of the given starts, every child that gets as far as its program holds the ends that its stage
uses and no others, however the files of the stage are opened. -/
def EndsUsed (first : Nat) (pipeline : Pipeline) (starts : List Start) : Prop :=
  ∀ i start child, starts[i]? = some start → start.outcome = .ok child →
    ∀ {τ : Type} (opener : Child.Opener τ) (state : τ) (table : Table), opener.OpensNoEnd first →
      (Child.setUp opener start.stage start.ends start.siblings start.table state).1 = .ok table →
      ∀ d channel, channel.EndFrom first →
        (table.get? d = some channel ↔ UsesEnd first pipeline i d channel)

/-- In a run with the given acts, after which the shell has the descriptors `shell`, no process
holds an end of a pipe that it does not use. -/
structure EndsOwned (first : Nat) (pipeline : Pipeline) (acts : List Act) (shell : Table) :
    Prop where
  /-- The shell never waits with an end in its hands. -/
  waits : ∀ wait ∈ acts.filterMap Act.wait?, ∀ d channel, wait.table.get? d = some channel →
    ¬ channel.EndFrom first
  children : EndsUsed first pipeline (acts.filterMap Act.start?)
  /-- No end is held by two processes. -/
  single : ∀ p q channel, channel.EndFrom first →
    Holds first (acts.filterMap Act.start?) shell p channel →
    Holds first (acts.filterMap Act.start?) shell q channel → p = q

/-- An end is used by one stage only. -/
theorem UsesEnd.unique {first i j : Nat} {pipeline : Pipeline} {d e : Descriptor}
    {channel : Channel} (h : UsesEnd first pipeline i d channel)
    (h' : UsesEnd first pipeline j e channel) : i = j := by
  obtain ⟨_, _, ⟨_, rfl, hi, _⟩ | ⟨_, rfl, _⟩⟩ := h
  · obtain ⟨_, _, ⟨_, hchannel, hj, _⟩ | ⟨_, hchannel, _⟩⟩ := h'
    · have := Channel.pipeReader.inj hchannel
      omega
    · cases hchannel
  · obtain ⟨_, _, ⟨_, hchannel, _⟩ | ⟨_, hchannel, _⟩⟩ := h'
    · cases hchannel
    · have := Channel.pipeWriter.inj hchannel
      omega

namespace EndsOwned

variable {first : Nat} {pipeline : Pipeline} {acts : List Act} {shell : Table}

/-- Where the shell holds no end after the run and every child has the ends that it uses, no end is
held twice. -/
theorem single_of_children
    (hshell : ∀ d channel, shell.get? d = some channel → ¬ channel.EndFrom first)
    {starts : List Start} (hchildren : EndsUsed first pipeline starts)
    (p q : Process) (channel : Channel) (hend : channel.EndFrom first)
    (hp : Holds first starts shell p channel) (hq : Holds first starts shell q channel) : p = q := by
  -- A process that holds an end is a child whose stage uses it, and only one stage uses it.
  have huses : ∀ p, Holds first starts shell p channel →
      ∃ i d, p = .child i ∧ UsesEnd first pipeline i d channel := by
    rintro _ (hget | ⟨hopens, hstart, hchild, hset, hget⟩)
    · exact absurd hend (hshell _ _ hget)
    · exact ⟨_, _, rfl, (hchildren _ _ _ hstart hchild _ _ _ hopens hset _ _ hend).mp hget⟩
  obtain ⟨i, d, rfl, hi⟩ := huses p hp
  obtain ⟨j, e, rfl, hj⟩ := huses q hq
  rw [hi.unique hj]

/-- Where no stage was started, there is nothing to show. -/
theorem of_no_start (hshell : ∀ d channel, shell.get? d = some channel → ¬ channel.EndFrom first)
    (hstarts : acts.filterMap Act.start? = []) (hwaits : acts.filterMap Act.wait? = []) :
    EndsOwned first pipeline acts shell where
  waits := by simp [hwaits]
  children := by simp [hstarts, EndsUsed]
  single := by
    rw [hstarts]
    have hused : EndsUsed first pipeline [] := by simp [EndsUsed]
    exact single_of_children hshell hused

end EndsOwned

namespace Desk

variable {σ : Type} {host : Host σ} {pipeline : Pipeline} {desk desk' middle : Desk σ}
  {pipes : List (Descriptor × Descriptor)}

/-- With the pipes made, the shell has the slots of a chain whose first stage reads from none of
them. -/
theorem Piped.table_eq (h : Piped host desk pipes middle) : middle.context.table =
    desk.context.table.withSlots (chainSlots desk.context.pipesMade none pipes) := by
  rw [h.context]
  rfl

/-- The ends of the pipes that were made are descriptors that the shell did not use. -/
theorem Piped.chain_fresh (h : Piped host desk pipes middle) :
    ∀ d ∈ chainEnds none pipes, d ∉ desk.context.table.used := by
  simpa [chainEnds] using h.fresh

/-- The ends of the pipes that were made are distinct. -/
theorem Piped.chain_nodup (h : Piped host desk pipes middle) : (chainEnds none pipes).Nodup := by
  simpa [chainEnds] using h.nodup

/-- When the ends of the pipes are closed, the shell has the descriptors it had before the pipes. -/
theorem Piped.close_all_ends (h : Piped host desk pipes middle) :
    middle.context.table.closeAll ((Wiring.chain none pipes).flatMap StageEnds.toList) =
      desk.context.table := by
  rw [h.table_eq, close_all_chain _ h.chain_fresh]

/-- A run leaves the shell's descriptors as they were. -/
theorem ExternalRun.table_eq {result : PipelineResult}
    (h : ExternalRun host pipeline desk result desk') (hne : pipeline.stages ≠ []) :
    desk'.context.table = desk.context.table := by
  cases h with
  | unprepared _ => rfl
  | unwired _ _ hpiped =>
      have hsize : pipeline.size ≠ 0 := by simpa [Pipeline.size] using hne
      rw [Wiring.of_pipes_eq_of_row hsize, Wiring.pending_of_row, context_close_all]
      exact hpiped.close_all_ends
  | ran _ hpiped _ hran =>
      rw [hran.context]
      exact hpiped.close_all_ends

/-- A run leaves the shell in its directory. -/
theorem ExternalRun.directory_eq {result : PipelineResult}
    (h : ExternalRun host pipeline desk result desk') :
    desk'.context.directory = desk.context.directory := by
  cases h with
  | unprepared _ => rfl
  | unwired _ _ hpiped => rw [context_close_all, hpiped.context]
  | ran _ hpiped _ hran => rw [hran.context, hpiped.context]

/-- Pipes are only ever added to those that were made. -/
theorem ExternalRun.pipes_made_le {result : PipelineResult}
    (h : ExternalRun host pipeline desk result desk') :
    desk.context.pipesMade ≤ desk'.context.pipesMade := by
  cases h with
  | unprepared _ => exact Nat.le_refl _
  | unwired _ _ hpiped =>
      rw [context_close_all, hpiped.context]
      exact Nat.le_add_right _ _
  | ran _ hpiped _ hran =>
      rw [hran.context, hpiped.context]
      exact Nat.le_add_right _ _

/-- A built-in command changes the directory at most. -/
theorem context_run_builtin (host : Host σ) (command : Builtin) (arguments : List Text)
    (desk : Desk σ) : ∃ directory,
      (desk.runBuiltin host command arguments).2.context = { desk.context with directory } := by
  cases command
  simp only [runBuiltin]
  split
  · rename_i directory _
    exact ⟨directory, rfl⟩
  · exact ⟨desk.context.directory, rfl⟩

/-- A run leaves the shell ready for the next one: its descriptors are as before, and pipes were
only added to those that were made. -/
theorem PipelineRun.ready {result : PipelineResult}
    (h : PipelineRun host pipeline desk result desk') (hready : desk.context.Ready) :
    desk'.context.Ready := by
  cases h with
  | empty _ | mixed _ _ => exact hready
  | @builtin stage command code _ _ _ hbuiltin =>
      obtain ⟨directory, hcontext⟩ :=
        context_run_builtin host command (stage.argv.drop 1) desk
      rw [hbuiltin] at hcontext
      show desk'.context.Ready
      rw [show desk'.context = _ from hcontext]
      exact hready.mono rfl (Nat.le_refl _)
  | external _ hne hexternal => exact hready.mono (hexternal.table_eq hne) hexternal.pipes_made_le

/-- Every run leaves a shell that is ready for the next one. -/
theorem ready_run (host : Host σ) (pipeline : Pipeline) (hready : desk.context.Ready) :
    (desk.run host pipeline).2.context.Ready :=
  (pipeline_run host pipeline desk).ready hready

/-- The children of a run over pipes that were just made hold the ends that they use. -/
theorem Piped.ends_used {stages : List PreparedStage} (hpiped : Piped host desk pipes middle)
    (hready : desk.context.Ready) (hlength : pipes.length + 1 = pipeline.size)
    (hprepare : pipeline.stages.mapM PreparedStage.ofStage = .ok stages)
    (outcomes : List (Except SystemError ChildId)) :
    EndsUsed desk.context.pipesMade pipeline
      (starts middle.context.table stages (Wiring.chain none pipes) outcomes) := by
  intro i start child hstart _ τ opener state table hopens hset d channel hend
  obtain ⟨stage, hstage, hform⟩ :=
    PreparedStage.is_form_of_of_get? hprepare (stage_of_starts_get? hstart).1
  rw [hpiped.table_eq] at hstart
  obtain ⟨input, pipes', hat, hlength', hinput⟩ :=
    start_at_of_get? hpiped.chain_nodup hpiped.chain_fresh hstart
  have hpipes : pipes' ≠ [] ↔ i < pipeline.size - 1 := by
    rw [← List.length_pos_iff]
    omega
  rw [hat.get?_set_up hready.standard hready.numbered hopens hset hend, hinput, hpipes,
    hform.input, hform.output]
  simp only [UsesEnd, hstage, Option.some.injEq, exists_eq_left', Option.isSome_none,
    Bool.false_eq_true, or_false]
  -- The pipe before the stage at `i` has the number `first + i - 1` only where there is one.
  have hnumber : 0 < i → desk.context.pipesMade + i - 1 = desk.context.pipesMade + (i - 1) := by
    omega
  constructor
  · rintro (⟨rfl, rfl, hi, hnone⟩ | h)
    · exact .inl ⟨rfl, by rw [hnumber hi], hi, hnone⟩
    · exact .inr h
  · rintro (⟨rfl, rfl, hi, hnone⟩ | h)
    · exact .inl ⟨rfl, by rw [hnumber hi], hi, hnone⟩
    · exact .inr h

/-- A run without built-in commands leaves no end in the wrong hands, at whichever step it ends. -/
theorem ExternalRun.ends_owned {result : PipelineResult}
    (h : ExternalRun host pipeline desk result desk') (hne : pipeline.stages ≠ [])
    (hready : desk.context.Ready) :
    ∃ acts, Steps host desk acts desk' ∧
      EndsOwned desk.context.pipesMade pipeline acts desk'.context.table := by
  have hshell : ∀ d channel, desk'.context.table.get? d = some channel →
      ¬ channel.EndFrom desk.context.pipesMade := by
    -- The shell has its own descriptors back, none of which is an end of this run.
    rw [h.table_eq hne]
    exact hready.numbered
  cases h with
  | unprepared _ => exact ⟨[], .refl _, .of_no_start hshell rfl rfl⟩
  | unwired _ _ hpiped =>
      refine ⟨_, hpiped.close_all_steps _, .of_no_start hshell ?_ ?_⟩
      · exact Act.filter_map_start?_before_waits _ [] _
      · exact Act.filter_map_wait?_eq_nil Act.wait?_before_waits
  | ran hprepare hpiped hlength hran =>
      refine ⟨_, hran.all_steps hpiped, ?_⟩
      have hused := hpiped.ends_used hready hlength hprepare
      refine ⟨?_, ?_, ?_⟩
      · rw [Act.filter_map_wait?_run]
        intro wait hwait
        rw [hran.tables wait hwait]
        exact hshell
      · rw [Act.filter_map_start?_run]
        exact hused _
      · rw [Act.filter_map_start?_run]
        exact EndsOwned.single_of_children hshell (hused _)

end Desk

/-- A run leaves no end of a pipe in the wrong hands: the shell holds none whenever it waits, also
if a stage could not be started, every child that gets as far as its program holds exactly the ends
that its stage uses, and so no end is held by two processes once the stages are started. -/
theorem pipe_ends_of_run {σ : Type} (host : Host σ) (pipeline : Pipeline) (desk : Desk σ)
    (hexternal : pipeline.builtin? = none) (hne : pipeline.stages ≠ [])
    (hready : desk.context.Ready) :
    ∃ acts, (desk.run host pipeline).2.acts = desk.acts ++ acts ∧
      EndsOwned desk.context.pipesMade pipeline acts (desk.run host pipeline).2.context.table := by
  obtain ⟨acts, hsteps, howned⟩ :=
    (Desk.run_external_run host hexternal hne desk).ends_owned hne hready
  exact ⟨acts, hsteps.acts_eq, howned⟩

/-- An open file is no end of a pipe. -/
theorem Channel.not_end_from_of_map_file {opened : Except SystemError Nat} {channel : Channel}
    (h : opened.map Channel.file = .ok channel) (first : Nat) : ¬ channel.EndFrom first := by
  cases opened with
  | error cause => cases h
  | ok handle =>
      cases h
      exact id

/-- The children of a `World` open files and nothing else. -/
theorem World.opens_no_end (directory : Location) (first : Nat) :
    (World.opener directory).OpensNoEnd first where
  input _ _ _ _ h := Channel.not_end_from_of_map_file h first
  output _ _ _ _ _ h := Channel.not_end_from_of_map_file h first

/-- Three stages of which the first reads from a file and the last cannot be started. -/
theorem pipe_ends_of_run_with_failed_fork :
    let stage (name : Char) (redirects : Redirects) : Stage :=
      ⟨.external ['/', name], [[name]], redirects⟩
    let pipeline : Pipeline := ⟨[stage 'a' { input := some ['f'] }, stage 'b' {}, stage 'c' {}]⟩
    let host := Rehearsal.host (World.host [])
    let desk := Desk.rehearsed [.ends (.exited 0), .ends (.exited 0), .fails .tryAgain]
    (pipeline.builtin? = none ∧ pipeline.stages ≠ [] ∧ desk.context.Ready ∧
      (World.opener []).OpensNoEnd 0) ∧
    (desk.run host pipeline).1.started = true ∧
    ∃ acts, (desk.run host pipeline).2.acts = desk.acts ++ acts ∧
      EndsOwned 0 pipeline acts (desk.run host pipeline).2.context.table :=
  ⟨⟨rfl, by simp, ready_first_table none [], World.opens_no_end [] 0⟩, rfl,
    pipe_ends_of_run _ _ _ rfl (by simp) (ready_first_table none [])⟩

end LineShell
