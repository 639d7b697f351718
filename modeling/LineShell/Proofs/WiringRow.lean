import LineShell.Wiring
import LineShell.Proofs.DescriptorTable

/-!
# The pipe ends of a row of stages

While the stages of a pipeline are started from left to right, a wiring has a simple shape: the
first stages took their ends, and the others have the ends of a `Wiring.chain`. `Wiring.ofRow` is
that shape, and `take_of_row` and `pending_of_row` say what taking the next ends does to it.
`chainSlots` are the slots that the ends of a chain fill in the shell's table; closing the first
stage's ends leaves those of the rest of the chain (`filter_chain_slots`).
-/

namespace LineShell

/-- The ends of pipes, in the order in which they are made. -/
def pipeEnds (pipes : List (Descriptor × Descriptor)) : List Descriptor :=
  pipes.flatMap fun ends => [ends.1, ends.2]

/-- The slots of pipes that are numbered from `k` on. -/
def pipeSlots (k : Nat) : List (Descriptor × Descriptor) → List (Descriptor × Channel)
  | [] => []
  | (reader, writer) :: rest =>
      (reader, .pipeReader k) :: (writer, .pipeWriter k) :: pipeSlots (k + 1) rest

/-- The slots of a chain whose first stage reads from `input`, the reader of the pipe before pipe
`k`. -/
def chainSlots (k : Nat) (input : Option Descriptor) (pipes : List (Descriptor × Descriptor)) :
    List (Descriptor × Channel) :=
  (input.toList.map fun d => (d, .pipeReader (k - 1))) ++ pipeSlots k pipes

/-- The ends of a chain. -/
def chainEnds (input : Option Descriptor) (pipes : List (Descriptor × Descriptor)) :
    List Descriptor :=
  input.toList ++ pipeEnds pipes

variable {input : Option Descriptor} {reader writer : Descriptor}
  {pipes : List (Descriptor × Descriptor)} {k : Nat}

/-- The slots of pipes have the descriptors of their ends. -/
theorem map_fst_pipe_slots (k : Nat) (pipes : List (Descriptor × Descriptor)) :
    (pipeSlots k pipes).map Prod.fst = pipeEnds pipes := by
  induction pipes generalizing k with
  | nil => rfl
  | cons ends rest ih => simp [pipeSlots, pipeEnds, ih]

/-- The slots of a chain have the descriptors of its ends. -/
theorem map_fst_chain_slots (k : Nat) (input : Option Descriptor)
    (pipes : List (Descriptor × Descriptor)) :
    (chainSlots k input pipes).map Prod.fst = chainEnds input pipes := by
  cases input <;> simp [chainSlots, chainEnds, map_fst_pipe_slots]

namespace Wiring

/-- The wiring whose first `index` stages took their ends and whose other stages have the ends
`row`. -/
def ofRow (index : Nat) (row : List StageEnds) : Wiring :=
  ⟨List.replicate index none ++ row.map some⟩

/-- A chain has a stage at each side of each pipe. -/
theorem length_chain (input : Option Descriptor) (pipes : List (Descriptor × Descriptor)) :
    (chain input pipes).length = pipes.length + 1 := by
  induction pipes generalizing input with
  | nil => rfl
  | cons ends rest ih => simp [chain, ih]

/-- A new wiring is a row that nothing was taken from. -/
theorem of_pipes_eq_of_row {n : Nat} (hn : n ≠ 0) (pipes : List (Descriptor × Descriptor)) :
    ofPipes n pipes = ofRow 0 (chain none pipes) := by
  simp [ofPipes, hn, ofRow]

/-- Taking from the front of a row leaves the rest of it. -/
theorem take_of_row (index : Nat) (ends : StageEnds) (row : List StageEnds) :
    (ofRow index (ends :: row)).take index = (ends, ofRow (index + 1) row) := by
  simp [take, ofRow, List.replicate_succ']

/-- The ends that are left of a row are those of its stages. -/
theorem pending_of_row (index : Nat) (row : List StageEnds) :
    (ofRow index row).pending = row.flatMap StageEnds.toList := by
  simp [pending, ofRow, List.flatMap_append, List.flatMap_map]

/-- The ends of the stages of a chain are the ends of the chain, each once. -/
theorem flat_map_chain_perm (input : Option Descriptor) (pipes : List (Descriptor × Descriptor)) :
    ((chain input pipes).flatMap StageEnds.toList).Perm (chainEnds input pipes) := by
  induction pipes generalizing input with
  | nil => simp [chain, chainEnds, pipeEnds, StageEnds.toList]
  | cons ends rest ih =>
      obtain ⟨reader, writer⟩ := ends
      have hrest : (writer :: (chain (some reader) rest).flatMap StageEnds.toList).Perm
          (reader :: writer :: pipeEnds rest) :=
        ((ih (some reader)).cons writer).trans (.swap reader writer _)
      rw [chain, List.flatMap_cons, StageEnds.toList, List.append_assoc]
      exact hrest.append_left input.toList

/-- The ends of the stages of a chain are the ends of its pipes and its input. -/
theorem mem_flat_map_chain (input : Option Descriptor) (pipes : List (Descriptor × Descriptor))
    (d : Descriptor) :
    d ∈ (chain input pipes).flatMap StageEnds.toList ↔ d ∈ chainEnds input pipes :=
  (flat_map_chain_perm input pipes).mem_iff

end Wiring

/-- Closing the ends of the first stage of a chain leaves the slots of the rest of the chain. -/
theorem filter_chain_slots (k : Nat) (h : (chainEnds input ((reader, writer) :: pipes)).Nodup) :
    (chainSlots k input ((reader, writer) :: pipes)).filter
        (·.1 ∉ StageEnds.toList ⟨input, some writer⟩) =
      chainSlots (k + 1) (some reader) pipes := by
  simp only [chainEnds, pipeEnds, List.flatMap_cons, List.cons_append, List.nil_append,
    List.nodup_append, List.nodup_cons, List.mem_cons, not_or] at h
  obtain ⟨_, ⟨⟨hne, _⟩, hwriter, _⟩, hinput⟩ := h
  -- The reader stays, since it is the input of the next stage.
  have hreader : reader ∉ StageEnds.toList ⟨input, some writer⟩ := by
    simp only [StageEnds.toList, List.mem_append, Option.toList_some, List.mem_singleton, not_or]
    exact ⟨fun hd => hinput _ hd reader (.inl rfl) rfl, hne⟩
  have hrest : (pipeSlots (k + 1) pipes).filter (·.1 ∉ StageEnds.toList ⟨input, some writer⟩) =
      pipeSlots (k + 1) pipes := by
    refine List.filter_eq_self.mpr fun slot hslot => ?_
    have hd : slot.1 ∈ pipeEnds pipes := by
      rw [← map_fst_pipe_slots (k + 1)]
      exact List.mem_map_of_mem hslot
    have hnot : slot.1 ∉ StageEnds.toList ⟨input, some writer⟩ := by
      simp only [StageEnds.toList, List.mem_append, Option.toList_some, List.mem_singleton, not_or]
      exact ⟨fun hmem => hinput _ hmem slot.1 (.inr (.inr hd)) rfl, fun heq => hwriter (heq ▸ hd)⟩
    simpa using hnot
  have hfirst : (input.toList.map fun d => (d, Channel.pipeReader (k - 1))).filter
      (·.1 ∉ StageEnds.toList ⟨input, some writer⟩) = [] := by
    cases input <;> simp [StageEnds.toList]
  rw [chainSlots, pipeSlots, List.filter_append, hfirst, List.nil_append,
    List.filter_cons_of_pos (by simpa using hreader),
    List.filter_cons_of_neg (by simp [StageEnds.toList]), hrest]
  rfl

/-- Closing the ends of a whole chain leaves the table as it was before the pipes. -/
theorem close_all_chain {shell : Table} (k : Nat)
    (h : ∀ d ∈ chainEnds input pipes, d ∉ shell.used) :
    (shell.withSlots (chainSlots k input pipes)).closeAll
      ((Wiring.chain input pipes).flatMap StageEnds.toList) = shell := by
  have hnew : ∀ d ∈ (Wiring.chain input pipes).flatMap StageEnds.toList, d ∉ shell.used :=
    fun d hd => h d ((Wiring.mem_flat_map_chain input pipes d).mp hd)
  have hnone : (chainSlots k input pipes).filter
      (·.1 ∉ (Wiring.chain input pipes).flatMap StageEnds.toList) = [] := by
    refine List.filter_eq_nil_iff.mpr fun slot hslot => ?_
    have hmem : slot.1 ∈ chainEnds input pipes := by
      rw [← map_fst_chain_slots k]
      exact List.mem_map_of_mem hslot
    have hend := (Wiring.mem_flat_map_chain input pipes slot.1).mpr hmem
    simpa using List.mem_flatMap.mp hend
  rw [Table.close_all_with_slots hnew, hnone, Table.with_slots_nil]

end LineShell
