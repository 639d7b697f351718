import LineShell.Execution
import LineShell.Proofs.DescriptorTable
import LineShell.Rehearsal
import LineShell.World

/-!
# Shells between two runs

A shell is ready for a run if it has its three streams and the pipes it will make are new to it. The
first table of a shell has the three streams and nothing else, so a shell that has just started is
ready (`ready_first_table`), and every run leaves it so (`Desk.ready_run`). `Desk.rehearsed` is such
a shell over an empty disk, with children that turn out as laid down; it stands for the inputs at
which the laws of runs are seen at work.
-/

namespace LineShell

/-- The channel is an end of one of the pipes that are numbered from `first` on. -/
def Channel.EndFrom (first : Nat) : Channel → Prop
  | pipeReader k | pipeWriter k => first ≤ k
  | file _ => False

/-- An end of a later pipe is an end of one from an earlier number on. -/
theorem Channel.EndFrom.mono {first later : Nat} {channel : Channel} (h : channel.EndFrom later)
    (hle : first ≤ later) : channel.EndFrom first := by
  cases channel with
  | pipeReader k | pipeWriter k => exact Nat.le_trans hle h
  | file handle => exact h

/-- A shell between two runs: it has its three streams, and the pipes still to be made are new. -/
structure Context.Ready (c : Context) : Prop where
  standard : c.table.Standard
  numbered : ∀ d channel, c.table.get? d = some channel → ¬ channel.EndFrom c.pipesMade

/-- Pipes that are made in between do no harm once their ends are closed. -/
theorem Context.Ready.mono {c c' : Context} (h : c.Ready) (htable : c'.table = c.table)
    (hle : c.pipesMade ≤ c'.pipesMade) : c'.Ready where
  standard := by
    rw [htable]
    exact h.standard
  numbered := by
    rw [htable]
    intro d channel hget hend
    exact h.numbered d channel hget (hend.mono hle)

/-- A shell with its first table is ready. -/
theorem ready_first_table (limit : Option Nat) (directory : Location) :
    (⟨World.firstTable limit, directory, 0⟩ : Context).Ready where
  standard := by constructor <;> simp [World.firstTable, Table.used]
  numbered := by
    intro d channel hget
    obtain ⟨before, after, hslots, _⟩ := List.lookup_eq_some_iff.mp hget
    have hmem : (d, channel) ∈ (World.firstTable limit).slots := by
      rw [hslots]
      simp
    simp only [World.firstTable, List.mem_cons, Prod.mk.injEq, List.not_mem_nil, or_false] at hmem
    rcases hmem with ⟨_, rfl⟩ | ⟨_, rfl⟩ | ⟨_, rfl⟩ <;> exact id

/-- A shell over an empty disk that has done nothing yet, whose children turn out as laid down. -/
def Desk.rehearsed (outcomes : List Outcome) : Desk (Rehearsal World) :=
  ⟨⟨World.firstTable none, [], 0⟩, { base := World.start .empty .empty, outcomes }, []⟩

end LineShell
