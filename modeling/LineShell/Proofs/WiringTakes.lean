import LineShell.Proofs.Run
import LineShell.World
import Mathlib.Data.List.Count
import Mathlib.Data.List.Perm.Basic

/-!
# Taking pipe ends in any order

The stages of a wiring take their ends in any order, some of them never and some more than once.
`take_law` says where each pipe end is then: it is left in the wiring as long as its stage took
nothing, and else it went to the first take of its stage and to no other.

Two facts carry this. No end is lost or doubled by a take, whatever the wiring is (`take_perm`). And
after any takes the wiring is known: the stages that took something have nothing left, and the
others have what they had at first (`take_each_untaken`).
-/

namespace LineShell

namespace Wiring

/-- What the stages at the given indices take, one after the other, and the wiring that
they leave. -/
def takeEach : List Nat → Wiring → List StageEnds × Wiring
  | [], w => ([], w)
  | index :: rest, w =>
    let (ends, w) := w.take index
    let (more, w) := takeEach rest w
    (ends :: more, w)

/-- The ends of the stage at `index`: it reads from the pipe before it and writes to the one behind
it. -/
def endsOf (pipes : List (Descriptor × Descriptor)) (index : Nat) : StageEnds where
  input := if index = 0 then none else pipes[index - 1]?.map Prod.fst
  output := pipes[index]?.map Prod.snd

/-- The wiring of `n` stages of which those in `taken` took their ends. -/
def untaken (pipes : List (Descriptor × Descriptor)) (n : Nat) (taken : List Nat) : Wiring :=
  ⟨(List.range n).map fun index => if index ∈ taken then none else some (endsOf pipes index)⟩

/-- Where the end `d` of the stage at `owner` is. It is the stage's end on one `side`, input or
output. -/
inductive Held (takes : List Nat) (given : List StageEnds) (left : Wiring)
    (side : StageEnds → Option Descriptor) (owner : Nat) (d : Descriptor) : Prop where
  /-- The stage took nothing yet, so the end is left. -/
  | left : owner ∉ takes → left.pending.count d = 1 → d ∉ given.flatMap StageEnds.toList →
      Held takes given left side owner d
  /-- The first take of the stage gave the end, and no other take did. -/
  | taken {before after ends} : takes = before ++ owner :: after → owner ∉ before →
      given[before.length]? = some ends → side ends = some d →
      (given.flatMap StageEnds.toList).count d = 1 → d ∉ left.pending →
      Held takes given left side owner d

/-- `given` is what `takes` gave, and `left` what they left, of the ends of the pipes between `n`
stages. -/
structure Shared (n : Nat) (pipes : List (Descriptor × Descriptor)) (takes : List Nat)
    (given : List StageEnds) (left : Wiring) : Prop where
  length : given.length = takes.length
  /-- The first take of a stage gives its ends, and every other take gives nothing. -/
  gives : ∀ k index, takes[k]? = some index →
    given[k]? = some (if index ∈ takes.take k then {} else endsOf pipes index)
  /-- A take of a stage that took its ends, or of none that there is, changes nothing. -/
  again : ∀ index, index ∈ takes ∨ n ≤ index → left.take index = ({}, left)
  /-- The ends that are left are in the order of the stages, and inputs before outputs. -/
  pending : left.pending =
    ((List.range n).filter (· ∉ takes)).flatMap fun index => (endsOf pipes index).toList
  /-- A pipe's writer is the output of the stage before it. -/
  writers : ∀ k writer, pipes[k]?.map Prod.snd = some writer →
    Held takes given left StageEnds.output k writer
  /-- A pipe's reader is the input of the stage behind it. -/
  readers : ∀ k reader, pipes[k]?.map Prod.fst = some reader →
    Held takes given left StageEnds.input (k + 1) reader

variable {n : Nat} {pipes : List (Descriptor × Descriptor)} {takes taken : List Nat} {index : Nat}

/-! ## No end is lost or doubled -/

/-- The ends that are pending are those of the first stage, if they were not taken, and those of the
rest. -/
theorem pending_cons (ends : Option StageEnds) (rest : List (Option StageEnds)) :
    pending ⟨ends :: rest⟩ = (ends.map StageEnds.toList).getD [] ++ pending ⟨rest⟩ :=
  List.flatMap_cons

/-- One take moves ends: those that it gives and those that it leaves are together the ones there
were. -/
theorem take_perm (w : Wiring) (index : Nat) :
    ((w.take index).1.toList ++ (w.take index).2.pending).Perm w.pending := by
  obtain ⟨stages⟩ := w
  induction stages generalizing index with
  | nil => exact .refl _
  | cons ends rest ih =>
      cases index with
      | zero =>
          cases ends with
          | none => exact .refl _
          | some ends => exact .refl _
      | succ index =>
          have hswap := (@List.perm_append_comm _ (take ⟨rest⟩ index).1.toList
            ((ends.map StageEnds.toList).getD [])).append_right (take ⟨rest⟩ index).2.pending
          rw [List.append_assoc, List.append_assoc] at hswap
          rw [pending_cons]
          exact hswap.trans ((ih index).append_left _)

/-- Takes move ends, by induction over the takes: those that were given and those that are left are
together the ones there were. -/
theorem take_each_perm (takes : List Nat) (w : Wiring) :
    ((takeEach takes w).1.flatMap StageEnds.toList ++ (takeEach takes w).2.pending).Perm
      w.pending := by
  induction takes generalizing w with
  | nil => exact .refl _
  | cons index rest ih =>
      have hrest := (ih (w.take index).2).append_left (w.take index).1.toList
      rw [← List.append_assoc] at hrest
      exact hrest.trans (take_perm w index)

/-! ## What is left -/

/-- The ends of each stage of a chain by its number: the reader of the pipe before it and the writer
of the one behind. -/
theorem chain_eq_map_range (input : Option Descriptor) (pipes : List (Descriptor × Descriptor)) :
    chain input pipes = (List.range (pipes.length + 1)).map fun index =>
      ⟨if index = 0 then input else pipes[index - 1]?.map Prod.fst, pipes[index]?.map Prod.snd⟩ := by
  induction pipes generalizing input with
  | nil => rfl
  | cons ends rest ih =>
      obtain ⟨reader, writer⟩ := ends
      rw [chain, ih, List.length_cons, @List.range_succ_eq_map (rest.length + 1), List.map_cons,
        List.map_map]
      refine congrArg₂ _ rfl (List.map_congr_left fun index _ => ?_)
      cases index <;> simp

/-- In a new wiring no stage took its ends. -/
theorem of_pipes_eq_untaken (h : pipes.length = n - 1) : ofPipes n pipes = untaken pipes n [] := by
  cases n with
  | zero => rfl
  | succ n =>
      obtain rfl : pipes.length = n := h
      simp [ofPipes, untaken, chain_eq_map_range, endsOf]

/-- There are no ends for a number that no stage has. -/
theorem ends_of_eq_empty (h : pipes.length = n - 1) (hindex : n ≤ index) :
    endsOf pipes index = {} := by
  have hwriter : pipes.length ≤ index := by omega
  by_cases hzero : index = 0
  · simp [endsOf, hzero ▸ hwriter, hzero]
  · have hreader : pipes.length ≤ index - 1 := by omega
    simp [endsOf, hwriter, hreader, hzero]

/-- A stage that took its ends, or that there is not, has none to lose. -/
theorem untaken_append (hindex : index ∈ taken ∨ n ≤ index) :
    untaken pipes n (taken ++ [index]) = untaken pipes n taken := by
  refine congrArg Wiring.mk (List.map_congr_left fun k hk => ?_)
  have hk : k < n := List.mem_range.mp hk
  have hmem : k ∈ taken ++ [index] ↔ k ∈ taken := by
    rw [List.mem_append, List.mem_singleton]
    refine or_iff_left_of_imp fun heq => ?_
    subst heq
    exact hindex.resolve_right (Nat.not_le.mpr hk)
  rw [if_congr hmem rfl rfl]

/-- A take gives a stage its ends, or nothing if it took them before, and has the stage down as one
that took them. -/
theorem take_untaken (h : pipes.length = n - 1) (taken : List Nat) (index : Nat) :
    (untaken pipes n taken).take index =
      (if index ∈ taken then {} else endsOf pipes index, untaken pipes n (taken ++ [index])) := by
  refine Prod.ext ?_ ?_
  · by_cases hindex : index < n
    · by_cases htaken : index ∈ taken
      · simp [take, untaken, hindex, htaken]
      · simp [take, untaken, hindex, htaken]
    · have hnone := ends_of_eq_empty h (Nat.not_lt.mp hindex)
      simp [take, untaken, hindex, hnone]
  · refine congrArg Wiring.mk (List.ext_getElem? fun k => ?_)
    rw [List.getElem?_set]
    by_cases hk : index = k
    · by_cases hindex : k < n <;> simp [untaken, hk, hindex]
    · by_cases hindex : k < n <;> simp [untaken, hk, Ne.symm hk, hindex]

/-- What is given by each of some takes and what they leave, by induction over the takes. -/
theorem take_each_untaken (h : pipes.length = n - 1) (taken takes : List Nat) :
    (takeEach takes (untaken pipes n taken)).2 = untaken pipes n (taken ++ takes) ∧
    (takeEach takes (untaken pipes n taken)).1.length = takes.length ∧
    ∀ k index, takes[k]? = some index → (takeEach takes (untaken pipes n taken)).1[k]? =
      some (if index ∈ taken ++ takes.take k then {} else endsOf pipes index) := by
  induction takes generalizing taken with
  | nil => simp [takeEach]
  | cons first rest ih =>
      obtain ⟨hleft, hlength, hgives⟩ := ih (taken ++ [first])
      simp only [takeEach, take_untaken h, List.append_assoc, List.singleton_append] at *
      refine ⟨hleft, congrArg (· + 1) hlength, fun k index hindex => ?_⟩
      cases k with
      | zero =>
          obtain rfl : first = index := by simpa using hindex
          simp
      | succ k => exact hgives k index hindex

/-- The ends that are left are those of the stages that took none. -/
theorem pending_untaken (pipes : List (Descriptor × Descriptor)) (n : Nat) (taken : List Nat) :
    (untaken pipes n taken).pending =
      ((List.range n).filter (· ∉ taken)).flatMap fun index => (endsOf pipes index).toList := by
  unfold untaken
  induction List.range n with
  | nil => rfl
  | cons index rest ih =>
      rw [List.map_cons, pending_cons, ih, List.filter_cons]
      by_cases htaken : index ∈ taken <;> simp [htaken]

/-! ## Each end -/

/-- Where an end of the stage at `owner` is, if it is counted once. -/
theorem held_of_count {given : List StageEnds} {left : Wiring} {side : StageEnds → Option Descriptor}
    {owner : Nat} {d : Descriptor} (hside : side (endsOf pipes owner) = some d)
    (hmem : ∀ ends, side ends = some d → d ∈ ends.toList) (howner : owner < n)
    (hgives : ∀ k index, takes[k]? = some index →
      given[k]? = some (if index ∈ takes.take k then {} else endsOf pipes index))
    (hpending : left.pending =
      ((List.range n).filter (· ∉ takes)).flatMap fun index => (endsOf pipes index).toList)
    (hcount : (given.flatMap StageEnds.toList).count d + left.pending.count d = 1) :
    Held takes given left side owner d := by
  have hd := hmem _ hside
  by_cases htaken : owner ∈ takes
  · obtain ⟨before, after, rfl, hbefore⟩ := List.eq_append_cons_of_mem htaken
    have hfirst := hgives before.length owner (by simp)
    rw [List.take_left, if_neg hbefore] at hfirst
    have hgiven : 0 < (given.flatMap StageEnds.toList).count d :=
      List.count_pos_iff.mpr (List.mem_flatMap.mpr ⟨_, List.mem_of_getElem? hfirst, hd⟩)
    exact .taken rfl hbefore hfirst hside (by omega) (List.count_eq_zero.mp (by omega))
  · have hleft : 0 < left.pending.count d := by
      rw [hpending]
      refine List.count_pos_iff.mpr (List.mem_flatMap.mpr ⟨owner, ?_, hd⟩)
      simpa using ⟨howner, htaken⟩
    exact .left htaken (by omega) (List.count_eq_zero.mp (by omega))

/-- The ends of a new wiring are those of the pipes. -/
theorem pending_of_pipes_perm (h : pipes.length = n - 1) :
    (ofPipes n pipes).pending.Perm (pipeEnds pipes) := by
  by_cases hn : n = 0
  · obtain rfl : pipes = [] := List.eq_nil_of_length_eq_zero (by omega)
    subst hn
    exact .refl _
  · rw [of_pipes_eq_of_row hn, pending_of_row]
    exact flat_map_chain_perm none pipes

/-- Both ends of a pipe are among the ends of the pipes. -/
theorem mem_pipe_ends {k : Nat} {ends : Descriptor × Descriptor} (h : pipes[k]? = some ends) :
    ends.1 ∈ pipeEnds pipes ∧ ends.2 ∈ pipeEnds pipes := by
  have hends := List.mem_of_getElem? h
  exact ⟨List.mem_flatMap.mpr ⟨ends, hends, by simp⟩, List.mem_flatMap.mpr ⟨ends, hends, by simp⟩⟩

/-- Takes in any order share the ends out, if these are all different. -/
theorem shared_take_each (h : pipes.length = n - 1) (hnodup : (pipeEnds pipes).Nodup)
    (takes : List Nat) : Shared n pipes takes (takeEach takes (ofPipes n pipes)).1
      (takeEach takes (ofPipes n pipes)).2 := by
  have hall := (take_each_perm takes (ofPipes n pipes)).trans (pending_of_pipes_perm h)
  rw [of_pipes_eq_untaken h] at hall ⊢
  obtain ⟨hleft, hlength, hgives⟩ := take_each_untaken h [] takes
  rw [List.nil_append] at hleft
  have hpending := pending_untaken pipes n takes
  rw [← hleft] at hpending
  -- Each end counts once in all, so it was given or is left, and not both.
  have hcount {d : Descriptor} (hd : d ∈ pipeEnds pipes) :
      ((takeEach takes (untaken pipes n [])).1.flatMap StageEnds.toList).count d +
        (takeEach takes (untaken pipes n [])).2.pending.count d = 1 := by
    rw [← List.count_append, hall.count_eq, List.count_eq_one_of_mem hnodup hd]
  refine ⟨hlength, hgives, fun index hindex => ?_, hpending, fun k writer hwriter => ?_,
    fun k reader hreader => ?_⟩
  · have hnone : (if index ∈ takes then {} else endsOf pipes index) = ({} : StageEnds) := by
      split
      · rfl
      · rename_i hnew
        exact ends_of_eq_empty h (hindex.resolve_left hnew)
    rw [hleft, take_untaken h, hnone, untaken_append hindex]
  · obtain ⟨⟨reader, writer⟩, hpipe, rfl⟩ := Option.map_eq_some_iff.mp hwriter
    have hk := (List.getElem?_eq_some_iff.mp hpipe).1
    have hside : ∀ ends : StageEnds, ends.output = some writer → writer ∈ ends.toList :=
      fun ends hends => by simp [StageEnds.toList, hends]
    exact held_of_count hwriter hside (by omega) hgives hpending (hcount (mem_pipe_ends hpipe).2)
  · obtain ⟨⟨reader, writer⟩, hpipe, rfl⟩ := Option.map_eq_some_iff.mp hreader
    have hk := (List.getElem?_eq_some_iff.mp hpipe).1
    have hside : ∀ ends : StageEnds, ends.input = some reader → reader ∈ ends.toList :=
      fun ends hends => by simp [StageEnds.toList, hends]
    exact held_of_count hreader hside (by omega) hgives hpending (hcount (mem_pipe_ends hpipe).1)

end Wiring

/-- A wiring is made of one pipe fewer than there are stages, all of which were made. -/
theorem Desk.exists_piped_of_wire {σ : Type} {host : Host σ} {n : Nat} {desk : Desk σ} {w : Wiring}
    (h : (desk.wire host n).1 = .ok w) : ∃ pipes : List (Descriptor × Descriptor),
      pipes.length = n - 1 ∧ w = .ofPipes n pipes ∧ Piped host desk pipes (desk.wire host n).2 := by
  have hpiped := make_pipes_piped host (n - 1) desk
  have hlength := @length_make_pipes σ host (n - 1) desk
  unfold wire at h ⊢
  split at h
  · rename_i pipes middle hpipes
    rw [hpipes] at hpiped hlength
    cases h
    exact ⟨pipes, hlength rfl, rfl, hpiped⟩
  · cases h

/-- Whatever takes the stages of a new wiring make, in any order and as often as they like: at every
moment each end of its pipes is either left, or was given to the first take of its stage. All other
takes give nothing and change nothing. -/
theorem take_law {σ : Type} {host : Host σ} {n : Nat} {desk : Desk σ} {w : Wiring}
    (h : (desk.wire host n).1 = .ok w) (takes : List Nat) :
    ∃ pipes : List (Descriptor × Descriptor), pipes.length = n - 1 ∧ (pipeEnds pipes).Nodup ∧
      (desk.wire host n).2.acts = desk.acts ++ (pipes.map fun ends => .piped ends.1 ends.2) ∧
      Wiring.Shared n pipes takes (Wiring.takeEach takes w).1 (Wiring.takeEach takes w).2 := by
  obtain ⟨pipes, hlength, rfl, hpiped⟩ := Desk.exists_piped_of_wire h
  exact ⟨pipes, hlength, hpiped.nodup, hpiped.steps.acts_eq,
    Wiring.shared_take_each hlength hpiped.nodup takes⟩

/-- The stage in the middle of three takes its ends twice, and a stage that there is not
takes some. -/
theorem take_law_out_of_order :
    let host := World.host []
    let desk : Desk World := ⟨⟨World.firstTable none, [], 0⟩, World.start .empty .empty, []⟩
    let w : Wiring := .ofPipes 3 [(3, 4), (5, 6)]
    let takes := [1, 1, 7, 0]
    (desk.wire host 3).1 = .ok w ∧
    w.takeEach takes =
      ([⟨some 3, some 6⟩, {}, {}, ⟨none, some 4⟩], ⟨[none, none, some ⟨some 5, none⟩]⟩) ∧
    ∃ pipes : List (Descriptor × Descriptor), pipes.length = 3 - 1 ∧ (pipeEnds pipes).Nodup ∧
      (desk.wire host 3).2.acts = desk.acts ++ (pipes.map fun ends => .piped ends.1 ends.2) ∧
      Wiring.Shared 3 pipes takes (Wiring.takeEach takes w).1 (Wiring.takeEach takes w).2 := by
  intro host desk w takes
  have h : (desk.wire host 3).1 = .ok w := by decide
  exact ⟨h, by decide, take_law h takes⟩

end LineShell
