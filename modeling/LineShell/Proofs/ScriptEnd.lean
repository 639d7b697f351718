import LineShell.Proofs.ScriptRun

/-!
# A run reaches its end

A run that has not ended after some steps has read a lot: every step that it goes on after uses
up a pending byte, or reads something (`exists_under_way_of_run_lines_eq_none`). So a script
whose input ends is run to its end (`exists_run_lines_of_input_ends`), and one in memory is in
two steps more than it has bytes (`exists_run_text`). The limit on the steps of a run makes no
other difference (`run_lines_mono`).
-/

namespace LineShell

variable {σ : Type} {host : Host σ} {name : String} {number : Nat} {source : Source}
  {s middle s' : Session σ} {progress : Session.Progress}

/-- How much was read: the bytes of a block, and one for a read that failed. -/
def ScriptEvent.inflow : ScriptEvent σ → Nat
  | read (.ok block) => block.length
  | read (.error _) => 1
  | ran _ => 0

namespace Script

/-- How much was read. -/
def inflow : List (ScriptEvent σ) → Nat
  | [] => 0
  | event :: events => event.inflow + inflow events

/-- The first of the lines `wanted` were run, and the run went on after all of them. -/
structure Going (wanted : List (List UInt8)) (events : List (ScriptEvent σ)) : Prop where
  wentOn : ∀ turn ∈ turns events, turn.WentOn
  inOrder : (turns events).map ScriptTurn.bytes <+: wanted

/-- The events of a run that is under way. -/
def UnderWay (host : Host σ) (name : String) (number : Nat) (source : Source) (s : Session σ)
    (events : List (ScriptEvent σ)) : Prop :=
  (∃ s', Happens host name source.channel number s events s') ∧
    Going (given source.pending (blocks events)) events

/-- However far a script is run, only so much is read. -/
def InputEnds (host : Host σ) (name : String) (source : Source) (s : Session σ) : Prop :=
  ∃ bound, ∀ events, UnderWay host name 1 source s events → inflow events ≤ bound

/-! ## Going on -/

/-- What is read in some events and in more is read in all of them. -/
theorem inflow_append (added events : List (ScriptEvent σ)) :
    inflow (added ++ events) = inflow added + inflow events := by
  induction added with
  | nil => exact (Nat.zero_add _).symm
  | cons event added ih => rw [List.cons_append, inflow, ih, inflow, Nat.add_assoc]

/-- An event that the run went on after makes no difference to the run being under way. -/
theorem Going.cons {wanted : List (List UInt8)} {events : List (ScriptEvent σ)}
    (event : ScriptEvent σ) (hevent : ∀ turn ∈ event.turn?.toList, turn.WentOn)
    (h : Going wanted events) :
    Going (event.turn?.toList.map ScriptTurn.bytes ++ wanted) (event :: events) := by
  refine ⟨went_on_of_mem_turns_cons hevent h.wentOn, ?_⟩
  rw [map_bytes_turns_cons]
  exact (List.prefix_append_right_inj _).mpr h.inOrder

/-- Nor does reading. -/
theorem Going.cons_read {wanted : List (List UInt8)} {events : List (ScriptEvent σ)}
    (result : Except IoError (List UInt8)) (h : Going wanted events) :
    Going wanted (.read result :: events) :=
  h.cons (.read result) (by simp [ScriptEvent.turn?])

/-- A line after which the run goes on is the first event, and uses up the bytes of the line. -/
theorem LineStep.exists_under_way {bytes : List UInt8} {rest source' : Source} {number' : Nat}
    {events : List (ScriptEvent σ)}
    (h : LineStep host name number bytes rest s (.onward number' source') middle)
    (hway : UnderWay host name number' source' middle events) :
    source' = rest ∧ ∃ turn,
      (∃ s', Happens host name rest.channel number s (.ran turn :: events) s') ∧
      Going (bytes :: given rest.pending (blocks events)) (.ran turn :: events) := by
  cases h with
  | @onward line code _ hdecode hrun =>
      obtain ⟨⟨s', hhappens⟩, hgoing⟩ := hway
      refine ⟨rfl, ⟨bytes, line, s, .ok code, middle⟩, ⟨s', .ran hdecode hrun hhappens⟩, ?_⟩
      exact hgoing.cons (.ran ⟨bytes, line, s, .ok code, middle⟩)
        (by simp [ScriptEvent.turn?, ScriptTurn.WentOn])

/-- A step after which the run goes on uses up a pending byte or reads something. -/
theorem Step.exists_under_way {source' : Source} {number' : Nat} {events : List (ScriptEvent σ)}
    (h : Step host name number source s (.onward number' source') middle)
    (hway : UnderWay host name number' source' middle events) :
    ∃ added, UnderWay host name number source s (added ++ events) ∧
      source'.pending.length + 1 ≤ source.pending.length + 2 * inflow added := by
  -- A line that is pending uses up its bytes, and its line feed makes the difference. A step that
  -- reads may add to what is pending, which is why what is read counts twice.
  cases h with
  | @line line rest _ _ hcut hline =>
      obtain ⟨rfl, turn, hhappens, hgoing⟩ := hline.exists_under_way hway
      obtain ⟨hfeed, hpending⟩ := cut_line_eq_some_iff.mp hcut
      refine ⟨[.ran turn], ⟨hhappens, ?_⟩, ?_⟩
      · rwa [hpending, given_append hfeed, List.singleton_append, blocks_cons]
      · simp only [hpending, List.length_append, List.length_cons]
        omega
  | interrupted hcut hread =>
      obtain ⟨⟨s', hhappens⟩, hgoing⟩ := hway
      refine ⟨[_], ⟨⟨s', .read hread hhappens⟩, hgoing.cons_read _⟩, ?_⟩
      simp [inflow, ScriptEvent.inflow]
  | @block b block _ hcut hread =>
      obtain ⟨⟨s', hhappens⟩, hgoing⟩ := hway
      refine ⟨[_], ⟨⟨s', .read hread hhappens⟩, hgoing.cons_read _⟩, ?_⟩
      simp only [inflow, ScriptEvent.inflow, List.length_append, List.length_cons]
      omega
  | @lastLine middle _ _ hcut hpending hread hline =>
      obtain ⟨rfl, turn, ⟨s', hhappens⟩, hgoing⟩ := hline.exists_under_way hway
      refine ⟨[.read (.ok []), .ran turn], ⟨⟨s', .read hread hhappens⟩, ?_⟩, ?_⟩
      · rw [List.cons_append, List.singleton_append, given_blocks_end
          (cut_line_eq_none_iff.mp hcut) hpending, blocks_cons]
        exact hgoing.cons_read _
      · have := List.length_pos_iff.mpr hpending
        simp only [List.length_nil]
        omega

/-- A run that has not ended after `limit` steps is under way, and has read a lot. -/
theorem exists_under_way_of_run_lines_eq_none {limit : Nat}
    (h : Session.runLines host name limit number source s = none) :
    ∃ events, UnderWay host name number source s events ∧
      limit ≤ source.pending.length + 2 * inflow events := by
  induction limit generalizing number source s with
  | zero => exact ⟨[], ⟨⟨s, .nil _ _⟩, by simp [turns], by simp [turns]⟩, Nat.zero_le _⟩
  | succ limit ih =>
      have hstep := script_step host name number source s
      rw [Session.runLines] at h
      split at h
      · cases h
      · rename_i heq
        rw [heq] at hstep
        obtain ⟨events, hway, hlimit⟩ := ih h
        obtain ⟨added, hall, hcost⟩ := hstep.exists_under_way hway
        refine ⟨added ++ events, hall, ?_⟩
        rw [inflow_append]
        omega

/-! ## The end -/

/-- A script whose input ends is run to its end. -/
theorem exists_run_lines_of_input_ends (h : InputEnds host name source s) :
    ∃ limit ending s', Session.runLines host name limit 1 source s = some (ending, s') := by
  obtain ⟨bound, hbound⟩ := h
  cases hrun : Session.runLines host name (source.pending.length + 2 * bound + 1) 1 source s with
  | some reached => exact ⟨_, reached.1, reached.2, hrun⟩
  | none =>
      obtain ⟨events, hway, hlimit⟩ := exists_under_way_of_run_lines_eq_none hrun
      have := hbound events hway
      omega

/-- Nothing is read from memory but the end. -/
theorem Happens.read_of_memory {events : List (ScriptEvent σ)}
    (h : Happens host name none number s events s') {result : Except IoError (List UInt8)}
    (hmem : .read result ∈ events) : result = .ok [] := by
  induction h with
  | nil => cases hmem
  | read hread _ ih =>
      rcases List.mem_cons.mp hmem with heq | hmem
      · cases heq
        cases hread
        rfl
      · exact ih hmem
  | ran _ _ _ ih =>
      rcases List.mem_cons.mp hmem with heq | hmem
      · cases heq
      · exact ih hmem

/-- A script that is in memory reads nothing. -/
theorem Happens.inflow_of_memory {events : List (ScriptEvent σ)}
    (h : Happens host name none number s events s') : inflow events = 0 := by
  induction h with
  | nil => rfl
  | read hread _ ih =>
      cases hread
      rw [inflow, ih]
      rfl
  | ran _ _ _ ih =>
      rw [inflow, ih]
      rfl

/-- A script in memory is run to its end. -/
theorem exists_run_text (host : Host σ) (s : Session σ) (name : String) (bytes : List UInt8) :
    ∃ ending s', s.runText host name bytes = some (ending, s') := by
  cases hrun : s.runText host name bytes with
  | some reached => exact ⟨reached.1, reached.2, rfl⟩
  | none =>
      obtain ⟨events, ⟨⟨s', hhappens⟩, -⟩, hlimit⟩ := exists_under_way_of_run_lines_eq_none hrun
      have hnone := hhappens.inflow_of_memory
      simp only at hlimit
      omega

/-- A limit that is enough for a run may be raised. -/
theorem run_lines_mono {limit limit' : Nat} {reached : Ending × Session σ} (hle : limit ≤ limit')
    (h : Session.runLines host name limit number source s = some reached) :
    Session.runLines host name limit' number source s = some reached := by
  induction limit generalizing limit' number source s with
  | zero => cases h
  | succ limit ih =>
      obtain ⟨more, rfl⟩ : ∃ more, limit' = more + 1 := ⟨limit' - 1, by omega⟩
      rw [Session.runLines] at h ⊢
      split at h
      · exact h
      · exact ih (by omega) h

end Script

end LineShell
