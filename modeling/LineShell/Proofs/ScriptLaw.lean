import LineShell.Proofs.BoundedInput

/-!
# What the run of a script does

The lines of a script are run one after the other, with consecutive numbers, up to the end of the
input, to a line that cannot be read, or to a line after which the shell cannot go on
(`ScriptLaw`). A line with an error is reported on once, with its number, and no other line is.

That holds of scripts in memory, whose runs all reach their ends, and of scripts that are read from
a descriptor while they run (`script_law`).
-/

namespace LineShell.Script

variable {σ : Type} {host : Host σ} {name : String} {channel : Option Descriptor} {number : Nat}
  {s s' : Session σ} {events : List (ScriptEvent σ)} {ending : Ending} {bytes : List UInt8}

/-! ## Reports -/

/-- The reports on lines that were run, the first of which has the given number. -/
def reports (host : Host σ) (name : String) (number : Nat) (turns : List (ScriptTurn σ)) :
    List Report :=
  (turns.zipIdx number).filterMap fun (turn, number) =>
    (LineOutcome.report? (turn.outcome host)).map (·.at? (some ⟨number, name⟩))

/-- The reports of a run are that of its first line, with its number, and those of the rest. -/
theorem reports_cons (host : Host σ) (name : String) (number : Nat) (turn : ScriptTurn σ)
    (turns : List (ScriptTurn σ)) :
    reports host name number (turn :: turns) =
      ((LineOutcome.report? (turn.outcome host)).map (·.at? (some ⟨number, name⟩))).toList ++
        reports host name (number + 1) turns := by
  rw [reports, List.zipIdx_cons, List.filterMap_cons, reports]
  cases hreport : LineOutcome.report? (turn.outcome host) <;> simp [hreport]

/-- The places of the lines with an error, the first line having the given number. -/
def errorPlaces (host : Host σ) (name : String) (number : Nat) (turns : List (ScriptTurn σ)) :
    List (Option SourceLocation) :=
  (turns.zipIdx number).filterMap fun (turn, number) =>
    if (LineOutcome.report? (turn.outcome host)).isSome then some (some ⟨number, name⟩) else none

/-- The reports name the places of the lines that they are on. -/
theorem map_location_reports (host : Host σ) (name : String) (number : Nat)
    (turns : List (ScriptTurn σ)) :
    (reports host name number turns).map Report.location = errorPlaces host name number turns := by
  rw [reports, errorPlaces, List.map_filterMap]
  refine List.filterMap_congr fun (turn, number) _ => ?_
  dsimp only
  cases hreport : LineOutcome.report? (turn.outcome host) with
  | none => rfl
  | some r =>
      exact congrArg some (Report.location_at? (LineOutcome.location_report? hreport) _)

/-- Every line that was run is reported on with its number. -/
theorem Happens.reported (h : Happens host name channel number s events s') {k : Nat}
    {turn : ScriptTurn σ} (hk : (turns events)[k]? = some turn) :
    Session.Reported (turn.outcome host) (some ⟨number + k, name⟩) turn.before turn.status
      turn.after := by
  induction h generalizing k with
  | nil => cases hk
  | read _ _ ih => exact ih hk
  | @ran number s bytes line status middle events _ _ hrun _ ih =>
      cases k with
      | zero =>
          cases hk
          have hline := Session.reported_run_line host s line (some ⟨number, name⟩)
          rwa [hrun] at hline
      | succ k =>
          rw [Nat.add_comm k, ← Nat.add_assoc]
          exact ih hk

/-- Reading shows nothing. -/
theorem diary_next_block (host : Host σ) (s : Session σ) (source : Source) :
    (s.nextBlock host source).2.diary = s.diary := by
  unfold Session.nextBlock
  split <;> rfl

/-- All reports of a run are on its lines. -/
theorem Happens.exists_entries (h : Happens host name channel number s events s') :
    ∃ entries : List Entry, s'.diary = s.diary ++ entries ∧
      entries.filterMap Entry.report? = reports host name number (turns events) := by
  induction h with
  | nil => exact ⟨[], (List.append_nil _).symm, rfl⟩
  | @read number s result middle events s' hread _ ih =>
      have hdiary := diary_next_block host s { channel }
      rw [hread] at hdiary
      rwa [hdiary] at ih
  | @ran number s bytes line status middle events s' _ hrun _ ih =>
      obtain ⟨shown, hshown, hreport, -⟩ :=
        (Session.reported_run_line host s line (some ⟨number, name⟩)).reports
      obtain ⟨entries, hentries, hreports⟩ := ih
      rw [hrun] at hshown
      refine ⟨shown ++ entries, ?_, ?_⟩
      · rw [hentries, hshown, List.append_assoc]
      · rw [List.filterMap_append, hreport, hreports]
        exact (reports_cons host name number ⟨bytes, line, s, status, middle⟩ (turns events)).symm

/-! ## Scripts in memory -/

/-- A script in memory reads empty blocks only, which end it. -/
theorem Happens.blocks_of_memory (h : Happens host name none number s events s') :
    ∃ n, blocks events = List.replicate n [] := by
  refine ⟨_, List.eq_replicate_of_mem fun block hblock => ?_⟩
  obtain ⟨event, hevent, hsome⟩ := List.mem_filterMap.mp hblock
  rcases event with (cause | read) | turn
  · cases hsome
  · cases hsome
    exact Except.ok.inj (h.read_of_memory hevent)
  · cases hsome

/-- The lines of a script in memory are known from the start. -/
theorem Ends.of_memory (hhappens : Happens host name none number s events s')
    (h : Ends name (given bytes (blocks events)) events ending) :
    Ends name (lines bytes) events ending := by
  obtain ⟨n, hblocks⟩ := hhappens.blocks_of_memory
  have hprefix : given bytes (blocks events) <+: lines bytes := by
    cases n with
    | zero =>
        rw [hblocks]
        exact List.prefix_append _ _
    | succ n => rw [hblocks, given_replicate_nil]
  cases h with
  | completed hwent hgiven hend =>
      refine .completed hwent ?_ hend
      cases n with
      | zero =>
          -- The end was read, so there is a block.
          have hmem : [] ∈ blocks events :=
            List.mem_filterMap.mpr ⟨_, List.mem_of_getLast? hend, rfl⟩
          rw [hblocks] at hmem
          cases hmem
      | succ n => rw [hgiven, hblocks, given_replicate_nil]
  | exhausted hevents hwent hstatus hgiven =>
      exact .exhausted hevents hwent hstatus (hgiven.trans hprefix)
  | undecodable hwent hgiven hdecode =>
      exact .undecodable hwent (hgiven.trans hprefix) hdecode
  | unreadable _ _ hend _ =>
      cases hhappens.read_of_memory (List.mem_of_getLast? hend)

/-! ## Runs that end early -/

/-- Why a run ends early: the shell cannot go on after a line, the next line cannot be read, or
it is not UTF-8. -/
inductive Obstructed (wanted : List (List UInt8)) (events : List (ScriptEvent σ)) : Prop where
  | exhausted {turn e} : turn ∈ turns events → turn.status = .error e → Obstructed wanted events
  | unreadable {cause} : events.getLast? = some (.read (.error cause)) →
      cause ≠ .system .interrupted → Obstructed wanted events
  | undecodable {bytes : List UInt8} : (turns events).map ScriptTurn.bytes ++ [bytes] <+: wanted →
      Text.ofUtf8? ⟨bytes.toArray⟩ = none → Obstructed wanted events

/-- A run is completed unless there is a reason to end it early. -/
theorem Ends.eq_completed_iff {wanted : List (List UInt8)} (h : Ends name wanted events ending) :
    ending = .completed ↔ ¬ Obstructed wanted events := by
  cases h with
  | completed hwent hgiven hend =>
      refine iff_of_true rfl fun hobstructed => ?_
      cases hobstructed with
      | exhausted hmem hstatus =>
          obtain ⟨code, hcode⟩ := hwent _ hmem
          rw [hcode] at hstatus
          cases hstatus
      | unreadable hlast hcause =>
          rw [hend] at hlast
          cases hlast
      | undecodable hmore hdecode =>
          have := hmore.length_le
          rw [hgiven, List.length_append, List.length_singleton] at this
          omega
  | exhausted hevents hwent hstatus hgiven =>
      refine iff_of_false nofun (not_not.mpr (.exhausted ?_ hstatus))
      rw [hevents]
      exact List.mem_filterMap.mpr ⟨_, List.mem_concat_self, rfl⟩
  | undecodable hwent hmore hdecode =>
      exact iff_of_false nofun (not_not.mpr (.undecodable hmore hdecode))
  | unreadable hwent hgiven hend hcause =>
      exact iff_of_false nofun (not_not.mpr (.unreadable hend hcause))

/-! ## The law -/

/-- What the run of a script does which is given the lines `wanted`: in some events it leads from
one session to another. -/
structure ScriptLaw (host : Host σ) (name : String) (channel : Option Descriptor) (s : Session σ)
    (wanted : List (List UInt8)) (events : List (ScriptEvent σ)) (ending : Ending)
    (s' : Session σ) : Prop where
  /-- The lines are run one after the other, with numbers that are counted from one, and nothing
  else happens but that blocks are read. -/
  happens : Happens host name channel 1 s events s'
  /-- The lines are those that are wanted, up to the one where the run ends. -/
  ends : Ends name wanted events ending
  /-- The run is completed unless there is a reason to end it early. -/
  completed : ending = .completed ↔ ¬ Obstructed wanted events
  /-- The run can go on after a line unless the system had run out of something, and the line is
  reported on once, with its number, if it has an error. -/
  reported : ∀ k turn, (turns events)[k]? = some turn →
    Session.Reported (turn.outcome host) (some ⟨k + 1, name⟩) turn.before turn.status turn.after
  /-- There are no other reports. -/
  reports : ∃ entries : List Entry, s'.diary = s.diary ++ entries ∧
    entries.filterMap Entry.report? = reports host name 1 (turns events)
  /-- Every report names the place of its line. -/
  places : (Script.reports host name 1 (turns events)).map Report.location =
    errorPlaces host name 1 (turns events)

/-- What happened in a run, and how it ended, is all that its law needs. -/
theorem ScriptLaw.of_happens {wanted : List (List UInt8)}
    (hhappens : Happens host name channel 1 s events s') (hends : Ends name wanted events ending) :
    ScriptLaw host name channel s wanted events ending s' where
  happens := hhappens
  ends := hends
  completed := hends.eq_completed_iff
  reported k _ hk := Nat.add_comm 1 k ▸ hhappens.reported hk
  reports := hhappens.exists_entries
  places := map_location_reports host name 1 (turns events)

/-- Every run that reaches its end obeys the law, with the lines that were read. -/
theorem exists_script_law {limit : Nat} {source : Source}
    (h : Session.runLines host name limit 1 source s = some (ending, s')) :
    ∃ events, ScriptLaw host name source.channel s (given source.pending (blocks events)) events
      ending s' := by
  obtain ⟨events, hhappens, hends⟩ := runs_to_of_run_lines h
  exact ⟨events, .of_happens hhappens hends⟩

/-- Every script in memory is run to its end, by the law. A script that is read from a descriptor is
run by it as well, where an empty block ends the last line; it is run to its end if only so much is
read, and whatever limit on steps is enough. -/
theorem script_law (host : Host σ) (s : Session σ) (name : String) :
    (∀ bytes, ∃ ending s' events, s.runText host name bytes = some (ending, s') ∧
      ScriptLaw host name none s (lines bytes) events ending s') ∧
    ∀ d,
      (∀ limit ending s', s.runChannel host limit name d = some (ending, s') →
        (∃ events, ScriptLaw host name (some d) s (given [] (blocks events)) events ending s' ∧
          ∀ front n, (∀ block ∈ front, block ≠ []) →
            blocks events = front ++ List.replicate (n + 1) [] →
            given [] (blocks events) = lines front.flatten) ∧
        ∀ limit', limit ≤ limit' → s.runChannel host limit' name d = some (ending, s')) ∧
      (InputEnds host name { channel := some d } s →
        ∃ limit ending s', s.runChannel host limit name d = some (ending, s')) := by
  constructor
  · intro bytes
    obtain ⟨ending, s', hrun⟩ := exists_run_text host s name bytes
    obtain ⟨events, hhappens, hends⟩ := runs_to_of_run_lines hrun
    exact ⟨ending, s', events, hrun, .of_happens hhappens (hends.of_memory hhappens)⟩
  · refine fun d => ⟨fun limit ending s' hrun => ⟨?_, fun limit' hle => run_lines_mono hle hrun⟩,
      exists_run_lines_of_input_ends⟩
    obtain ⟨events, hlaw⟩ := exists_script_law hrun
    refine ⟨events, hlaw, fun front n hfront hblocks => ?_⟩
    rw [hblocks, given_eq_lines hfront, List.nil_append]

/-- A script in three blocks, one of which breaks off within a line, is run to its end. -/
theorem script_law_on_blocks :
    let s : Session (List (List UInt8)) :=
      ⟨.empty, .json, none, ⟨⟨[], none⟩, [], 0⟩, [[65, 61], [49, 13, 10, 10, 120, 10, 66, 61]], []⟩
    InputEnds Host.ofBlocks "script" { channel := some .stdin } s ∧
    ∃ limit ending s', s.runChannel Host.ofBlocks limit "script" .stdin = some (ending, s') := by
  intro s
  have hends : InputEnds Host.ofBlocks "script" { channel := some .stdin } s :=
    Host.read_bound_of_blocks.input_ends "script" _ s
  exact ⟨hends, ((script_law Host.ofBlocks s "script").2 .stdin).2 hends⟩

/-- The first line is read in two blocks, the second is blank, and the third names a command
that is not there. -/
example :
    let s : Session (List (List UInt8)) :=
      ⟨.empty, .json, none, ⟨⟨[], none⟩, [], 0⟩, [[65, 61], [49, 13, 10, 10, 120, 10, 66, 61]], []⟩
    (s.runChannel Host.ofBlocks 9 "script" .stdin).map (fun (ending, s) =>
        (ending, s.store.bindings, (s.diary.filterMap Entry.report?).map Report.location)) =
      some (.completed, [(['A'], ['1']), (['B'], [])], [some ⟨3, "script"⟩]) := by
  decide +kernel

end LineShell.Script
