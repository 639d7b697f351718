import LineShell.Proofs.LineReport
import LineShell.Proofs.ScriptLines

/-!
# The run of a script

The run of a script is a chain of events: blocks are read, and lines are run. `Script.Happens` says
that some events lead from one session to another; only events change a session, and lines carry
consecutive numbers. `Script.Ends` says where a run stops and how. `Script.Step` says once what a
step of a run does, and from it every run is such a chain (`runs_to_of_run_lines`).

What was read decides which lines there are (`Script.given`), and a run takes them in order.
-/

namespace LineShell

variable {σ : Type}

/-- A line of a script that was run. -/
structure ScriptTurn (σ : Type) where
  /-- The bytes of the line, without its end. -/
  bytes : List UInt8
  line : Text
  /-- The session that the line was given to. -/
  before : Session σ
  status : Session.LineStatus
  /-- The session that the line left. -/
  after : Session σ

namespace ScriptTurn

/-- What the line came to. -/
def outcome (host : Host σ) (turn : ScriptTurn σ) : Except ParseError LineOutcome :=
  (turn.before.interpretLine host turn.line).1

/-- The run went on after the line. -/
def WentOn (turn : ScriptTurn σ) : Prop :=
  ∃ code, turn.status = .ok code

end ScriptTurn

/-- Something that happens in the run of a script. -/
inductive ScriptEvent (σ : Type) where
  /-- A block was read, which is empty at the end of the input, or could not be. -/
  | read (result : Except IoError (List UInt8))
  /-- A line was run. -/
  | ran (turn : ScriptTurn σ)

namespace ScriptEvent

/-- The block that was read. -/
def block? : ScriptEvent σ → Option (List UInt8)
  | read (.ok block) => some block
  | read (.error _) | ran _ => none

/-- The line that was run. -/
def turn? : ScriptEvent σ → Option (ScriptTurn σ)
  | read _ => none
  | ran turn => some turn

end ScriptEvent

namespace Script

/-- The blocks that were read. -/
def blocks (events : List (ScriptEvent σ)) : List (List UInt8) :=
  events.filterMap ScriptEvent.block?

/-- The lines that were run. -/
def turns (events : List (ScriptEvent σ)) : List (ScriptTurn σ) :=
  events.filterMap ScriptEvent.turn?

/-- The events lead from one session to another, in the run of the script `name`, whose further
bytes are read from `channel` and whose next line has the given number. -/
inductive Happens (host : Host σ) (name : String) (channel : Option Descriptor) :
    Nat → Session σ → List (ScriptEvent σ) → Session σ → Prop where
  | nil (number s) : Happens host name channel number s [] s
  | read {number s result middle events s'} : s.nextBlock host { channel } = (result, middle) →
      Happens host name channel number middle events s' →
      Happens host name channel number s (.read result :: events) s'
  | ran {number s bytes line status middle events s'} :
      Text.ofUtf8? ⟨bytes.toArray⟩ = some line →
      s.runLine host line (some ⟨number, name⟩) = (status, middle) →
      Happens host name channel (number + 1) middle events s' →
      Happens host name channel number s (.ran ⟨bytes, line, s, status, middle⟩ :: events) s'

/-- How a run ends after some events, when what was read gives the lines `wanted`. -/
inductive Ends (name : String) (wanted : List (List UInt8)) (events : List (ScriptEvent σ)) :
    Ending → Prop where
  /-- The end of the input was read when all lines had been run. -/
  | completed : (∀ turn ∈ turns events, turn.WentOn) →
      (turns events).map ScriptTurn.bytes = wanted → events.getLast? = some (.read (.ok [])) →
      Ends name wanted events .completed
  /-- The last event is a line after which the shell could not go on. It is the first such line. -/
  | exhausted {earlier turn e} : events = earlier ++ [.ran turn] →
      (∀ turn ∈ turns earlier, turn.WentOn) → turn.status = .error e →
      (turns events).map ScriptTurn.bytes <+: wanted →
      Ends name wanted events (.failed (.exhausted e))
  /-- The next line is not UTF-8. -/
  | undecodable {bytes} : (∀ turn ∈ turns events, turn.WentOn) →
      (turns events).map ScriptTurn.bytes ++ [bytes] <+: wanted →
      Text.ofUtf8? ⟨bytes.toArray⟩ = none →
      Ends name wanted events (.failed (.unreadable name .notUtf8))
  /-- The next line could not be read, when all lines before it had been run. -/
  | unreadable {cause} : (∀ turn ∈ turns events, turn.WentOn) →
      (turns events).map ScriptTurn.bytes = wanted →
      events.getLast? = some (.read (.error cause)) → cause ≠ .system .interrupted →
      Ends name wanted events (.failed (.unreadable name cause))

/-! ## One more event in front -/

section

variable {name : String} {wanted : List (List UInt8)} {events : List (ScriptEvent σ)}
  {ending : Ending}

/-- The turns of a run are that of its first event, if it ran a line, and those of the rest. -/
theorem turns_cons (event : ScriptEvent σ) (events : List (ScriptEvent σ)) :
    turns (event :: events) = event.turn?.toList ++ turns events := by
  cases event <;> rfl

/-- The same for the lines that were run. -/
theorem map_bytes_turns_cons (event : ScriptEvent σ) (events : List (ScriptEvent σ)) :
    (turns (event :: events)).map ScriptTurn.bytes =
      event.turn?.toList.map ScriptTurn.bytes ++ (turns events).map ScriptTurn.bytes := by
  rw [turns_cons, List.map_append]

/-- The blocks that were read are that of the first event, if it read one, and those of the rest. -/
theorem blocks_cons (event : ScriptEvent σ) (events : List (ScriptEvent σ)) :
    blocks (event :: events) = event.block?.toList ++ blocks events := by
  rcases event with (cause | block) | turn <;> rfl

/-- The run went on after every line if it did after the first and after those of the rest. -/
theorem went_on_of_mem_turns_cons {event : ScriptEvent σ}
    (hevent : ∀ turn ∈ event.turn?.toList, turn.WentOn) (h : ∀ turn ∈ turns events, turn.WentOn) :
    ∀ turn ∈ turns (event :: events), turn.WentOn := by
  intro turn hturn
  rw [turns_cons, List.mem_append] at hturn
  rcases hturn with hturn | hturn
  · exact hevent turn hturn
  · exact h turn hturn

/-- An event that the run went on after, with the line that it ran, makes no difference
to the end. -/
theorem Ends.cons (event : ScriptEvent σ) (hevent : ∀ turn ∈ event.turn?.toList, turn.WentOn)
    (h : Ends name wanted events ending) :
    Ends name (event.turn?.toList.map ScriptTurn.bytes ++ wanted) (event :: events) ending := by
  have hbytes := map_bytes_turns_cons event events
  have hlast : ∀ last, events.getLast? = some last → (event :: events).getLast? = some last := by
    intro last hlast
    rw [List.getLast?_cons, hlast]
    rfl
  cases h with
  | completed hwent hgiven hend =>
      exact .completed (went_on_of_mem_turns_cons hevent hwent) (by rw [hbytes, hgiven])
        (hlast _ hend)
  | @exhausted earlier turn e hevents hwent hstatus hgiven =>
      refine .exhausted (by rw [hevents, List.cons_append])
        (went_on_of_mem_turns_cons hevent hwent) hstatus ?_
      rw [hbytes]
      exact (List.prefix_append_right_inj _).mpr hgiven
  | undecodable hwent hgiven hdecode =>
      refine .undecodable (went_on_of_mem_turns_cons hevent hwent) ?_ hdecode
      rw [hbytes, List.append_assoc]
      exact (List.prefix_append_right_inj _).mpr hgiven
  | unreadable hwent hgiven hend hcause =>
      exact .unreadable (went_on_of_mem_turns_cons hevent hwent) (by rw [hbytes, hgiven])
        (hlast _ hend) hcause

/-- Reading makes no difference to the end of a run. -/
theorem Ends.cons_read (result : Except IoError (List UInt8)) (h : Ends name wanted events ending) :
    Ends name wanted (.read result :: events) ending :=
  h.cons (.read result) (by simp [ScriptEvent.turn?])

end

/-! ## Steps -/

/-- What comes of a line of which all bytes were read. -/
inductive LineStep (host : Host σ) (name : String) (number : Nat) (bytes : List UInt8)
    (rest : Source) (s : Session σ) : Session.Progress → Session σ → Prop where
  | undecodable : Text.ofUtf8? ⟨bytes.toArray⟩ = none →
      LineStep host name number bytes rest s (.ended (.failed (.unreadable name .notUtf8))) s
  | exhausted {line e s'} : Text.ofUtf8? ⟨bytes.toArray⟩ = some line →
      s.runLine host line (some ⟨number, name⟩) = (.error e, s') →
      LineStep host name number bytes rest s (.ended (.failed (.exhausted e))) s'
  | onward {line code s'} : Text.ofUtf8? ⟨bytes.toArray⟩ = some line →
      s.runLine host line (some ⟨number, name⟩) = (.ok code, s') →
      LineStep host name number bytes rest s (.onward (number + 1) rest) s'

/-- What comes of a step: the next line is run if its end is among the bytes that were read, or if
the input has ended, and otherwise a block is read. -/
inductive Step (host : Host σ) (name : String) (number : Nat) (source : Source) (s : Session σ) :
    Session.Progress → Session σ → Prop where
  | line {line rest progress s'} : cutLine source.pending = some (line, rest) →
      LineStep host name number (withoutReturn line) { source with pending := rest } s progress s' →
      Step host name number source s progress s'
  | interrupted {s'} : cutLine source.pending = none →
      s.nextBlock host source = (.error (.system .interrupted), s') →
      Step host name number source s (.onward number source) s'
  | unreadable {cause s'} : cutLine source.pending = none →
      s.nextBlock host source = (.error cause, s') → cause ≠ .system .interrupted →
      Step host name number source s (.ended (.failed (.unreadable name cause))) s'
  | block {b block s'} : cutLine source.pending = none →
      s.nextBlock host source = (.ok (b :: block), s') →
      Step host name number source s
        (.onward number { source with pending := source.pending ++ b :: block }) s'
  | atEnd {s'} : source.pending = [] → s.nextBlock host source = (.ok [], s') →
      Step host name number source s (.ended .completed) s'
  | lastLine {middle progress s'} : cutLine source.pending = none → source.pending ≠ [] →
      s.nextBlock host source = (.ok [], middle) →
      LineStep host name number source.pending { source with pending := [] } middle progress s' →
      Step host name number source s progress s'

/-- The step for one line: it is run if it is UTF-8, and the script goes on or ends by how that came
out. -/
theorem line_step (host : Host σ) (name : String) (number : Nat) (bytes : List UInt8)
    (rest : Source) (s : Session σ) :
    LineStep host name number bytes rest s (Session.runScriptLine host name number bytes rest s).1
      (Session.runScriptLine host name number bytes rest s).2 := by
  unfold Session.runScriptLine
  split
  · exact .undecodable ‹_›
  · rename_i line hline
    split
    · exact .exhausted hline ‹_›
    · exact .onward hline ‹_›

/-- Every step of a script's run is a `Step`. -/
theorem script_step (host : Host σ) (name : String) (number : Nat) (source : Source)
    (s : Session σ) :
    Step host name number source s (Session.scriptStep host name number source s).1
      (Session.scriptStep host name number source s).2 := by
  unfold Session.scriptStep
  split
  · exact .line ‹_› (line_step ..)
  · rename_i hcut
    split
    · rename_i cause middle hread
      split
      · rename_i hinterrupted
        exact .interrupted hcut (hinterrupted ▸ hread)
      · exact .unreadable hcut hread ‹_›
    · exact .block hcut ‹_›
    · rename_i middle hread
      split
      · rename_i hempty
        exact .atEnd (List.isEmpty_iff.mp hempty) hread
      · rename_i hempty
        exact .lastLine hcut (fun h => hempty (List.isEmpty_iff.mpr h)) hread (line_step ..)

/-- The end of the input makes what is pending a line. -/
theorem given_blocks_end {pending : List UInt8} (hfeed : lineFeed ∉ pending) (hne : pending ≠ [])
    (events : List (ScriptEvent σ)) :
    given pending (blocks (.read (.ok []) :: events)) = pending :: given [] (blocks events) := by
  rw [blocks_cons]
  change lines pending ++ given [] (blocks events) = _
  rw [lines_eq_singleton hfeed hne, List.singleton_append]

/-! ## Runs -/

/-- From a line's number on, the script is run to its end, and leaves a session. -/
def RunsTo (host : Host σ) (name : String) (number : Nat) (source : Source) (s : Session σ)
    (ending : Ending) (s' : Session σ) : Prop :=
  ∃ events, Happens host name source.channel number s events s' ∧
    Ends name (given source.pending (blocks events)) events ending

/-- What is left of a run after a step. -/
def Leaves (host : Host σ) (name : String) : Session.Progress → Session σ → Ending → Session σ → Prop
  | .onward number source, s, ending, s' => RunsTo host name number source s ending s'
  | .ended reached, s, ending, s' => reached = ending ∧ s = s'

variable {host : Host σ} {name : String} {number : Nat} {bytes : List UInt8} {source rest : Source}
  {s middle s' : Session σ} {progress : Session.Progress} {ending : Ending}

/-- A line that is run is the first event of a run, and the first line that is wanted. -/
theorem LineStep.exists_happens (h : LineStep host name number bytes rest s progress middle)
    (hrest : Leaves host name progress middle ending s') :
    ∃ events, Happens host name rest.channel number s events s' ∧
      Ends name (bytes :: given rest.pending (blocks events)) events ending := by
  cases h with
  | undecodable hdecode =>
      obtain ⟨rfl, rfl⟩ := hrest
      exact ⟨[], .nil _ _, .undecodable (by simp [turns]) (by simp [turns]) hdecode⟩
  | @exhausted line e _ hdecode hrun =>
      obtain ⟨rfl, rfl⟩ := hrest
      refine ⟨[.ran ⟨bytes, line, s, .error e, middle⟩], .ran hdecode hrun (.nil _ _), ?_⟩
      exact .exhausted (List.nil_append _).symm (by simp [turns]) rfl
        (by simp [turns, ScriptEvent.turn?])
  | @onward line code _ hdecode hrun =>
      obtain ⟨events, hhappens, hends⟩ := hrest
      refine ⟨.ran ⟨bytes, line, s, .ok code, middle⟩ :: events, .ran hdecode hrun hhappens, ?_⟩
      rw [blocks_cons]
      exact hends.cons (.ran ⟨bytes, line, s, .ok code, middle⟩)
        (by simp [ScriptEvent.turn?, ScriptTurn.WentOn])

/-- A run is its first step and what is left after it. -/
theorem Step.runs_to (h : Step host name number source s progress middle)
    (hrest : Leaves host name progress middle ending s') :
    RunsTo host name number source s ending s' := by
  cases h with
  | @line line rest _ _ hcut hline =>
      obtain ⟨events, hhappens, hends⟩ := hline.exists_happens hrest
      obtain ⟨hfeed, hpending⟩ := cut_line_eq_some_iff.mp hcut
      refine ⟨events, hhappens, ?_⟩
      rwa [hpending, given_append hfeed]
  | interrupted hcut hread =>
      obtain ⟨events, hhappens, hends⟩ := hrest
      exact ⟨_ :: events, .read hread hhappens, hends.cons_read _⟩
  | @unreadable cause _ hcut hread hcause =>
      obtain ⟨rfl, rfl⟩ := hrest
      refine ⟨[.read (.error cause)], .read hread (.nil _ _), ?_⟩
      refine .unreadable (by simp [turns, ScriptEvent.turn?]) ?_ rfl hcause
      -- What is pending ends no line, so no line was left over.
      exact (ended_lines_eq_nil (cut_line_eq_none_iff.mp hcut)).symm
  | @block b block _ hcut hread =>
      obtain ⟨events, hhappens, hends⟩ := hrest
      exact ⟨_ :: events, .read hread hhappens, hends.cons_read _⟩
  | atEnd hpending hread =>
      obtain ⟨rfl, rfl⟩ := hrest
      refine ⟨[.read (.ok [])], .read hread (.nil _ _), ?_⟩
      rw [hpending]
      exact .completed (by simp [turns, ScriptEvent.turn?]) rfl rfl
  | @lastLine middle _ _ hcut hpending hread hline =>
      obtain ⟨events, hhappens, hends⟩ := hline.exists_happens hrest
      refine ⟨.read (.ok []) :: events, .read hread hhappens, ?_⟩
      rw [given_blocks_end (cut_line_eq_none_iff.mp hcut) hpending]
      exact hends.cons_read _

/-- Every run that reaches its end is a chain of events. -/
theorem runs_to_of_run_lines {limit : Nat}
    (h : Session.runLines host name limit number source s = some (ending, s')) :
    RunsTo host name number source s ending s' := by
  induction limit generalizing number source s with
  | zero => cases h
  | succ limit ih =>
      refine (script_step host name number source s).runs_to ?_
      rw [Session.runLines] at h
      split at h
      · rename_i hstep
        cases h
        rw [hstep]
        exact ⟨rfl, rfl⟩
      · rename_i hstep
        rw [hstep]
        exact ih h

end Script

end LineShell
