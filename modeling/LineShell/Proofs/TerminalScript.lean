import LineShell.Proofs.ScriptLaw
import LineShell.Proofs.SessionLikeness
import LineShell.Proofs.TextBytes
import LineShell.Terminal

/-!
# The terminal and the script

A shell does with lines that are typed what it does with a script made of them
(`terminal_follows_script`): it runs the same lines in the same order, up to the same one, and what
it leaves differs in the places that reports name, and in nothing else. Lines that are interrupted
at the terminal make no difference.

Both ways come down to `Session.runEach`, which runs lines from a list: the terminal by induction on
the keystrokes (`Typed.answered`), the script by its chain of events (`Happens.run_each`). There is
a lockstep between two such runs that call the places of their lines differently (`Alike.run_each`).
-/

namespace LineShell

variable {σ : Type} {host : Host σ} {s s' : Session σ} {lines : List Text}

/-! ## Lines one after the other -/

/-- What came of lines that were to be run one after the other. -/
structure RunOfLines (σ : Type) where
  /-- The lines that were run. -/
  ran : List Text
  ending : Ending
  session : Session σ

namespace Session

/-- Runs lines one after the other, up to one after which the shell cannot go on. The first of them
has the given number, and `locate` says which place a number stands for in reports. -/
def runEach (host : Host σ) (locate : Nat → Option SourceLocation) :
    Nat → List Text → Session σ → RunOfLines σ
  | _, [], s => ⟨[], .completed, s⟩
  | number, line :: rest, s =>
    match s.runLine host line (locate number) with
    | (.error e, s) => ⟨[line], .failed (.exhausted e), s⟩
    | (.ok _, s) =>
      let run := runEach host locate (number + 1) rest s
      { run with ran := line :: run.ran }

/-- However places are called, lines come to the same if the view hides these. -/
theorem Alike.run_each {view : Entry → Option Entry} {a b : Session σ} (h : Alike view a b)
    (host : Host σ) {locate locate' : Nat → Option SourceLocation}
    (hlocate : ∀ number report,
      view (.report (Report.at? report (locate number))) = view (.report (report.at? (locate' number))))
    (number : Nat) (lines : List Text) :
    (runEach host locate number lines a).ran = (runEach host locate' number lines b).ran ∧
      (runEach host locate number lines a).ending = (runEach host locate' number lines b).ending ∧
      Alike view (runEach host locate number lines a).session
        (runEach host locate' number lines b).session := by
  induction lines generalizing number a b with
  | nil => exact ⟨rfl, rfl, h⟩
  | cons line rest ih =>
      obtain ⟨status, a', b', hrun, hrun', hafter⟩ :=
        (h.run_line host (hlocate number) line).exists_eq
      rw [runEach, runEach, hrun, hrun']
      cases status with
      | error e => exact ⟨rfl, rfl, hafter⟩
      | ok code =>
          obtain ⟨hran, hending, hsession⟩ := ih hafter (number + 1)
          exact ⟨congrArg (line :: ·) hran, hending, hsession⟩

/-- An empty line does nothing, wherever it stands. -/
theorem run_line_nil (host : Host σ) (s : Session σ) (location : Option SourceLocation) :
    s.runLine host [] location = (.ok none, s) := by
  have hsame : s.writeAll [] = s := by simp only [writeAll, List.append_nil]
  exact congrArg (Except.ok none, ·) hsame

/-- An empty line behind all others is run unless the run ends before it, and does nothing. -/
theorem run_each_append_nil (host : Host σ) (locate : Nat → Option SourceLocation) (number : Nat)
    (lines : List Text) (s : Session σ) :
    let run := runEach host locate number lines s
    runEach host locate number (lines ++ [[]]) s =
      { run with ran := run.ran ++ if run.ending = .completed then [[]] else [] } := by
  induction lines generalizing number s with
  | nil => simp only [List.nil_append, runEach, run_line_nil, if_true]
  | cons line rest ih =>
      rw [List.cons_append, runEach, runEach]
      cases s.runLine host line (locate number) with
      | mk status middle =>
          cases status with
          | error e => rfl
          | ok code =>
              dsimp only
              rw [ih]
              rfl

/-- All lines are run unless the run ends at one of them. -/
theorem ran_run_each (host : Host σ) (locate : Nat → Option SourceLocation) {number : Nat}
    {lines : List Text} (h : (runEach host locate number lines s).ending = .completed) :
    (runEach host locate number lines s).ran = lines := by
  induction lines generalizing number s with
  | nil => rfl
  | cons line rest ih =>
      rw [runEach] at h ⊢
      cases hrun : s.runLine host line (locate number) with
      | mk status middle =>
          rw [hrun] at h
          cases status with
          | error e => cases h
          | ok code => exact congrArg (line :: ·) (ih h)

end Session

/-! ## At the terminal -/

/-- The line that a keystroke enters. -/
def Keystroke.line? : Keystroke → Option Text
  | enter line => some line
  | interrupt | endOfInput | fault _ => none

/-- The keystrokes enter the lines in their order and then end the input. In between any number
of lines is dropped. -/
inductive Typed : List Text → List Keystroke → Prop where
  | endOfInput : Typed [] [.endOfInput]
  | interrupt {lines keys} : Typed lines keys → Typed lines (.interrupt :: keys)
  | enter {line lines keys} : Typed lines keys → Typed (line :: lines) (.enter line :: keys)

/-- A shell at a terminal answered the keystrokes up to its end, and `ran` are the lines among them.
It was left in `s'` when it ended, before it said so. -/
structure Answered (host : Host σ) (s : Session σ) (keys : List Keystroke) (ran : List Text)
    (ending : Ending) (s' : Session σ) : Prop where
  ran : (keys.take (s.converse host keys).exchanges.length).filterMap Keystroke.line? = ran
  status : (s.converse host keys).status = some (.code (s'.exit ending).1)
  session : (s.converse host keys).session = (s'.exit ending).2

/-- A line that is dropped makes no difference to what was run. -/
theorem Answered.interrupt {keys : List Keystroke} {ran : List Text} {ending : Ending}
    (h : Answered host s keys ran ending s') :
    Answered host s (.interrupt :: keys) ran ending s' := by
  refine ⟨?_, h.status, h.session⟩
  exact h.ran

/-- The shell ends at a line after which it cannot go on. -/
theorem Answered.exhausted {middle : Session σ} {line : Text} {e : ExecError}
    (hrun : s.runLine host line none = (.error e, middle)) (keys : List Keystroke) :
    Answered host s (.enter line :: keys) [line] (.failed (.exhausted e)) middle := by
  have hconverse : s.converse host (.enter line :: keys) =
      ⟨[⟨s.context.directory, (middle.exit (.failed (.exhausted e))).2.diary.drop s.diary.length⟩],
        (middle.exit (.failed (.exhausted e))).2,
        some (.code (middle.exit (.failed (.exhausted e))).1)⟩ := by
    rw [Session.converse, Session.answer, hrun]
  refine ⟨?_, ?_, ?_⟩
  · rw [hconverse]
    rfl
  · rw [hconverse]
  · rw [hconverse]

/-- A line after which the shell goes on is the first that it answers. -/
theorem Answered.enter {middle : Session σ} {line : Text} {code : Option Int} {keys : List Keystroke}
    {ran : List Text} {ending : Ending} (hrun : s.runLine host line none = (.ok code, middle))
    (h : Answered host middle keys ran ending s') :
    Answered host s (.enter line :: keys) (line :: ran) ending s' := by
  have hconverse : s.converse host (.enter line :: keys) = { middle.converse host keys with
      exchanges := ⟨s.context.directory, middle.diary.drop s.diary.length⟩ ::
        (middle.converse host keys).exchanges } := by
    rw [Session.converse, Session.answer, hrun]
  refine ⟨?_, ?_, ?_⟩
  · rw [hconverse, List.length_cons, List.take_succ_cons]
    exact congrArg (line :: ·) h.ran
  · rw [hconverse]
    exact h.status
  · rw [hconverse]
    exact h.session

/-- The terminal runs the lines that are typed, with no places in reports. -/
theorem Typed.answered {keys : List Keystroke} (h : Typed lines keys) (host : Host σ)
    (s : Session σ) (number : Nat) :
    let run := s.runEach host (fun _ => none) number lines
    Answered host s keys run.ran run.ending run.session := by
  induction h generalizing s number with
  | endOfInput => exact ⟨rfl, rfl, rfl⟩
  | interrupt _ ih => exact (ih s number).interrupt
  | @enter line lines keys _ ih =>
      dsimp only
      rw [Session.runEach]
      cases hrun : s.runLine host line none with
      | mk status middle =>
          cases status with
          | error e => exact .exhausted hrun keys
          | ok code => exact .enter hrun (ih middle (number + 1))

/-! ## The script -/

/-- The line has no line feed, and no carriage return at its end. -/
structure OneLine (line : Text) : Prop where
  no_feed : '\n' ∉ line
  no_return : line.getLast? ≠ some '\r'

instance (line : Text) : Decidable (OneLine line) :=
  decidable_of_iff ('\n' ∉ line ∧ line.getLast? ≠ some '\r')
    ⟨fun h => ⟨h.1, h.2⟩, fun h => ⟨h.no_feed, h.no_return⟩⟩

namespace Script

/-- The bytes write the lines in their order. A line ends at a line feed or at a carriage return and
a line feed; the last may lack its end. -/
inductive Written : List Text → List UInt8 → Prop where
  | nil : Written [] []
  | last (line : Text) : Written [line] line.bytes
  | feed {line lines bytes} : Written lines bytes →
      Written (line :: lines) (Text.bytes line ++ lineFeed :: bytes)
  | returnFeed {line lines bytes} : Written lines bytes →
      Written (line :: lines) (Text.bytes line ++ carriageReturn :: lineFeed :: bytes)

variable {name : String} {number : Nat} {events : List (ScriptEvent σ)} {ending : Ending}
  {bytes : List UInt8}

/-- A line has no line feed among its bytes. -/
theorem line_feed_not_mem_bytes {line : Text} (h : OneLine line) : lineFeed ∉ line.bytes := by
  intro hmem
  exact h.no_feed (Text.mem_of_mem_bytes hmem (by decide))

/-- A line has no carriage return at its end to be dropped. -/
theorem without_return_bytes {line : Text} (h : OneLine line) :
    withoutReturn line.bytes = line.bytes := by
  refine if_neg fun hlast => h.no_return ?_
  exact Text.get_last?_of_bytes hlast (by decide)

/-- A carriage return at the end of a line is dropped. -/
theorem without_return_append (bytes : List UInt8) :
    withoutReturn (bytes ++ [carriageReturn]) = bytes := by
  rw [withoutReturn, if_pos List.getLast?_concat, List.dropLast_concat]

/-- The lines are read, or all but an empty last one. -/
def ReadAs (lines : List Text) (read : List (List UInt8)) : Prop :=
  read = lines.map Text.bytes ∨ ∃ front, lines = front ++ [[]] ∧ read = front.map Text.bytes

/-- A further line in front is read too. -/
theorem ReadAs.cons {read : List (List UInt8)} (h : ReadAs lines read) (line : Text) :
    ReadAs (line :: lines) (line.bytes :: read) := by
  rcases h with hread | ⟨front, hlines, hread⟩
  · exact .inl (congrArg (line.bytes :: ·) hread)
  · exact .inr ⟨line :: front, congrArg (line :: ·) hlines, congrArg (line.bytes :: ·) hread⟩

/-- What was written is read. An empty last line that lacks its end cannot be. -/
theorem Written.read_as (h : Written lines bytes) (hlines : ∀ line ∈ lines, OneLine line) :
    ReadAs lines (Script.lines bytes) := by
  induction h with
  | nil => exact .inl rfl
  | last line =>
      by_cases hempty : line = []
      · exact .inr ⟨[], by rw [hempty]; rfl, by rw [Text.bytes_eq_nil_iff.mpr hempty]; rfl⟩
      · have hline := hlines line List.mem_cons_self
        exact .inl (lines_eq_singleton (line_feed_not_mem_bytes hline)
          (mt Text.bytes_eq_nil_iff.mp hempty))
  | @feed line lines bytes _ ih =>
      obtain ⟨hline, hrest⟩ := List.forall_mem_cons.mp hlines
      rw [lines_append (line_feed_not_mem_bytes hline), without_return_bytes hline]
      exact (ih hrest).cons line
  | @returnFeed line lines bytes _ ih =>
      obtain ⟨hline, hrest⟩ := List.forall_mem_cons.mp hlines
      have hfeed : lineFeed ∉ line.bytes ++ [carriageReturn] := by
        rw [List.mem_append, not_or]
        exact ⟨line_feed_not_mem_bytes hline, by decide⟩
      rw [List.append_cons, lines_append hfeed, without_return_append]
      exact (ih hrest).cons line

/-! ## The run of a script, line by line -/

/-- Where the run of a script of the given lines stops, by the lines that were run. -/
inductive Stops (lines : List Text) (turns : List (ScriptTurn σ)) : Ending → Prop where
  | completed : (∀ turn ∈ turns, turn.WentOn) → lines = turns.map ScriptTurn.line →
      Stops lines turns .completed
  | exhausted {earlier turn e rest} : turns = earlier ++ [turn] → (∀ turn ∈ earlier, turn.WentOn) →
      turn.status = .error e → lines = turns.map ScriptTurn.line ++ rest →
      Stops lines turns (.failed (.exhausted e))

/-- After its first line a run goes on to stop later, or that is the line it stops at. -/
theorem Stops.of_cons {turn : ScriptTurn σ} {turns : List (ScriptTurn σ)}
    (h : Stops lines (turn :: turns) ending) : ∃ rest, lines = turn.line :: rest ∧
      ((∃ code, turn.status = .ok code ∧ Stops rest turns ending) ∨
        ∃ e, turn.status = .error e ∧ turns = [] ∧ ending = .failed (.exhausted e)) := by
  cases h with
  | completed hwent hlines =>
      obtain ⟨⟨code, hcode⟩, hlater⟩ := List.forall_mem_cons.mp hwent
      exact ⟨_, hlines, .inl ⟨code, hcode, .completed hlater rfl⟩⟩
  | @exhausted earlier last e rest hturns hwent hstatus hlines =>
      refine ⟨_, hlines, ?_⟩
      cases earlier with
      | nil =>
          obtain ⟨rfl, rfl⟩ := List.cons.inj hturns
          exact .inr ⟨e, hstatus, rfl, rfl⟩
      | cons first earlier =>
          obtain ⟨rfl, htail⟩ := List.cons.inj hturns
          obtain ⟨⟨code, hcode⟩, hlater⟩ := List.forall_mem_cons.mp hwent
          exact .inl ⟨code, hcode, .exhausted htail hlater hstatus rfl⟩

/-- Lines that are run are decoded. -/
theorem Happens.map_bytes {channel : Option Descriptor}
    (h : Happens host name channel number s events s') :
    (turns events).map ScriptTurn.bytes = ((turns events).map ScriptTurn.line).map Text.bytes := by
  induction h with
  | nil => rfl
  | read _ _ ih => exact ih
  | ran hdecode _ _ ih =>
      exact congrArg₂ List.cons (Text.of_utf8?_list_eq_some_iff.mp hdecode) ih

/-- How a run of the given lines ends, said by the lines themselves and not by their bytes. -/
theorem Ends.stops (hhappens : Happens host name none number s events s')
    (h : Ends name (lines.map Text.bytes) events ending) : Stops lines (turns events) ending := by
  cases h with
  | completed hwent hgiven _ =>
      rw [hhappens.map_bytes] at hgiven
      exact .completed hwent (Text.bytes_injective.list_map hgiven).symm
  | @exhausted earlier turn e hevents hwent hstatus hgiven =>
      have hturns : turns events = turns earlier ++ [turn] := by
        rw [hevents, turns, List.filterMap_append]
        rfl
      obtain ⟨tail, htail⟩ := hgiven
      rw [hhappens.map_bytes] at htail
      obtain ⟨ran, rest, hlines, hran, -⟩ := List.map_eq_append_iff.mp htail.symm
      obtain rfl := Text.bytes_injective.list_map hran
      exact .exhausted hturns hwent hstatus hlines
  | @undecodable bytes _ hgiven hdecode =>
      have hmem : bytes ∈ lines.map Text.bytes := hgiven.subset (by simp)
      obtain ⟨line, -, rfl⟩ := List.mem_map.mp hmem
      cases hdecode.symm.trans (Text.of_utf8?_list_eq_some_iff.mpr rfl)
  | unreadable _ _ hend _ =>
      cases hhappens.read_of_memory (List.mem_of_getLast? hend)

/-- The script runs its lines, with their numbers in reports. -/
theorem Happens.run_each (h : Happens host name none number s events s')
    (hstops : Stops lines (turns events) ending) :
    s.runEach host (fun number => some ⟨number, name⟩) number lines =
      ⟨(turns events).map ScriptTurn.line, ending, s'⟩ := by
  induction h generalizing lines ending with
  | nil =>
      cases hstops with
      | completed _ hlines =>
          rw [hlines]
          rfl
      | exhausted hturns _ _ _ => simp [turns] at hturns
  | read hread _ ih =>
      -- Nothing but the end is read from memory, and that changes no session.
      cases hread
      exact ih hstops
  | @ran number s bytes line status middle events s' _ hrun _ ih =>
      obtain ⟨rest, rfl, ⟨code, hstatus, hrest⟩ | ⟨e, hstatus, hnone, rfl⟩⟩ := hstops.of_cons
      · obtain rfl : status = .ok code := hstatus
        rw [Session.runEach, hrun]
        dsimp only
        rw [ih hrest]
        rfl
      · obtain rfl : status = .error e := hstatus
        have hlast : turns events = [] := hnone
        rw [hlast] at ih
        cases ih (.completed (by simp) rfl)
        rw [Session.runEach, hrun, turns_cons, hlast]
        rfl

end Script

/-! ## Both -/

/-- The entry, with no place in it. -/
def Entry.unlocated : Entry → Entry
  | report r => report { r with location := none }
  | entry => entry

/-- Two sessions differ in the places that reports name, and in nothing else. -/
structure Session.SameButPlaces (a b : Session σ) : Prop where
  store : a.store = b.store
  format : a.format = b.format
  interrupt : a.interrupt = b.interrupt
  /-- The working directory is the same, and so are the descriptors that are open. -/
  context : a.context = b.context
  state : a.state = b.state
  /-- The same pipelines were run with the same results and the same errors were reported,
  in the same order. -/
  diary : a.diary.map Entry.unlocated = b.diary.map Entry.unlocated

/-- Sessions that are alike up to places show the same up to places. -/
theorem Session.Alike.same_but_places {a b : Session σ}
    (h : Session.Alike (fun entry => some entry.unlocated) a b) : Session.SameButPlaces a b where
  store := h.store
  format := h.offers.resolve_right fun hhidden => nomatch hhidden []
  interrupt := h.interrupt
  context := h.context
  state := h.state
  diary := by
    have hdiary := h.diary
    rwa [List.filterMap_eq_map'] at hdiary

/-- A report and the same report with its place look alike without it. -/
theorem Report.unlocated_at? (r : Report) (location : Option SourceLocation) :
    (Entry.report (r.at? location)).unlocated = (Entry.report r).unlocated := by
  cases location <;> rfl

/-- A script of known lines runs them as they are run from a list, but for the places in reports. -/
theorem Script.exists_run_each (host : Host σ) (s : Session σ) (name : String) {bytes : List UInt8}
    (hread : Script.lines bytes = lines.map Text.bytes) :
    let run := s.runEach host (fun _ => none) 1 lines
    ∃ scripted events, s.runText host name bytes = some (run.ending, scripted) ∧
      ScriptLaw host name none s (Script.lines bytes) events run.ending scripted ∧
      run.ran = (turns events).map ScriptTurn.line ∧ Session.SameButPlaces run.session scripted := by
  obtain ⟨ending, scripted, hrun⟩ := exists_run_text host s name bytes
  obtain ⟨events, hhappens, hends⟩ := runs_to_of_run_lines hrun
  have hall := hends.of_memory hhappens
  have hscript := hhappens.run_each ((hread ▸ hall).stops hhappens)
  have hplaces : ∀ (number : Nat) (report : Report),
      some (Entry.report (report.at? none)).unlocated =
        some (Entry.report (report.at? (some ⟨number, name⟩))).unlocated := by
    intro number report
    rw [report.unlocated_at?, report.unlocated_at?]
  have halike := Session.Alike.refl (fun entry => some entry.unlocated) s
  obtain ⟨hran, hending, hsession⟩ := halike.run_each host hplaces 1 lines
  rw [hscript] at hran hending hsession
  refine ⟨scripted, events, ?_, ?_, hran, hsession.same_but_places⟩
  · rw [hrun, hending]
  · rw [hending]
    exact .of_happens hhappens hall

open Script in
/-- Lines that are typed and a script made of them are run alike: the shell runs the same lines up
to the same one, ends in the same way, and is left in the same session but for the places that
reports name. Only an empty last line that lacks its end is no line of a script, and does nothing
when it is typed. -/
theorem terminal_follows_script (host : Host σ) (s : Session σ) (name : String)
    {keys : List Keystroke} {bytes : List UInt8} (hlines : ∀ line ∈ lines, OneLine line)
    (htyped : Typed lines keys) (hwritten : Written lines bytes) :
    ∃ ending typed scripted events ran, s.runText host name bytes = some (ending, scripted) ∧
      ScriptLaw host name none s (Script.lines bytes) events ending scripted ∧
      Answered host s keys ran ending typed ∧ Session.SameButPlaces typed scripted ∧
      (ran = (turns events).map ScriptTurn.line ∨
        ending = .completed ∧ ran = lines ∧ lines = (turns events).map ScriptTurn.line ++ [[]]) := by
  have hterminal := htyped.answered host s 1
  rcases hwritten.read_as hlines with hread | ⟨front, rfl, hread⟩
  · obtain ⟨scripted, events, hrun, hlaw, hran, hsame⟩ := exists_run_each host s name hread
    exact ⟨_, _, scripted, events, _, hrun, hlaw, hterminal, hsame, .inl hran⟩
  · obtain ⟨scripted, events, hrun, hlaw, hran, hsame⟩ := exists_run_each host s name hread
    rw [Session.run_each_append_nil] at hterminal
    refine ⟨_, _, scripted, events, _, hrun, hlaw, hterminal, hsame, ?_⟩
    by_cases hending : (s.runEach host (fun _ => none) 1 front).ending = .completed
    · have hfront := Session.ran_run_each host (fun _ => none) hending
      rw [if_pos hending, ← hran, hfront]
      exact .inr ⟨hending, rfl, rfl⟩
    · rw [if_neg hending, List.append_nil]
      exact .inl hran

/-- The first line names a command that is not there, the second is blank, and at the third no child
can be started, so that the fourth is not run. -/
theorem terminal_follows_script_to_failed_fork :
    let s : Session (List (List UInt8)) := ⟨.empty, .json, none, ⟨⟨[], none⟩, [], 0⟩, [], []⟩
    let lines : List Text := [['x'], [], ['/', 'x'], ['A', '=']]
    let keys : List Keystroke := [.interrupt, .enter ['x'], .enter [], .interrupt, .interrupt,
      .enter ['/', 'x'], .enter ['A', '='], .endOfInput]
    let bytes : List UInt8 := [120, 10, 13, 10, 47, 120, 10, 65, 61]
    (∀ line ∈ lines, OneLine line) ∧ Typed lines keys ∧ Script.Written lines bytes ∧
    (s.runText Host.ofBlocks "script" bytes).map Prod.fst =
      some (.failed (.exhausted (.fork ['/', 'x'] .noMemory))) ∧
    ∃ ending typed scripted events ran,
      s.runText Host.ofBlocks "script" bytes = some (ending, scripted) ∧
      Script.ScriptLaw Host.ofBlocks "script" none s (Script.lines bytes) events ending scripted ∧
      Answered Host.ofBlocks s keys ran ending typed ∧ Session.SameButPlaces typed scripted ∧
      (ran = (Script.turns events).map ScriptTurn.line ∨ ending = .completed ∧ ran = lines ∧
        lines = (Script.turns events).map ScriptTurn.line ++ [[]]) := by
  intro s lines keys bytes
  have hlines : ∀ line ∈ lines, OneLine line := by decide
  have htyped : Typed lines keys :=
    .interrupt (.enter (.enter (.interrupt (.interrupt (.enter (.enter .endOfInput))))))
  have hwritten : Script.Written lines bytes := by
    have hx : Text.bytes ['x'] = [120] := by decide +kernel
    have hcommand : Text.bytes ['/', 'x'] = [47, 120] := by decide +kernel
    have hlast : Text.bytes ['A', '='] = [65, 61] := by decide +kernel
    have hwritten : Script.Written lines (Text.bytes ['x'] ++ Script.lineFeed ::
        (Text.bytes [] ++ Script.carriageReturn :: Script.lineFeed ::
          (Text.bytes ['/', 'x'] ++ Script.lineFeed :: Text.bytes ['A', '=']))) :=
      .feed (.returnFeed (.feed (.last _)))
    rwa [hx, hcommand, hlast, Text.bytes_eq_nil_iff.mpr rfl] at hwritten
  exact ⟨hlines, htyped, hwritten, by decide +kernel,
    terminal_follows_script Host.ofBlocks s "script" hlines htyped hwritten⟩

end LineShell
