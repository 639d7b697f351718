import LineShell.Script

/-!
# Sessions that look alike

`Session.Alike` compares two sessions up to what was shown: they have the same variables, the same
context and the same system, and their diaries are the same to a view that may hide some entries, or
parts of entries. What a line does depends on nothing else, so alike sessions stay alike while they
are given lines (`Alike.run_line`) and scripts (`Alike.run_lines`).

The format of reports matters in one place only: names are offered only beside reports in text. The
formats may differ if the view hides these offers.
-/

namespace LineShell

variable {σ ρ : Type} {host : Host σ} {view : Entry → Option Entry} {a b : Session σ}

/-- A location is no part of what the exit code is taken from. -/
theorem Report.exit_code_at? (r : Report) (location : Option SourceLocation) :
    (r.at? location).exitCode = r.exitCode := by
  cases location <;> rfl

namespace Session

/-- The sessions differ in nothing but what the view hides of their diaries, and perhaps
the format of reports. -/
structure Alike (view : Entry → Option Entry) (a b : Session σ) : Prop where
  store : a.store = b.store
  interrupt : a.interrupt = b.interrupt
  context : a.context = b.context
  state : a.state = b.state
  diary : a.diary.filterMap view = b.diary.filterMap view
  offers : a.format = b.format ∨ ∀ suggestions, view (.offer suggestions) = none

/-- Two runs came to the same and left alike sessions. -/
structure SameRun (view : Entry → Option Entry) (ran ran' : ρ × Session σ) : Prop where
  result : ran.1 = ran'.1
  session : Alike view ran.2 ran'.2

/-- Two runs that came to the same, with their common result and their sessions named. -/
theorem SameRun.exists_eq {ran ran' : ρ × Session σ} (h : SameRun view ran ran') :
    ∃ result a b, ran = (result, a) ∧ ran' = (result, b) ∧ Alike view a b := by
  obtain ⟨result, a⟩ := ran
  obtain ⟨_, b⟩ := ran'
  obtain ⟨rfl, hsession⟩ := h
  exact ⟨result, a, b, rfl, rfl, hsession⟩

/-! ## Offers -/

/-- What is shown to offer names. -/
def offered : List (Suggestion Float) → List Entry
  | [] => []
  | suggestions => [.offer suggestions]

/-- Where the view hides offers, nothing is seen of them. -/
theorem filter_map_offered_of_hidden (h : ∀ suggestions, view (.offer suggestions) = none)
    (suggestions : List (Suggestion Float)) : (offered suggestions).filterMap view = [] := by
  cases suggestions with
  | nil => rfl
  | cons first more => simp [offered, h]

/-- After a line that cannot be read, a report and the names that are offered are shown. -/
theorem run_line_of_error {s s' : Session σ} {line : Text} {e : ParseError}
    (h : s.interpretLine host line = (.error e, s')) (location : Option SourceLocation) :
    s.runLine host line location = (.ok (some (Report.ofParseError e).exitCode),
      let reported := s'.showReport ((Report.ofParseError e).at? location)
      reported.writeAll (offered (reported.offers host e))) := by
  simp only [runLine, h, Report.exit_code_at?]
  split
  · rename_i hnames
    simp only [hnames, offered, writeAll, List.append_nil]
  · rename_i hnames
    cases hoffers : (s'.showReport ((Report.ofParseError e).at? location)).offers host e with
    | nil => exact (hnames hoffers).elim
    | cons first more => rfl

namespace Alike

/-- Every session is alike to itself. -/
theorem refl (view : Entry → Option Entry) (s : Session σ) : Alike view s s :=
  ⟨rfl, rfl, rfl, rfl, rfl, .inl rfl⟩

/-- Alike sessions list directories alike. -/
theorem listing_eq (h : Alike view a b) : a.listing host = b.listing host := by
  rw [listing, listing, h.state, h.context]

/-- The names that are offered after an error are the same, or hidden. -/
theorem filter_map_offered (h : Alike view a b) (e : ParseError) :
    (offered (a.offers host e)).filterMap view = (offered (b.offers host e)).filterMap view := by
  rcases h.offers with hformat | hhidden
  · unfold Session.offers
    rw [hformat, h.listing_eq, h.store]
  · rw [filter_map_offered_of_hidden hhidden, filter_map_offered_of_hidden hhidden]

/-! ## Changes that keep sessions alike -/

/-- Alike sessions stay alike when entries are written of which the view shows the same. -/
theorem write_all (h : Alike view a b) {shown shown' : List Entry}
    (hshown : shown.filterMap view = shown'.filterMap view) :
    Alike view (a.writeAll shown) (b.writeAll shown') :=
  { h with diary := by simp only [writeAll, List.filterMap_append, h.diary, hshown] }

/-- Alike sessions stay alike when an entry is written that looks the same. -/
theorem write (h : Alike view a b) {entry entry' : Entry} (hentry : view entry = view entry') :
    Alike view (a.write entry) (b.write entry') :=
  h.write_all (by simp only [List.filterMap_cons, hentry])

/-- Alike sessions stay alike under an assignment. -/
theorem set_store (h : Alike view a b) (name value : Text) :
    Alike view { a with store := a.store.set name value }
      { b with store := b.store.set name value } :=
  { h with store := by rw [h.store] }

/-- Alike sessions stay alike when both are given the same flag, context and state. -/
theorem set_system (h : Alike view a b) (interrupt : Option Interrupt) (context : Context)
    (state : σ) :
    Alike view { a with interrupt, context, state } { b with interrupt, context, state } :=
  { h with interrupt := rfl, context := rfl, state := rfl }

/-! ## Lines -/

/-- Running a pipeline in alike sessions comes to the same. -/
theorem run_pipeline (h : Alike view a b) (host : Host σ) (pipeline : Pipeline) :
    SameRun view (a.runPipeline host pipeline) (b.runPipeline host pipeline) := by
  unfold runPipeline
  rw [h.context, h.state, h.interrupt]
  exact ⟨rfl, (h.set_system ..).write rfl⟩

/-- Alike sessions read a line alike and do the same with it. -/
theorem interpret_line (h : Alike view a b) (host : Host σ) (line : Text) :
    SameRun view (a.interpretLine host line) (b.interpretLine host line) := by
  unfold interpretLine
  rw [h.listing_eq, h.store]
  generalize parseLine (b.listing host) b.store line = parse
  obtain ⟨warnings, parsed⟩ := parse
  have hwarned :
      Alike view (a.writeAll (warnings.map .warning)) (b.writeAll (warnings.map .warning)) :=
    h.write_all rfl
  rcases parsed with e | _ | ⟨name, value⟩ | pipeline
  · exact ⟨rfl, hwarned⟩
  · exact ⟨rfl, hwarned⟩
  · exact ⟨rfl, hwarned.set_store name value⟩
  · obtain ⟨hresult, hran⟩ := hwarned.run_pipeline host pipeline
    dsimp only
    rw [hresult]
    exact ⟨rfl, hran⟩

/-- A line comes to the same in alike sessions. The places that reports name may be different ones
if the view hides them. -/
theorem run_line (h : Alike view a b) (host : Host σ) {location location' : Option SourceLocation}
    (hlocation : ∀ report : Report,
      view (.report (report.at? location)) = view (.report (report.at? location')))
    (line : Text) :
    SameRun view (a.runLine host line location) (b.runLine host line location') := by
  obtain ⟨outcome, a', b', hrun, hrun', hrest⟩ := (h.interpret_line host line).exists_eq
  cases outcome with
  | error e =>
      have hreport : Alike view (a'.showReport _) (b'.showReport _) :=
        hrest.write (hlocation (.ofParseError e))
      rw [run_line_of_error hrun, run_line_of_error hrun']
      exact ⟨rfl, hreport.write_all (hreport.filter_map_offered e)⟩
  | ok outcome =>
      simp only [runLine, hrun, hrun']
      rcases outcome with _ | name | ⟨code, started, stages, _ | e⟩
      · exact ⟨rfl, hrest⟩
      · exact ⟨rfl, hrest⟩
      · exact ⟨rfl, hrest⟩
      · have hreport : Alike view (a'.showReport _) (b'.showReport _) :=
          hrest.write (hlocation (.ofExecError e))
        dsimp only
        split
        · exact ⟨rfl, hreport⟩
        · exact ⟨rfl, hreport⟩

/-! ## Scripts -/

/-- Reading a block in alike sessions comes to the same. -/
theorem next_block (h : Alike view a b) (host : Host σ) (source : Source) :
    SameRun view (a.nextBlock host source) (b.nextBlock host source) := by
  unfold nextBlock
  split
  · exact ⟨rfl, h⟩
  · refine ⟨?_, { h with state := ?_ }⟩
    · rw [h.state, h.context]
    · rw [h.state, h.context]

/-- Running a line of a script in alike sessions comes to the same. -/
theorem run_script_line (h : Alike view a b) (host : Host σ) (name : String) (number : Nat)
    (line : List UInt8) (rest : Source) :
    SameRun view (runScriptLine host name number line rest a)
      (runScriptLine host name number line rest b) := by
  unfold runScriptLine
  split
  · exact ⟨rfl, h⟩
  · rename_i text _
    have hsame : SameRun view (a.runLine host text (some ⟨number, name⟩))
        (b.runLine host text (some ⟨number, name⟩)) := h.run_line host (fun _ => rfl) text
    obtain ⟨status, a', b', hrun, hrun', hafter⟩ := hsame.exists_eq
    rw [hrun, hrun']
    cases status with
    | error e => exact ⟨rfl, hafter⟩
    | ok code => exact ⟨rfl, hafter⟩

/-- Runs of the same script that are alike stay so for another step. -/
theorem script_step (h : Alike view a b) (host : Host σ) (name : String) (number : Nat)
    (source : Source) :
    SameRun view (scriptStep host name number source a) (scriptStep host name number source b) := by
  unfold scriptStep
  split
  · exact h.run_script_line ..
  · obtain ⟨block, a', b', hread, hread', hafter⟩ := (h.next_block host source).exists_eq
    rw [hread, hread']
    rcases block with cause | _ | ⟨byte, block⟩
    · dsimp only
      split
      · exact ⟨rfl, hafter⟩
      · exact ⟨rfl, hafter⟩
    · dsimp only
      split
      · exact ⟨rfl, hafter⟩
      · exact hafter.run_script_line ..
    · exact ⟨rfl, hafter⟩

/-- A script takes alike sessions to the same end in the same number of steps. -/
theorem run_lines (h : Alike view a b) (host : Host σ) (name : String) (limit number : Nat)
    (source : Source) :
    Option.Rel (SameRun view) (runLines host name limit number source a)
      (runLines host name limit number source b) := by
  induction limit generalizing number source a b with
  | zero => exact .none
  | succ limit ih =>
      obtain ⟨progress, a', b', hstep, hstep', hafter⟩ :=
        (h.script_step host name number source).exists_eq
      rw [runLines, runLines, hstep, hstep']
      cases progress with
      | ended ending => exact .some ⟨rfl, hafter⟩
      | onward number source => exact ih hafter number source

end Alike

end Session

end LineShell
