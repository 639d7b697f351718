import LineShell.Proofs.SessionFrame

/-!
# What is reported on a line

A line that cannot be read, or whose pipeline is not run to its end, leads to one report; no
other line leads to any (`Session.Reported`). The shell goes on after every line but one: a line
whose pipeline could not be wired or started because the system has run out of something that
every pipeline needs.
-/

namespace LineShell

/-- The error comes from a pipe or a start that failed because descriptors, memory or processes have
run out. -/
def ExecError.Exhausting (e : ExecError) : Prop :=
  ∃ cause ∈ [SystemError.tooManyOpenFiles, .fileTableFull, .noMemory, .tryAgain],
    e = .pipe cause ∨ ∃ name, e = .fork name cause

/-- The causes by which the system is out of descriptors, memory or processes. -/
theorem SystemError.is_exhaustion_iff {cause : SystemError} : cause.isExhaustion = true ↔
    cause ∈ [SystemError.tooManyOpenFiles, .fileTableFull, .noMemory, .tryAgain] := by
  cases cause <;> simp [isExhaustion]

/-- An error ends the shell exactly if its cause is one of these. -/
theorem ExecError.is_fatal_iff {e : ExecError} : e.isFatal = true ↔ e.Exhausting := by
  cases e with
  | builtinInPipeline command => simp [isFatal, Exhausting]
  | nulByte text => simp [isFatal, Exhausting]
  | pipe cause => simpa [isFatal, Exhausting] using SystemError.is_exhaustion_iff
  | fork name cause => simpa [isFatal, Exhausting] using SystemError.is_exhaustion_iff

/-- The report that an entry is, if it is one. -/
def Entry.report? : Entry → Option Report
  | report r => some r
  | _ => none

/-- Warnings are no reports. -/
theorem Entry.filter_map_report?_warnings (warnings : List Warning) :
    (warnings.map Entry.warning).filterMap report? = [] := by
  simp [List.filterMap_map, Function.comp_def, report?]

/-- The error that kept the pipeline of a line from being run to its end. -/
def LineOutcome.execError? : Except ParseError LineOutcome → Option ExecError
  | .ok (.ran result) => result.error
  | .ok .empty | .ok (.assigned _) | .error _ => none

/-- What is to be reported on a line: that it cannot be read, or that its pipeline was not
run to its end. -/
def LineOutcome.report? : Except ParseError LineOutcome → Option Report
  | .error e => some (.ofParseError e)
  | .ok (.ran result) => result.error.map .ofExecError
  | .ok .empty | .ok (.assigned _) => none

/-- A report that has no location yet gets the one that is given. -/
theorem Report.location_at? {r : Report} (h : r.location = none)
    (location : Option SourceLocation) : (r.at? location).location = location := by
  cases location with
  | none => exact h
  | some location => rfl

/-- What is to be reported on a line has no location of its own. -/
theorem LineOutcome.location_report? {outcome : Except ParseError LineOutcome} {r : Report}
    (h : report? outcome = some r) : r.location = none := by
  cases outcome with
  | error e =>
      cases h
      cases e <;> rfl
  | ok outcome =>
      cases outcome with
      | empty | assigned name => cases h
      | ran result =>
          obtain ⟨e, -, rfl⟩ := Option.map_eq_some_iff.mp h
          cases e <;> rfl

namespace Session

variable {σ : Type} {host : Host σ} {s s' : Session σ} {line : Text}
  {outcome : Except ParseError LineOutcome}

/-- Running a line shows warnings and the pipeline, and leaves reports to the caller. -/
theorem LineRun.diary_eq (h : LineRun host s line outcome s') : ∃ entries : List Entry,
    s'.diary = s.diary ++ entries ∧ entries.filterMap Entry.report? = [] := by
  cases h with
  | failed | blank | assigned => exact ⟨_, rfl, Entry.filter_map_report?_warnings _⟩
  | ran =>
      refine ⟨_, List.append_assoc _ _ _, ?_⟩
      rw [List.filterMap_append, Entry.filter_map_report?_warnings]
      rfl

/-- Reporting on a line only shows something. -/
theorem exists_write_all_of_run_line (host : Host σ) (s : Session σ) (line : Text)
    (location : Option SourceLocation) : ∃ entries,
    (s.runLine host line location).2 = (s.interpretLine host line).2.writeAll entries := by
  have hnone (s : Session σ) : s = s.writeAll [] := by simp [writeAll]
  unfold runLine
  generalize s.interpretLine host line = interpreted
  obtain ⟨e | outcome, after⟩ := interpreted
  · dsimp only
    split
    · exact ⟨[_], rfl⟩
    · exact ⟨[_, _], congrArg (fun diary => { after with diary }) (List.append_assoc _ _ _)⟩
  · cases outcome with
    | empty | assigned => exact ⟨[], hnone _⟩
    | ran result =>
        dsimp only
        split
        · exact ⟨[], hnone _⟩
        · split <;> exact ⟨[_], rfl⟩

/-- A line came to `status`, and was reported on as its outcome asks for. -/
structure Reported (outcome : Except ParseError LineOutcome) (location : Option SourceLocation)
    (s : Session σ) (status : LineStatus) (s' : Session σ) : Prop where
  /-- The shell cannot go on exactly if the line's pipeline failed for want of something. -/
  fatal : ∀ e, status = .error e ↔ LineOutcome.execError? outcome = some e ∧ e.Exhausting
  /-- There is one report if there is an error, with the location of the line, and none
  otherwise. -/
  reports : ∃ entries : List Entry, s'.diary = s.diary ++ entries ∧
    entries.filterMap Entry.report? = ((LineOutcome.report? outcome).map (·.at? location)).toList ∧
    ∀ report ∈ entries.filterMap Entry.report?, report.location = location

/-- What is shown after a line was run decides on what is reported. -/
theorem Reported.of_added {location : Option SourceLocation} {status : LineStatus}
    {after : Session σ} {added : List Entry}
    (hrun : ∃ entries : List Entry, after.diary = s.diary ++ entries ∧
      entries.filterMap Entry.report? = [])
    (hshown : s'.diary = after.diary ++ added)
    (hadded : added.filterMap Entry.report? =
      ((LineOutcome.report? outcome).map (·.at? location)).toList)
    (hfatal : ∀ e, status = .error e ↔ LineOutcome.execError? outcome = some e ∧ e.Exhausting) :
    Reported outcome location s status s' := by
  obtain ⟨entries, hdiary, hquiet⟩ := hrun
  have hreports : (entries ++ added).filterMap Entry.report? =
      ((LineOutcome.report? outcome).map (·.at? location)).toList := by
    rw [List.filterMap_append, hquiet, hadded, List.nil_append]
  refine ⟨hfatal, entries ++ added, ?_, hreports, fun report hmem => ?_⟩
  · rw [hshown, hdiary, List.append_assoc]
  · rw [hreports, Option.mem_toList] at hmem
    obtain ⟨r, hr, rfl⟩ := Option.map_eq_some_iff.mp hmem
    exact Report.location_at? (LineOutcome.location_report? hr) location

/-- Where the shell goes on, no error of the line was one that ends it. -/
theorem fatal_iff_of_ok {code : Option Int}
    (h : ∀ e, LineOutcome.execError? outcome = some e → ¬ e.Exhausting) (e : ExecError) :
    (.ok code : LineStatus) = .error e ↔
      LineOutcome.execError? outcome = some e ∧ e.Exhausting :=
  ⟨nofun, fun herror => absurd herror.2 (h e herror.1)⟩

/-- Every line is reported on as its outcome asks for. -/
theorem reported_run_line (host : Host σ) (s : Session σ) (line : Text)
    (location : Option SourceLocation) :
    Reported (s.interpretLine host line).1 location s (s.runLine host line location).1
      (s.runLine host line location).2 := by
  have hrun := (line_run host s line).diary_eq
  unfold runLine
  generalize s.interpretLine host line = interpreted at hrun ⊢
  obtain ⟨e | outcome, after⟩ := interpreted
  · -- The line cannot be read. Names may be offered after the report.
    dsimp only
    split
    · exact .of_added hrun rfl rfl (fatal_iff_of_ok (by simp [LineOutcome.execError?]))
    · exact .of_added hrun (List.append_assoc _ _ _) rfl
        (fatal_iff_of_ok (by simp [LineOutcome.execError?]))
  · cases outcome with
    | empty | assigned name =>
        exact .of_added hrun (List.append_nil _).symm rfl
          (fatal_iff_of_ok (by simp [LineOutcome.execError?]))
    | ran result =>
        obtain ⟨exitCode, started, stages, error⟩ := result
        cases error with
        | none =>
            exact .of_added hrun (List.append_nil _).symm rfl
              (fatal_iff_of_ok (by simp [LineOutcome.execError?]))
        | some e =>
            dsimp only
            split
            · rename_i hfatal
              refine .of_added hrun rfl rfl fun e' => ?_
              simp only [LineOutcome.execError?, Except.error.injEq, Option.some.injEq]
              exact ⟨fun h => ⟨h, h ▸ ExecError.is_fatal_iff.mp hfatal⟩, And.left⟩
            · rename_i hfatal
              refine .of_added hrun rfl rfl (fatal_iff_of_ok fun e' he' hexhausting => ?_)
              obtain rfl : e = e' := by simpa [LineOutcome.execError?] using he'
              exact hfatal (ExecError.is_fatal_iff.mpr hexhausting)

end Session

end LineShell
