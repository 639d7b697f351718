import LineShell.Session
import LineShell.Proofs.LineReading
import LineShell.Proofs.PipeEnds

/-!
# What a session changes

Of all that a line can read, a session changes two things itself: its variables and its working
directory. Only an assignment changes the first and only a lone `cd` to a place that is there
changes the second, and a line that cannot be read leaves everything as it was. `session_frame` says
this of any lines, of which each is read in the session that those before it left.

`Session.LineRun` says once what a line does. The store and the directory after one line are read
off it, and those after many follow by induction on the lines.
-/

namespace LineShell

/-! ## Assignments -/

/-- The name and the value are such as an assignment can have. -/
structure Assignable (name value : Text) : Prop where
  name_ne : name ≠ []
  letters : ∀ c ∈ name, ('A' ≤ c ∧ c ≤ 'Z') ∨ ('a' ≤ c ∧ c ≤ 'z') ∨ c = '_'
  no_comment : '#' ∉ value
  trimmed : Text.Trimmed value

/-- A character of a name is a letter or an underscore. -/
theorem letter_of_is_name_char {c : Char} (h : isNameChar c = true) :
    ('A' ≤ c ∧ c ≤ 'Z') ∨ ('a' ≤ c ∧ c ≤ 'z') ∨ c = '_' := by
  have hcases : (decide ('A'.val ≤ c.val ∧ c.val ≤ 'Z'.val) ||
    (decide ('a'.val ≤ c.val) && decide (c.val ≤ 'z'.val)) || c == '_') = true := h
  simp only [Bool.or_eq_true, Bool.and_eq_true, decide_eq_true_eq, beq_iff_eq, or_assoc] at hcases
  exact hcases

/-- A line that is read as an assignment has a name and a value that can be assigned. -/
theorem assignable_of_parse_assignment {line name value : Text}
    (h : parseAssignment line = .ok (.assignment name value)) : Assignable name value := by
  unfold parseAssignment at h
  dsimp only at h
  split at h
  · cases h
  · rename_i hne
    split at h
    · rename_i hname
      cases h
      simp only [isVariableName, Bool.and_eq_true, List.all_eq_true] at hname
      refine ⟨by simpa using hne, fun c hc => letter_of_is_name_char (hname.2 c hc), ?_,
        Text.trimmed_trim _⟩
      intro hmem
      exact Text.not_mem_cut_at '#' _ ((Text.infix_trim _).subset hmem)
    · cases h

/-- The same for a line after substitution, whose other kinds are no assignments. -/
theorem assignable_of_parse_expanded {listing : Listing} {path : Option Text}
    {line name value : Text}
    (h : (parseExpanded listing path line).2 = .ok (.assignment name value)) :
    Assignable name value := by
  unfold parseExpanded at h
  split at h
  · exact assignable_of_parse_assignment h
  · -- Without a `=` the line is blank or a pipeline.
    dsimp only at h
    split at h
    · cases h
    · generalize parseStages listing path 1 _ = read at h
      obtain ⟨warnings, stages | stages⟩ := read
      · cases h
      · cases h

/-- Whatever line an assignment is read from, what it binds can be assigned. -/
theorem assignable_of_parse_line {listing : Listing} {store : Store} {line name value : Text}
    (h : (parseLine listing store line).2 = .ok (.assignment name value)) :
    Assignable name value := by
  unfold parseLine at h
  dsimp only at h
  split at h
  · cases h
  · split at h
    · cases h
    · exact assignable_of_parse_expanded h

/-! ## Changes of the directory -/

variable {σ : Type} {host : Host σ}

/-- Where a pipeline moves the shell: it has to be a lone `cd`, and its target a directory. -/
def Pipeline.move? (host : Host σ) (state : σ) (context : Context) (pipeline : Pipeline) :
    Option Location :=
  match pipeline.stages with
  | [stage] =>
    match stage.builtin? with
    | some .cd =>
      (Directory.change host.home (host.locate state context) (host.move state context)
        (stage.argv.drop 1).head?).toOption.map Prod.snd
    | none => none
  | _ => none

/-- A pipeline that has not just one stage moves the shell nowhere. -/
theorem Pipeline.move?_eq_none_of_size_ne {pipeline : Pipeline} (h : pipeline.size ≠ 1) (state : σ)
    (context : Context) : pipeline.move? host state context = none := by
  unfold move?
  split
  · rename_i stage hstages
    simp [size, hstages] at h
  · rfl

/-- A pipeline without built-in commands moves the shell nowhere. -/
theorem Pipeline.move?_eq_none_of_external {pipeline : Pipeline} (h : pipeline.builtin? = none)
    (state : σ) (context : Context) : pipeline.move? host state context = none := by
  unfold move?
  split
  · rename_i stage hstages
    have hstage : stage.builtin? = none := by simpa [builtin?, hstages] using h
    rw [hstage]
  · rfl

namespace Desk

/-- A lone built-in command takes the shell to where it moves, and leaves it where it is if it
fails. -/
theorem directory_run_builtin {desk desk' : Desk σ} {pipeline : Pipeline} {stage : Stage}
    {command : Builtin} {code : Int} (hstages : pipeline.stages = [stage])
    (hcommand : stage.builtin? = some command)
    (hrun : desk.runBuiltin host command (stage.argv.drop 1) = (code, desk')) :
    desk'.context.directory =
      (pipeline.move? host desk.state desk.context).getD desk.context.directory := by
  cases command
  simp only [Pipeline.move?, hstages, hcommand]
  simp only [runBuiltin] at hrun
  split at hrun
  · rename_i hchange
    cases hrun
    rw [hchange]
    rfl
  · rename_i hchange
    cases hrun
    rw [hchange]
    rfl

/-- After a run the shell is where its pipeline moved it, or where it was. -/
theorem PipelineRun.directory_eq {desk desk' : Desk σ} {pipeline : Pipeline}
    {result : PipelineResult} (h : PipelineRun host pipeline desk result desk') :
    desk'.context.directory =
      (pipeline.move? host desk.state desk.context).getD desk.context.directory := by
  cases h with
  | empty hnil =>
      have hsize : pipeline.size ≠ 1 := by simp [Pipeline.size, hnil]
      rw [Pipeline.move?_eq_none_of_size_ne hsize]
      rfl
  | builtin hstages hcommand hbuiltin => exact directory_run_builtin hstages hcommand hbuiltin
  | mixed hsize _ =>
      have hne : pipeline.size ≠ 1 := by omega
      rw [Pipeline.move?_eq_none_of_size_ne hne]
      rfl
  | external hexternal _ hrun =>
      rw [Pipeline.move?_eq_none_of_external hexternal]
      exact hrun.directory_eq

/-- A run moves the shell where its pipeline says, and nowhere else. -/
theorem directory_run (host : Host σ) (pipeline : Pipeline) (desk : Desk σ) :
    (desk.run host pipeline).2.context.directory =
      (pipeline.move? host desk.state desk.context).getD desk.context.directory :=
  (pipeline_run host pipeline desk).directory_eq

end Desk

/-! ## One line -/

namespace Session

/-- What a line says in a session. -/
def reading (host : Host σ) (s : Session σ) (line : Text) : Except ParseError ParsedLine :=
  (parseLine (s.listing host) s.store line).2

/-- The session once the warnings about a line are shown. -/
def warned (host : Host σ) (s : Session σ) (line : Text) : Session σ :=
  s.writeAll ((parseLine (s.listing host) s.store line).1.map .warning)

/-- What a line does, by what it says. -/
inductive LineRun (host : Host σ) (s : Session σ) (line : Text) :
    Except ParseError LineOutcome → Session σ → Prop where
  | failed {e : ParseError} : s.reading host line = .error e →
      LineRun host s line (.error e) (s.warned host line)
  | blank : s.reading host line = .ok .empty →
      LineRun host s line (.ok .empty) (s.warned host line)
  | assigned {name value : Text} : s.reading host line = .ok (.assignment name value) →
      LineRun host s line (.ok (.assigned name))
        { s.warned host line with store := s.store.set name value }
  | ran {pipeline : Pipeline} : s.reading host line = .ok (.pipeline pipeline) →
      LineRun host s line (.ok (.ran ((s.warned host line).runPipeline host pipeline).1))
        ((s.warned host line).runPipeline host pipeline).2

/-- Every line that is given to a session is run as it reads. -/
theorem line_run (host : Host σ) (s : Session σ) (line : Text) :
    LineRun host s line (s.interpretLine host line).1 (s.interpretLine host line).2 := by
  unfold interpretLine
  generalize hparse : parseLine (s.listing host) s.store line = parse
  obtain ⟨warnings, parsed⟩ := parse
  have hreading : s.reading host line = parsed := by rw [reading, hparse]
  have hwarned : s.writeAll (warnings.map .warning) = s.warned host line := by rw [warned, hparse]
  dsimp only
  rw [hwarned]
  split
  · exact .failed hreading
  · exact .blank hreading
  · exact .assigned hreading
  · exact .ran hreading

/-- Lines that are given to a session one after the other. -/
def interpretLines (host : Host σ) (s : Session σ) : List Text → Session σ
  | [] => s
  | line :: rest => interpretLines host (s.interpretLine host line).2 rest

end Session

/-- A line, and the session that it was given to. -/
structure Turn (σ : Type) where
  session : Session σ
  line : Text

namespace Turn

/-- The name and the value that the line of a turn assigns. -/
def assignment? (host : Host σ) (turn : Turn σ) : Option (Text × Text) :=
  match turn.session.reading host turn.line with
  | .ok (.assignment name value) => some (name, value)
  | _ => none

/-- Where the line of a turn moves the shell. -/
def move? (host : Host σ) (turn : Turn σ) : Option Location :=
  match turn.session.reading host turn.line with
  | .ok (.pipeline pipeline) => pipeline.move? host turn.session.state turn.session.context
  | _ => none

/-- The line of a turn failed with `e`, and left the session as it was but for the warnings shown.
Nothing was asked of the system but what its directories list. -/
structure Failed (host : Host σ) (turn : Turn σ) (e : ParseError) (s : Session σ) : Prop where
  store : s.store = turn.session.store
  context : s.context = turn.session.context
  state : s.state = turn.session.state
  diary : ∃ warnings : List Warning, s.diary = turn.session.diary ++ warnings.map .warning
  unaware : ∀ other : Host σ, other.list = host.list →
    turn.session.interpretLine other turn.line = (.error e, s)

/-- What a turn binds can be assigned. -/
theorem assignable_of_assignment? {turn : Turn σ} {name value : Text}
    (h : turn.assignment? host = some (name, value)) : Assignable name value := by
  unfold assignment? at h
  split at h
  · rename_i hreading
    cases h
    exact assignable_of_parse_line hreading
  · cases h

end Turn

namespace Session

variable {s s' : Session σ} {line : Text} {outcome : Except ParseError LineOutcome}
  {e : ParseError}

/-- A line changes the store by the assignment that it is, if it is one. -/
theorem LineRun.store_eq (h : LineRun host s line outcome s') :
    s'.store = (Turn.assignment? host ⟨s, line⟩).elim s.store fun binding =>
      s.store.set binding.1 binding.2 := by
  unfold Turn.assignment?
  dsimp only
  cases h with
  | failed hreading | blank hreading | assigned hreading | ran hreading =>
      rw [hreading]
      rfl

/-- A line moves the shell by the `cd` that it is, if it is one. -/
theorem LineRun.directory_eq (h : LineRun host s line outcome s') :
    s'.context.directory = (Turn.move? host ⟨s, line⟩).getD s.context.directory := by
  unfold Turn.move?
  dsimp only
  cases h with
  | failed hreading | blank hreading | assigned hreading =>
      rw [hreading]
      rfl
  | @ran pipeline hreading =>
      rw [hreading]
      exact Desk.directory_run host pipeline ⟨s.context, s.state, []⟩

/-- A line that cannot be read only leaves its warnings. -/
theorem LineRun.eq_of_error (h : LineRun host s line outcome s')
    (hreading : s.reading host line = .error e) :
    outcome = .error e ∧ s' = s.warned host line := by
  cases h with
  | failed hfailed =>
      cases hreading.symm.trans hfailed
      exact ⟨rfl, rfl⟩
  | blank hother | assigned hother | ran hother => cases hreading.symm.trans hother

/-- A line fails exactly if it cannot be read, and then only its warnings are shown. -/
theorem interpret_line_eq_error_iff : s.interpretLine host line = (.error e, s') ↔
    s.reading host line = .error e ∧ s' = s.warned host line := by
  constructor
  · intro h
    have hrun := line_run host s line
    rw [h] at hrun
    cases hrun with
    | failed hreading => exact ⟨hreading, rfl⟩
  · intro h
    obtain ⟨hreading, rfl⟩ := h
    obtain ⟨houtcome, hsession⟩ := (line_run host s line).eq_of_error hreading
    exact Prod.ext houtcome hsession

/-- A line that fails changes nothing, whatever stands in the way of its reading. -/
theorem failed_of_interpret_line {turn : Turn σ}
    (h : turn.session.interpretLine host turn.line = (.error e, s)) : turn.Failed host e s := by
  obtain ⟨hreading, rfl⟩ := interpret_line_eq_error_iff.mp h
  refine ⟨rfl, rfl, rfl, ⟨_, rfl⟩, ?_⟩
  intro other hlist
  -- Another system that lists the same directories gives the line the same reading.
  have hlisting : turn.session.listing other = turn.session.listing host := by
    rw [listing, listing, hlist]
  refine interpret_line_eq_error_iff.mpr ⟨?_, ?_⟩
  · rw [reading, hlisting]
    exact hreading
  · rw [warned, warned, hlisting]

/-! ## Many lines -/

/-- The turns of lines that are given to a session one after the other. -/
def turns (host : Host σ) (s : Session σ) : List Text → List (Turn σ)
  | [] => []
  | line :: rest => ⟨s, line⟩ :: turns host (s.interpretLine host line).2 rest

/-- The store after some lines is the first with the assignments of the turns made in order, and
nothing else: by induction over the lines. -/
theorem store_interpret_lines (host : Host σ) (s : Session σ) (lines : List Text) :
    (s.interpretLines host lines).store =
      ((s.turns host lines).filterMap (Turn.assignment? host)).foldl
        (fun store binding => store.set binding.1 binding.2) s.store := by
  induction lines generalizing s with
  | nil => rfl
  | cons line rest ih =>
      rw [interpretLines, ih, turns, (line_run host s line).store_eq, List.filterMap_cons]
      cases Turn.assignment? host ⟨s, line⟩ with
      | none => rfl
      | some binding => rfl

/-- The directory after some lines is that of the last turn that moved the shell, if any did. -/
theorem directory_interpret_lines (host : Host σ) (s : Session σ) (lines : List Text) :
    (s.interpretLines host lines).context.directory =
      ((s.turns host lines).filterMap (Turn.move? host)).getLastD s.context.directory := by
  induction lines generalizing s with
  | nil => rfl
  | cons line rest ih =>
      rw [interpretLines, ih, turns, (line_run host s line).directory_eq, List.filterMap_cons]
      cases Turn.move? host ⟨s, line⟩ with
      | none => rfl
      | some location => rw [Option.getD_some, List.getLastD_cons]

end Session

/-- What lines do to a session that is given them one after the other. -/
structure Framed (host : Host σ) (s : Session σ) (lines : List Text) : Prop where
  /-- The variables are those from before, with every assignment made in order. -/
  store : (s.interpretLines host lines).store =
    ((s.turns host lines).filterMap (Turn.assignment? host)).foldl
      (fun store binding => store.set binding.1 binding.2) s.store
  /-- Each variable has the value that was assigned to it last, or the one from before. -/
  values : ∀ name, (s.interpretLines host lines).store.get? name =
    (((s.turns host lines).filterMap (Turn.assignment? host)).reverse.lookup name).or
      (s.store.get? name)
  assignable : ∀ binding ∈ (s.turns host lines).filterMap (Turn.assignment? host),
    Assignable binding.1 binding.2
  /-- The directory is that of the last move, or the one from before. -/
  directory : (s.interpretLines host lines).context.directory =
    ((s.turns host lines).filterMap (Turn.move? host)).getLastD s.context.directory
  failed : ∀ turn ∈ s.turns host lines, ∀ e s',
    turn.session.interpretLine host turn.line = (.error e, s') → turn.Failed host e s'

/-- A session changes its variables by the assignments among its lines and its directory by the
`cd` commands among them that lead somewhere, and lines that fail have no effect. -/
theorem session_frame (host : Host σ) (s : Session σ) (lines : List Text) :
    Framed host s lines where
  store := s.store_interpret_lines host lines
  values name := by rw [Session.store_interpret_lines, Store.get?_foldl_set]
  assignable := by
    intro binding hbinding
    obtain ⟨turn, _, hassignment⟩ := List.mem_filterMap.mp hbinding
    exact Turn.assignable_of_assignment? hassignment
  directory := s.directory_interpret_lines host lines
  failed := by
    intro turn _ e s' h
    exact Session.failed_of_interpret_line h

end LineShell
