import LineShell.Proofs.ScriptEnd

/-!
# Systems with bounded input

If nothing that the shell asks of a system brings new input, and what is read is used up,
then a script can only read so much (`Host.ReadBound.input_ends`), so every script that is
read from a descriptor is run to its end. A system that has nothing but its standard input
is an example (`Host.ofBlocks`).
-/

namespace LineShell

variable {σ : Type} {host : Host σ} {left : σ → Nat}

/-- No more than `left` can be read from a state: no operation raises it, and reading lowers it
by what was read. -/
structure Host.ReadBound (host : Host σ) (left : σ → Nat) : Prop where
  makePipe : ∀ state n state', host.makePipe state n = .ok state' → left state' ≤ left state
  spawn : ∀ state context stage ends siblings,
    left (host.spawn state context stage ends siblings).2 ≤ left state
  wait : ∀ state context child, left (host.wait state context child).2 ≤ left state
  takeOutput : ∀ state, left (host.takeOutput state).2 ≤ left state
  readBlock : ∀ state context d result state', host.readBlock state context d = (result, state') →
    left state' + (@ScriptEvent.read σ result).inflow ≤ left state

namespace Host.ReadBound

open Desk

/-! ## Running a line -/

section

variable {desk desk' : Desk σ}

/-- No act of a run brings new input. -/
theorem left_le_of_step {act : Act} (h : host.ReadBound left) (hstep : Step host desk act desk') :
    left desk'.state ≤ left desk.state := by
  cases hstep with
  | piped hpipe =>
      simp only [Desk.makePipe] at hpipe
      split at hpipe
      · split at hpipe
        · cases hpipe
        · cases hpipe
          exact h.makePipe _ _ _ ‹_›
      · cases hpipe
  | closed d => exact Nat.le_refl _
  | spawned stage ends siblings => exact h.spawn ..
  | waited child => exact h.wait ..

/-- No run of acts brings new input, by induction over them. -/
theorem left_le_of_steps {acts : List Act} (h : host.ReadBound left)
    (hsteps : Steps host desk acts desk') : left desk'.state ≤ left desk.state := by
  induction hsteps with
  | refl => exact Nat.le_refl _
  | cons hstep _ ih => exact ih.trans (h.left_le_of_step hstep)

/-- Running a pipeline brings no new input: a built-in command reads none, and the others act step
by step. -/
theorem left_le_of_pipeline_run {pipeline : Pipeline} {result : PipelineResult}
    (h : host.ReadBound left) (hrun : PipelineRun host pipeline desk result desk') :
    left desk'.state ≤ left desk.state := by
  cases hrun with
  | empty | mixed => exact Nat.le_refl _
  | @builtin stage command code desk' _ _ hrun =>
      cases command
      simp only [runBuiltin] at hrun
      split at hrun <;> cases hrun <;> exact Nat.le_refl _
  | external _ _ hexternal =>
      cases hexternal with
      | unprepared => exact Nat.le_refl _
      | unwired _ _ hpiped => exact h.left_le_of_steps (hpiped.close_all_steps _)
      | ran _ hpiped _ hran => exact h.left_le_of_steps (hran.all_steps hpiped)

end

variable {s s' : Session σ}

/-- Running a line brings no new input, whatever kind of line it is. -/
theorem left_le_of_line_run {line : Text} {outcome : Except ParseError LineOutcome}
    (h : host.ReadBound left) (hrun : Session.LineRun host s line outcome s') :
    left s'.state ≤ left s.state := by
  cases hrun with
  | failed | blank | assigned => exact Nat.le_refl _
  | ran =>
      exact (h.takeOutput _).trans (h.left_le_of_pipeline_run (pipeline_run host _ _))

/-- Running a line and reporting on it brings no new input. -/
theorem left_run_line_le (h : host.ReadBound left) (s : Session σ) (line : Text)
    (location : Option SourceLocation) :
    left (s.runLine host line location).2.state ≤ left s.state := by
  obtain ⟨entries, hentries⟩ := Session.exists_write_all_of_run_line host s line location
  have hline := h.left_le_of_line_run (Session.line_run host s line)
  rw [hentries]
  exact hline

/-! ## Running a script -/

/-- What a script reads and what is left of the input after it are together no more than what was
left before, by induction over the events. -/
theorem inflow_add_left_le {name : String} {channel : Option Descriptor} {number : Nat}
    {events : List (ScriptEvent σ)} (h : host.ReadBound left)
    (hhappens : Script.Happens host name channel number s events s') :
    Script.inflow events + left s'.state ≤ left s.state := by
  induction hhappens with
  | nil => exact (Nat.zero_add _).le
  | @read number s result middle events s' hread _ ih =>
      rw [Script.inflow]
      cases channel with
      | none =>
          cases hread
          exact (Nat.zero_add (Script.inflow events)).symm ▸ ih
      | some d =>
          have hblock := h.readBlock s.state s.context d _ _ rfl
          cases hread
          dsimp only at ih
          omega
  | @ran number s bytes line status middle events s' _ hrun _ ih =>
      have hline := h.left_run_line_le s line (some ⟨number, name⟩)
      rw [hrun] at hline
      rw [Script.inflow, ScriptEvent.inflow, Nat.zero_add]
      exact ih.trans hline

/-- The input of every script ends. -/
theorem input_ends (h : host.ReadBound left) (name : String) (source : Source) (s : Session σ) :
    Script.InputEnds host name source s := by
  refine ⟨left s.state, fun events ⟨⟨s', hhappens⟩, _⟩ => ?_⟩
  exact (Nat.le_add_right _ _).trans (h.inflow_add_left_le hhappens)

end Host.ReadBound

/-! ## Input that was laid down -/

/-- A system that has nothing but a standard input, of which the blocks still to come
are the state. -/
def Host.ofBlocks : Host (List (List UInt8)) where
  home := some ['/']
  makePipe _ _ := .error .tooManyOpenFiles
  spawn blocks _ _ _ _ := (.error .noMemory, blocks)
  wait blocks _ _ := ([], blocks)
  locate _ _ _ := .error (.system .noEntry)
  move _ _ _ := .error (.system .noEntry)
  list _ _ _ := .error (.system .noEntry)
  openFile blocks _ _ := (.error (.system .noEntry), blocks)
  readBlock blocks _ _ := (.ok (blocks.headD []), blocks.tail)
  takeOutput blocks := ({}, blocks)

/-- A host that hands out blocks one by one has at most as much left as there is in them. -/
theorem Host.read_bound_of_blocks : Host.ofBlocks.ReadBound fun blocks => blocks.flatten.length where
  makePipe _ _ _ h := nomatch h
  spawn _ _ _ _ _ := Nat.le_refl _
  wait _ _ _ := Nat.le_refl _
  takeOutput _ := Nat.le_refl _
  readBlock blocks _ _ _ _ h := by
    cases h
    cases blocks with
    | nil => exact Nat.le_refl _
    | cons block blocks => simp [ScriptEvent.inflow, Nat.add_comm]

end LineShell
