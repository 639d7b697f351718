import LineShell.Host

/-!
# Children by script

A `Rehearsal` stands between the shell and its system and starts no children: how the first, the
second and every further start turns out is laid down beforehand. A start that nothing is laid down
for succeeds, and its child exits with 0.
-/

namespace LineShell

/-- How a start turns out. -/
inductive Outcome where
  /-- A child starts, and later ends as the report says. -/
  | ends (report : WaitReport)
  /-- No child starts. -/
  | fails (cause : SystemError)
  /-- A child starts that cannot be waited for. -/
  | lost
  deriving DecidableEq, Repr

/-- A system of which only the children are laid down. -/
structure Rehearsal (σ : Type) where
  base : σ
  /-- How the next starts turn out. -/
  outcomes : List Outcome
  /-- How the children end, by number. -/
  reports : List (ChildId × WaitReport) := []

namespace Rehearsal

variable {σ : Type}

/-- Starts a child as the next outcome says. -/
def spawn (r : Rehearsal σ) : Except SystemError ChildId × Rehearsal σ :=
  let rest := { r with outcomes := r.outcomes.drop 1 }
  let child := r.reports.length + 1
  let started (report : WaitReport) : Except SystemError ChildId × Rehearsal σ :=
    (.ok child, { rest with reports := (child, report) :: r.reports })
  match r.outcomes.headD (.ends (.exited 0)) with
  | .ends report => started report
  | .fails cause => (.error cause, rest)
  | .lost => started (.failed .noChild)

/-- A system whose children are laid down, over a system for all else. -/
def host (base : Host σ) : Host (Rehearsal σ) where
  home := base.home
  makePipe r k := (base.makePipe r.base k).map fun state => { r with base := state }
  spawn r _ _ _ _ := r.spawn
  wait r _ child := ((r.reports.lookup child).toList, r)
  locate r := base.locate r.base
  move r := base.move r.base
  list r := base.list r.base
  openFile r context path :=
    let (handle, state) := base.openFile r.base context path
    (handle, { r with base := state })
  readBlock r context d :=
    let (block, state) := base.readBlock r.base context d
    (block, { r with base := state })
  takeOutput r :=
    let (output, state) := base.takeOutput r.base
    (output, { r with base := state })

end Rehearsal

end LineShell
