import LineShell.Fault

/-!
# The status of a pipeline

Waiting for a child yields reports. The first one that says how the child ended, or that it cannot
be waited for, decides the status of its stage; a wait that was only interrupted is begun anew. A
pipeline's exit code is that of its last failing stage.
-/

namespace LineShell

/-- What one look at a child says. -/
inductive WaitReport where
  /-- The child exited with a code. -/
  | exited (code : Int)
  /-- The child was ended by a signal. -/
  | signaled (signal : Nat)
  /-- The child was stopped or continued, and still runs. -/
  | changed
  /-- The look failed; `SystemError.interrupted` if a signal to the waiting process cut it short. -/
  | failed (cause : SystemError)
  deriving DecidableEq, Repr

/-- How a stage ended. -/
inductive StageStatus where
  | exited (code : Int)
  | signaled (signal : Nat)
  | notStarted
  deriving DecidableEq, Repr

namespace StageStatus

/-- The code for a command that was found but could not be run. -/
def cannotExecute : Int := 126

/-- The code of a stage that failed. -/
def failureCode? : StageStatus → Option Int
  | exited code => if code = 0 then none else some code
  | signaled signal => some (128 + signal)
  | notStarted => some cannotExecute

/-- The status that the reports on a child lead to. -/
def ofReports : List WaitReport → StageStatus
  | [] => notStarted
  | .exited code :: _ => exited code
  | .signaled signal :: _ => signaled signal
  | .changed :: rest => ofReports rest
  | .failed cause :: rest => if cause = .interrupted then ofReports rest else notStarted

/-- The exit code of a pipeline: the code of the last stage that failed, 0 if none did. -/
def aggregate (stages : List StageStatus) : Int :=
  (stages.reverse.findSome? failureCode?).getD 0

end StageStatus

end LineShell
