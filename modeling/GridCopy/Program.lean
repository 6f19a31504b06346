import GridCopy.Session
import GridCopy.Trial

/-!
# The program

One run of the command: it loads the settings of its session, runs a trial on the host and reports
the outcome on its console.
-/

namespace GridCopy

/-- How a process ends. -/
structure Ending where
  status : Nat
  stdout : String
  stderr : String
deriving DecidableEq, Repr

namespace Ending

def showing (status : Nat) (screen : Screen) : Ending := ⟨status, screen.stdout, screen.stderr⟩

/-- The status of a process is one byte. -/
def statusOf (exitCode : Int) : Nat := (exitCode % 256).toNat

/-- The status of a process that ends abnormally. -/
def abnormal : Nat := 101

/-- Explains a failure and ends. Not being able to explain it is an abnormal end. -/
def explaining (console : Console) (screen : Screen) (reason : String) : Ending :=
  match screen.writeLine console .errors reason with
  | (.ok (), last) => .showing (statusOf (-1)) last
  | (.error _, last) => .showing abnormal last

/-- A refusal is explained; a fault ends the process abnormally. -/
def ofFailure (console : Console) : Failure → Ending
  | .refused error => explaining console .blank error.message
  | .fault fault =>
      let (_, last) := Screen.blank.writeLine console .errors (fault.message?.getD "")
      .showing abnormal last

/-- An outcome is reported; a report that breaks off is a failure of its own. -/
def ofOutcome (console : Console) (outcome : Outcome) : Ending :=
  match outcome.report console with
  | (.ok (), last) => .showing (statusOf outcome.exitCode) last
  | (.error reason, last) => explaining console last reason

end Ending

/-- One run of the command in a session. -/
def Session.runCommand (wording : Wording) (console : Console) (session : Session) : Ending :=
  match (session.settings wording).1.result with
  | .error failure => .ofFailure console failure
  | .ok settings =>
      match (Trial.runOnHost settings).result with
      | .error failure => .ofFailure console failure
      | .ok outcome => .ofOutcome console outcome

end GridCopy
