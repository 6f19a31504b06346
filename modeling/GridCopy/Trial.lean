import GridCopy.Binary
import GridCopy.Console
import GridCopy.Device.Copy
import GridCopy.Host.Copy
import GridCopy.Plan.Ownership
import GridCopy.Settings.Basic
import GridCopy.Verification

/-!
# Trials

A trial copies a numbered buffer under every selected policy, verifies each copy and compares the
copies with one another. Everything is validated before any memory is touched.
-/

namespace GridCopy

/-- What one policy did. -/
structure PolicyRun where
  policy : Policy
  verification : Verification Binary32
  destination : Array Binary32

structure Outcome where
  runs : List PolicyRun
  errorLimit : Nat

/-- Whether two buffers hold the same bit patterns. -/
def sameBits (left right : Array Binary32) : Bool :=
  left.size == right.size && (left.zip right).all fun (a, b) => a.bits == b.bits

namespace Outcome

/-- Whether every copy has the bits of the first one. -/
def policiesAgree (outcome : Outcome) : Bool :=
  match outcome.runs with
  | [] => true
  | first :: rest => rest.all fun run => sameBits run.destination first.destination

def isSuccess (outcome : Outcome) : Bool :=
  outcome.runs.all (·.verification.isSuccess) && outcome.policiesAgree

def exitCode (outcome : Outcome) : Int := if outcome.isSuccess then 0 else -1

/-- The complaints about one run: its mismatches, and whether they ended the comparison. -/
def complaints (outcome : Outcome) (run : PolicyRun) : List String :=
  match run.verification with
  | .success => []
  | .failed mismatches aborted =>
      mismatches.map Mismatch.text ++
        if aborted then [s!"Aborting on {outcome.errorLimit}nth error."] else []

/-- The lines of the report, in the order in which they are written. -/
def lines (outcome : Outcome) : List (Stream × String) :=
  let complaints := outcome.runs.flatMap outcome.complaints
  let disagreement :=
    if 1 < outcome.runs.length && !outcome.policiesAgree then
      ["Striped and vectorized copies disagree."]
    else []
  let success := if outcome.isSuccess then ["Success."] else []
  (complaints ++ disagreement).map (Stream.errors, ·) ++ success.map (Stream.output, ·)

/-- Reports the outcome: whether all lines could be written, and what the console shows of them. -/
def report (console : Console) (outcome : Outcome) : Except String Unit × Screen :=
  Screen.blank.writeLines console outcome.lines

end Outcome

namespace Trial

/-- A way to copy a buffer: the number of the copy in its trial, the plan and the source. -/
abbrev Copier := Nat → Plan → Array Binary32 → Recorded (Array Binary32)

/-- What a run says of its verification. -/
def verdict (policy : Policy) : Verification Binary32 → String
  | .success => s!"{policy} copy verified"
  | .failed mismatches _ => s!"{policy} copy failed with {mismatches.length} mismatches"

/-- Copies under one plan and verifies the copy. -/
def runPlan (copier : Copier) (source : Array Binary32) (errorLimit number : Nat) (plan : Plan) :
    Recorded PolicyRun := do
  Recorded.log .debug <|
    s!"Copying {plan.layout.shape} with tile {plan.tile} and threads {plan.threads.shape} " ++
      s!"({plan.policy})"
  let destination ← copier number plan source
  let verification ← verify source destination errorLimit
  Recorded.log .info (verdict plan.policy verification)
  return { policy := plan.policy, verification, destination }

/-- Runs the plans in order, numbered from `number` on, and stops at the first failure. -/
def runPlans (copier : Copier) (source : Array Binary32) (errorLimit : Nat) :
    Nat → List Plan → Recorded (List PolicyRun)
  | _, [] => return []
  | number, plan :: rest => do
      let run ← runPlan copier source errorLimit number plan
      let runs ← runPlans copier source errorLimit (number + 1) rest
      return run :: runs

/-- Checks that every element has exactly one owner under every plan. -/
def checkOwnership : List Plan → Except Failure Unit
  | [] => .ok ()
  | plan :: rest => do
      let _ ← plan.ownershipMap
      checkOwnership rest

/-- Runs a trial. -/
def run (copier : Copier) (settings : Settings) : Recorded Outcome := do
  let plans ← settings.plans
  checkOwnership plans
  let errorLimit := max settings.errorLimit 1
  let length ← settings.shape.size
  let runs ← runPlans copier (iota length) errorLimit 0 plans
  return { runs, errorLimit }

def runOnHost (settings : Settings) : Recorded Outcome :=
  run (fun _ plan source => Host.copy plan source) settings

def runOnDevice (device : Device Binary32) (settings : Settings) : Recorded Outcome :=
  run device.copy settings

example : ((Outcome.mk [] 10).report .working).2 = ⟨"Success.\n", "", 1⟩ := by decide +kernel

end Trial

end GridCopy
