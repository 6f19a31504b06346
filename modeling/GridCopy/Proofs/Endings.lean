import GridCopy.Program
import GridCopy.Proofs.Loading
import GridCopy.Proofs.Trials

/-!
# How the command ends

A run of the command finds no settings, finds settings that have no plan, or copies and succeeds.
`Session.Ends` says what the console and the status are in each of these cases, on a console that
shows every line; there is no other case, and the order in which the tasks of a copy take their turns
does not show. Each run writes one line. What happens when this line, or the explanation why it could
not be written, does not get through is said for every console.

Results:
1. `Session.runCommand_unsettled`, `Session.runCommand_unplanned`, `Session.runCommand_copied`: the
   three cases one by one, on any console.
2. `Session.runCommand_on_any_console`: what a console can make of a run.
3. `Session.every_run_ends`: all cases together, on a working console.
-/

namespace GridCopy

namespace Ending

/-- The status of a process that explains a failure, given what becomes of the explanation. -/
def explained : Except String Unit → Nat
  | .ok () => 255
  | .error _ => abnormal

theorem explaining_exact (console : Console) (screen : Screen) (reason : String) :
    explaining console screen reason =
      ⟨explained (console screen.lines reason).outcome, screen.stdout,
        screen.stderr ++ (console screen.lines reason).shown⟩ := by
  obtain ⟨stdout, stderr, lines⟩ := screen
  simp only [explaining, Screen.writeLine]
  cases (console lines reason).outcome with
  | ok => rfl
  | error refusal => rfl

/-- Announces a success: how the process ends if the line is written, and if it is not. -/
def succeeding (console : Console) : Ending :=
  let line := console 0 "Success."
  match line.outcome with
  | .ok () => ⟨0, line.shown, ""⟩
  | .error reason => ⟨explained (console 1 reason).outcome, line.shown, (console 1 reason).shown⟩

theorem ofOutcome_success {outcome : Outcome} (succeeded : outcome.exitCode = 0)
    (console : Console) : ofOutcome console outcome = succeeding console := by
  have reported :
      outcome.report console = Screen.blank.writeLines console [(.output, "Success.")] := by
    rw [Outcome.report, Outcome.lines_of_exitCode_zero succeeded]
  simp only [ofOutcome, reported, succeeded, Screen.writeLines, Screen.writeLine, succeeding,
    explaining_exact]
  cases written : (console 0 "Success.").outcome with
  | ok =>
      simp only [Screen.blank, written, Screen.showLine, String.empty_append]
      rfl
  | error reason => simp only [Screen.blank, written, Screen.showLine, String.empty_append]

end Ending

namespace Session

variable {wording : Wording} {session : Session} {settings : Settings} {plans : List Plan}

/-- How the command ends when it runs a trial of its settings in the given way. -/
def endingWith (wording : Wording) (console : Console) (trial : Settings → Recorded Outcome)
    (session : Session) : Ending :=
  match (session.settings wording).1.result with
  | .error failure => .ofFailure console failure
  | .ok settings =>
      match (trial settings).result with
      | .error failure => .ofFailure console failure
      | .ok outcome => .ofOutcome console outcome

/-- The three ways in which a run of the command may end. -/
inductive Ends (wording : Wording) (session : Session) : Ending → Prop
  /-- The settings file is refused, and the reason is explained. -/
  | unsettled {reason : String} :
      (session.settings wording).1.result = refuse (.config reason) →
      Ends wording session ⟨255, "", (CopyError.config reason).message ++ "\n"⟩
  /-- The settings select a plan that is refused, and the reason is explained. -/
  | unplanned {settings : Settings} {error : CopyError} :
      (session.settings wording).1.result = .ok settings → settings.plans = refuse error →
      Ends wording session ⟨255, "", error.message ++ "\n"⟩
  /-- Every plan is run once, in order, every copy is verified and is the numbered buffer, and nothing
  is complained about. -/
  | copied {settings : Settings} {plans : List Plan} {size : Nat} {outcome : Outcome} :
      (session.settings wording).1.result = .ok settings → settings.plans = .ok plans →
      settings.shape.size = .ok size → (Trial.runOnHost settings).result = .ok outcome →
      outcome.runs = plans.map (fun plan => ⟨plan.policy, .success, iota size⟩) →
      Ends wording session ⟨0, "Success.\n", ""⟩

theorem endingWith_congr {trial other : Settings → Recorded Outcome}
    (same : ∀ settings, trial settings = other settings) (console : Console) (session : Session) :
    session.endingWith wording console trial = session.endingWith wording console other := by
  rw [funext same]

theorem runCommand_unsettled {error : CopyError}
    (asked : (session.settings wording).1.result = refuse error) (console : Console) :
    session.runCommand wording console = .explaining console .blank error.message := by
  unfold runCommand
  rw [asked]
  rfl

theorem runCommand_unplanned {error : CopyError}
    (asked : (session.settings wording).1.result = .ok settings)
    (unplanned : settings.plans = refuse error) (console : Console) :
    session.runCommand wording console = .explaining console .blank error.message := by
  have refused : Trial.runOnHost settings = ⟨[], refuse error⟩ := Trial.run_unplanned unplanned _
  unfold runCommand
  rw [asked]
  simp only [refused]
  rfl

theorem runCommand_copied (asked : (session.settings wording).1.result = .ok settings)
    (planned : settings.plans = .ok plans) (console : Console) :
    session.runCommand wording console = .succeeding console := by
  have succeeded := Trial.faithful_succeeds plans (iota settings.shape.area)
    (max settings.errorLimit 1)
  unfold runCommand
  rw [asked]
  simp only [Trial.runOnHost_exact planned]
  exact Ending.ofOutcome_success succeeded console

/-- A run explains a refusal or announces a success, whatever the console is. -/
theorem runCommand_cases (wording : Wording) (session : Session) :
    (∃ error : CopyError, ∀ console,
        session.runCommand wording console = .explaining console .blank error.message) ∨
      ∀ console, session.runCommand wording console = .succeeding console := by
  rcases session.settings_cases wording with ⟨settings, asked⟩ | ⟨reason, asked⟩
  · rcases settings.plans_cases with ⟨plans, planned⟩ | ⟨error, unplanned⟩
    · exact .inr (runCommand_copied asked planned)
    · exact .inl ⟨error, runCommand_unplanned asked unplanned⟩
  · exact .inl ⟨_, runCommand_unsettled asked⟩

theorem explaining_working (reason : String) :
    Ending.explaining .working .blank reason = ⟨255, "", reason ++ "\n"⟩ := by
  rw [Ending.explaining_exact]
  simp only [Screen.blank, Console.working, String.empty_append, Ending.explained]

/-- A run on any console, beside the same run on a working one. The run writes one line. If it is an
explanation that cannot be written, the run ends abnormally. If it is the success, the reason why it
cannot be written is explained in turn, so no run has the status zero without having written it. -/
theorem runCommand_on_any_console (wording : Wording) (console : Console) (session : Session) :
    let usual := session.runCommand wording .working
    let ending := session.runCommand wording console
    (∃ error : CopyError, usual = ⟨255, "", error.message ++ "\n"⟩ ∧
        let line := console 0 error.message
        ending = ⟨Ending.explained line.outcome, "", line.shown⟩) ∨
      usual = ⟨0, "Success.\n", ""⟩ ∧
        let line := console 0 "Success."
        (line.outcome = .ok () → ending = ⟨0, line.shown, ""⟩) ∧
        ∀ reason, line.outcome = .error reason →
          let next := console 1 reason
          ending = ⟨Ending.explained next.outcome, line.shown, next.shown⟩ := by
  intro usual ending
  rcases session.runCommand_cases wording with ⟨error, explains⟩ | succeeds
  · refine .inl ⟨error, (explains .working).trans (explaining_working _), ?_⟩
    refine (explains console).trans ((Ending.explaining_exact ..).trans ?_)
    simp only [Screen.blank, String.empty_append]
  · refine .inr ⟨succeeds .working, fun written => ?_, fun reason refused => ?_⟩
    · refine (succeeds console).trans ?_
      simp only [Ending.succeeding, written]
    · refine (succeeds console).trans ?_
      simp only [Ending.succeeding, refused]

/-- Every run of the command ends in exactly one of the three ways: which one, what it prints and
its status depend on nothing but the settings that the session finds and on the plans that they
select. The tasks of its copies may take their turns in any way, whatever the console is. -/
theorem every_run_ends (wording : Wording) (session : Session) (turns : Nat → Trial.Turns) :
    (∀ console, session.endingWith wording console (Trial.run (Trial.hostUnder turns)) =
        session.runCommand wording console) ∧
      ∀ ending, session.runCommand wording .working = ending ↔ session.Ends wording ending := by
  constructor
  · exact fun console => session.endingWith_congr
      (fun settings => (Trial.run_turns settings turns (.faithful fun _ => default)).1) console
  · intro ending
    constructor
    · rintro rfl
      rcases session.settings_cases wording with ⟨settings, asked⟩ | ⟨reason, asked⟩
      · rcases settings.plans_cases with ⟨plans, planned⟩ | ⟨error, unplanned⟩
        · rw [runCommand_copied asked planned]
          exact .copied asked planned (Settings.shape_of_planned planned).1
            (Trial.runOnHost_exact planned) rfl
        · rw [runCommand_unplanned asked unplanned, explaining_working]
          exact .unplanned asked unplanned
      · rw [runCommand_unsettled asked, explaining_working]
        exact .unsettled asked
    · intro ends
      cases ends with
      | unsettled asked => rw [runCommand_unsettled asked, explaining_working]
      | unplanned asked unplanned => rw [runCommand_unplanned asked unplanned, explaining_working]
      | copied asked planned => exact runCommand_copied asked planned .working

end Session

end GridCopy
