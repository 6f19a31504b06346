import GridCopy.CopyError
import GridCopy.Device.Launch

/-!
# Journals

What a computation lets the outside see besides its result: the lines it logs and the launches it
starts, in order. A computation that fails keeps the events from before the failure.
-/

namespace GridCopy

inductive Level
  | debug
  | info
  | warn
deriving DecidableEq, Repr

def Level.name : Level → String
  | .debug => "DEBUG"
  | .info => "INFO"
  | .warn => "WARN"

inductive Event
  | log (level : Level) (text : String)
  | launch (launch : Launch)
deriving DecidableEq, Repr

/-- The text of a logged line with its level. -/
def Event.line? : Event → Option String
  | .log level text => some s!"{level.name} {text}"
  | .launch _ => none

def Event.launch? : Event → Option Launch
  | .log _ _ => none
  | .launch started => some started

/-- A computation with the events it leaves. -/
structure Recorded (α : Type) where
  events : List Event
  result : Except Failure α

namespace Recorded

variable {α : Type} {β : Type}

def log (level : Level) (text : String) : Recorded Unit := ⟨[.log level text], .ok ()⟩

def start (launch : Launch) : Recorded Unit := ⟨[.launch launch], .ok ()⟩

/-- The second computation happens after the first, and not at all if the first one fails. -/
def andThen (first : Recorded α) (next : α → Recorded β) : Recorded β :=
  match first.result with
  | .error failure => ⟨first.events, .error failure⟩
  | .ok value =>
      let rest := next value
      ⟨first.events ++ rest.events, rest.result⟩

instance : Monad Recorded where
  pure value := ⟨[], .ok value⟩
  bind := andThen

theorem pure_andThen (value : α) (next : α → Recorded β) :
    andThen ⟨[], .ok value⟩ next = next value := by
  simp [andThen]

theorem andThen_pure (recorded : Recorded α) :
    recorded.andThen (fun value => ⟨[], .ok value⟩) = recorded := by
  obtain ⟨events, result⟩ := recorded
  cases result <;> simp [andThen]

theorem andThen_assoc {γ : Type} (recorded : Recorded α) (next : α → Recorded β)
    (last : β → Recorded γ) :
    (recorded.andThen next).andThen last =
      recorded.andThen fun value => (next value).andThen last := by
  obtain ⟨events, result⟩ := recorded
  cases result with
  | error failure => rfl
  | ok value =>
      cases rest : (next value).result <;> simp [andThen, rest]

instance : LawfulMonad Recorded :=
  LawfulMonad.mk' Recorded andThen_pure pure_andThen andThen_assoc

instance : MonadLift (Except Failure) Recorded := ⟨fun result => ⟨[], result⟩⟩

theorem lift_ok (value : α) : (liftM (Except.ok value : Checked α) : Recorded α) = pure value := rfl

theorem lift_answer (value : α) :
    (liftM (Except.ok value : Except Failure α) : Recorded α) = pure value := rfl

theorem lift_refuse (error : CopyError) :
    (liftM (refuse error : Except Failure α) : Recorded α) = ⟨[], refuse error⟩ := rfl

theorem ok_bind (events : List Event) (value : α) (next : α → Recorded β) :
    ((⟨events, .ok value⟩ : Recorded α) >>= next) =
      ⟨events ++ (next value).events, (next value).result⟩ := rfl

/-- A logged line comes before all that follows. -/
theorem log_bind (level : Level) (text : String) (next : Unit → Recorded α) :
    (log level text >>= next) = ⟨.log level text :: (next ()).events, (next ()).result⟩ := rfl

/-- The result does not depend on what the first computation leaves in the journal. -/
theorem result_bind_ok {first : Recorded α} {next : α → Recorded β} {value : α}
    (succeeded : first.result = .ok value) : (first >>= next).result = (next value).result := by
  change (andThen first next).result = _
  simp only [andThen, succeeded]

theorem result_bind_error {first : Recorded α} {next : α → Recorded β} {failure : Failure}
    (failed : first.result = .error failure) : (first >>= next).result = .error failure := by
  change (andThen first next).result = _
  simp only [andThen, failed]

/-- The logged lines, in order. -/
def lines (recorded : Recorded α) : List String := recorded.events.filterMap Event.line?

/-- The launches, in order. -/
def launches (recorded : Recorded α) : List Launch := recorded.events.filterMap Event.launch?

theorem launches_bind_ok {first : Recorded α} {next : α → Recorded β} {value : α}
    (succeeded : first.result = .ok value) :
    (first >>= next).launches = first.launches ++ (next value).launches := by
  change (andThen first next).launches = _
  simp only [launches, andThen, succeeded, List.filterMap_append]

theorem launches_bind_error {first : Recorded α} {next : α → Recorded β} {failure : Failure}
    (failed : first.result = .error failure) : (first >>= next).launches = first.launches := by
  change (andThen first next).launches = _
  simp only [launches, andThen, failed]

/-- What is only computed from a result launches nothing more. -/
theorem launches_bind_pure (first : Recorded α) (compute : α → β) :
    (first >>= fun value => pure (compute value)).launches = first.launches := by
  cases ended : first.result with
  | error failure => exact launches_bind_error ended
  | ok value =>
      rw [launches_bind_ok ended]
      exact List.append_nil _

end Recorded

end GridCopy
