import GridCopy.Session

/-!
# Loading settings

What a session finds when it loads settings: those of the nearest settings file, or the standard
ones, with the environment laid over them. The environment cannot make a load fail.

Results:
1. `Settings.overrideFrom_eq`: overriding always succeeds, and what it logs.
2. `Session.load_result`, `Session.load_cases`: a load gives settings or refuses their file.
3. `Session.settings_of_loaded`, `Session.settings_of_unloaded`: asking a session for its settings,
   with and without some that are loaded.
-/

namespace GridCopy

namespace Settings

/-- The value that a variable gives to a setting, or the old one. -/
def valueFrom {α : Type} (lookup : String → Option String) (name : String)
    (read? : String → Option α) (old : α) : α :=
  ((lookup name).bind read?).getD old

/-- The settings with those replaced that the environment gives. -/
def overridden (lookup : String → Option String) (settings : Settings) : Settings :=
  { settings with
    policy := valueFrom lookup policyVariable Selection.ofName? settings.policy
    layout := valueFrom lookup layoutVariable MajorOrder.ofName? settings.layout
    errorLimit := valueFrom lookup limitVariable size? settings.errorLimit }

variable {lookup : String → Option String}

/-- What a variable leaves in the journal: a warning, if it is set to a value it cannot have. -/
def warnings {α : Type} (lookup : String → Option String) (name : String)
    (read? : String → Option α) (complaint : String) : List Event :=
  match lookup name with
  | none => []
  | some text =>
      match read? text with
      | some _ => []
      | none => [.log .warn s!"Ignoring {complaint} {name}={text}"]

theorem override_eq {α : Type} (name : String) (read? : String → Option α) (complaint : String)
    (old : α) :
    override lookup name read? complaint old =
      ⟨warnings lookup name read? complaint, .ok (valueFrom lookup name read? old)⟩ := by
  unfold override warnings valueFrom
  cases given : lookup name with
  | none => rfl
  | some text =>
      cases accepted : read? text with
      | none =>
          simp only [accepted, Option.bind_some, Option.getD_none, Recorded.log_bind]
          rfl
      | some value =>
          simp only [accepted, Option.bind_some, Option.getD_some]
          rfl

theorem overrideFrom_eq (lookup : String → Option String) (settings : Settings) :
    overrideFrom lookup settings =
      ⟨warnings lookup policyVariable Selection.ofName? "unknown" ++
          (warnings lookup layoutVariable MajorOrder.ofName? "unknown" ++
            warnings lookup limitVariable size? "non-numeric"),
        .ok (settings.overridden lookup)⟩ := by
  simp only [overrideFrom, override_eq, Recorded.ok_bind]
  change Recorded.mk (_ ++ (_ ++ (_ ++ []))) _ = _
  rw [List.append_nil]
  rfl

theorem overrideFrom_result (settings : Settings) :
    (overrideFrom lookup settings).result = .ok (settings.overridden lookup) := by
  rw [overrideFrom_eq]

theorem ofToml_ok_iff {explain : String → String} {text : String} {settings : Settings} :
    ofToml explain text = .ok settings ↔ ofDocument? text = some settings := by
  unfold ofToml
  cases ofDocument? text with
  | none => simp only [reduceCtorEq]
  | some given => rw [Except.ok.injEq, Option.some.injEq]

/-- A text is refused as one that holds no settings, and for nothing else. -/
theorem ofToml_error_iff {explain : String → String} {text : String} {error : CopyError} :
    ofToml explain text = .error error ↔
      ofDocument? text = none ∧ error = .config (explain text) := by
  unfold ofToml
  cases ofDocument? text with
  | none => simp only [Except.error.injEq, true_and, eq_comm]
  | some given => simp only [reduceCtorEq, false_and]

end Settings

namespace Session

/-- The settings of the nearest file, or the standard ones if there is none. -/
def found (wording : Wording) (session : Session) : Except CopyError Settings :=
  match session.directory.bind (nearestFile? session.tree) with
  | none => .ok .standard
  | some (_, content) => decode wording content

variable {wording : Wording} {session : Session} {settings : Settings}

theorem decode_error {content : ByteArray} {error : CopyError}
    (refused : decode wording content = .error error) : ∃ reason, error = .config reason := by
  unfold decode at refused
  split at refused
  · cases refused
    exact ⟨_, rfl⟩
  · exact ⟨_, (Settings.ofToml_error_iff.mp refused).2⟩

theorem found_error {error : CopyError} (refused : session.found wording = .error error) :
    ∃ reason, error = .config reason := by
  unfold found at refused
  split at refused
  · cases refused
  · exact decode_error refused

theorem fromDirectory_result (wording : Wording) (session : Session) :
    (session.fromDirectory wording).result = orRefuse (session.found wording) := by
  unfold fromDirectory found
  cases session.directory with
  | none => rfl
  | some directory =>
      simp only [Option.bind_some]
      cases nearestFile? session.tree directory with
      | none => rfl
      | some file => exact Recorded.result_bind_ok rfl

theorem load_result (wording : Wording) (session : Session) :
    (session.load wording).result =
      orRefuse ((session.found wording).map (Settings.overridden session.valueOf)) := by
  have read := session.fromDirectory_result wording
  cases known : session.found wording with
  | error error =>
      rw [known] at read
      exact Recorded.result_bind_error read
  | ok settings =>
      rw [known] at read
      rw [load, Recorded.result_bind_ok read]
      exact Settings.overrideFrom_result settings

theorem load_cases (wording : Wording) (session : Session) :
    (∃ settings, (session.load wording).result = .ok settings) ∨
      ∃ reason, (session.load wording).result = refuse (.config reason) := by
  rw [load_result]
  cases known : session.found wording with
  | error error =>
      obtain ⟨reason, rfl⟩ := found_error known
      exact .inr ⟨reason, rfl⟩
  | ok settings => exact .inl ⟨_, rfl⟩

/-- The environment alone decides what the standard settings become, whatever is loaded. -/
theorem fromEnvironment_result (session : Session) :
    session.fromEnvironment.result = .ok (Settings.standard.overridden session.valueOf) :=
  Settings.overrideFrom_result _

/-! ## Asking for the settings -/

theorem settings_of_loaded (wording : Wording) (loaded : session.loaded = some settings) :
    session.settings wording = (pure settings, session) := by
  unfold Session.settings
  rw [loaded]

theorem settings_of_unloaded (wording : Wording) (unloaded : session.loaded = none) :
    (session.settings wording).1 = session.load wording := by
  unfold Session.settings
  rw [unloaded]
  simp only
  split
  · rfl
  · rfl

theorem settings_cases (wording : Wording) (session : Session) :
    (∃ settings, (session.settings wording).1.result = .ok settings) ∨
      ∃ reason, (session.settings wording).1.result = refuse (.config reason) := by
  cases known : session.loaded with
  | some settings =>
      rw [settings_of_loaded wording known]
      exact .inl ⟨settings, rfl⟩
  | none =>
      rw [settings_of_unloaded wording known]
      exact session.load_cases wording

/-- A success is remembered, and a failure leaves the session as it was. -/
theorem loaded_of_settings (asked : (session.settings wording).1.result = .ok settings) :
    (session.settings wording).2 = { session with loaded := some settings } := by
  cases known : session.loaded with
  | some old =>
      rw [settings_of_loaded wording known] at asked ⊢
      cases asked
      rw [← known]
  | none =>
      rw [settings_of_unloaded wording known] at asked
      unfold Session.settings
      simp only [known, asked]

theorem settings_failed {failure : Failure}
    (asked : (session.settings wording).1.result = .error failure) :
    (session.settings wording).2 = session ∧ session.loaded = none := by
  cases known : session.loaded with
  | some old =>
      rw [settings_of_loaded wording known] at asked
      cases asked
  | none =>
      rw [settings_of_unloaded wording known] at asked
      unfold Session.settings
      simp only [known, asked, and_self]

end Session

end GridCopy
