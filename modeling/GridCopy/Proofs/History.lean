import Mathlib.Data.List.Induction
import Mathlib.Data.List.Infix
import GridCopy.Proofs.Loading

/-!
# The history of a process

A process asks for its settings, overrides the standard ones, and sees files, its directory and its
environment change, in any order. The first ask that succeeds decides the settings for good; until
then every ask is answered as a process would be that has just been started.

The words in which files are refused stay the same throughout.

Results:
1. `Session.loaded_perform`: what one action does to the loaded settings.
2. `Session.afresh_performAll`: what a history does to everything else.
3. `Session.loaded_performAll`: what is loaded at the end of a history.
4. `Session.settings_after_history`: how an ask is answered at the end of a history.
-/

namespace GridCopy

/-- One thing that happens to a process. -/
inductive Action
  /-- The process asks for its settings. -/
  | ask
  /-- The process overrides the standard settings from its environment. -/
  | override
  | change (change : Change)

/-- The change from outside that an action is, if it is one. -/
def Action.outside? : Action → Option Change
  | .ask => none
  | .override => none
  | .change outside => some outside

namespace Session

/-- The session of a process that has just been started where this one is now. -/
def afresh (session : Session) : Session := { session with loaded := none }

/-- The settings that an action gives, if it asks for some, and the session after it. -/
def respond (wording : Wording) (session : Session) : Action → Option (Recorded Settings) × Session
  | .ask =>
      let (recorded, next) := session.settings wording
      (some recorded, next)
  | .override => (some session.fromEnvironment, session)
  | .change outside => (none, session.change outside)

def perform (wording : Wording) (session : Session) (action : Action) : Session :=
  (session.respond wording action).2

def performAll (wording : Wording) (session : Session) (actions : List Action) : Session :=
  actions.foldl (perform wording) session

def changeAll (session : Session) (changes : List Change) : Session :=
  changes.foldl change session

/-- One of the asks in a history gave settings. -/
def Answered (wording : Wording) (start : Session) (actions : List Action) : Prop :=
  ∃ early settings, early ++ [.ask] <+: actions ∧
    ((start.performAll wording early).settings wording).1.result = .ok settings

/-- The first ask in a history that gave settings gave these. -/
def FirstAnswer (wording : Wording) (start : Session) (actions : List Action)
    (settings : Settings) : Prop :=
  ∃ early, early ++ [.ask] <+: actions ∧ ¬ start.Answered wording early ∧
    ((start.performAll wording early).settings wording).1.result = .ok settings

variable {wording : Wording} {session start : Session} {settings : Settings} {actions : List Action}

/-! ## One action -/

/-- Only an ask that succeeds has an effect on what is loaded. -/
theorem loaded_perform (wording : Wording) (session : Session) (action : Action) :
    (session.perform wording action).loaded = session.loaded ∨
      action = .ask ∧ ∃ settings, (session.settings wording).1.result = .ok settings ∧
        (session.perform wording action).loaded = some settings := by
  cases action with
  | override => exact .inl rfl
  | change outside => exact .inl (session.loaded_change outside)
  | ask =>
      rw [perform, respond]
      rcases session.settings_cases wording with ⟨settings, asked⟩ | ⟨reason, asked⟩
      · refine .inr ⟨rfl, settings, asked, ?_⟩
        rw [loaded_of_settings asked]
      · rw [(settings_failed asked).1]
        exact .inl rfl

theorem perform_ask_failed {failure : Failure}
    (asked : (session.settings wording).1.result = .error failure) :
    session.perform wording .ask = session :=
  (settings_failed asked).1

/-- What overriding gives depends on the environment alone, and it leaves everything as it was. -/
theorem respond_override (wording : Wording) (session : Session) :
    session.respond wording .override = (some session.afresh.fromEnvironment, session) := rfl

theorem afresh_of_unloaded (unloaded : session.loaded = none) : session.afresh = session := by
  unfold afresh
  rw [← unloaded]

/-- What is loaded does not show in what a change makes of everything else. -/
theorem afresh_change (session : Session) (change : Change) :
    (session.change change).afresh = session.afresh.change change := by
  cases change with
  | put route entry => rfl
  | set name value => rfl
  | remove route =>
      change afresh ((session.tree.follow? [] route).elim session session.remove) =
        (session.tree.follow? [] route).elim session.afresh session.afresh.remove
      cases session.tree.follow? [] route with
      | none => rfl
      | some path => rfl
  | enter route =>
      change afresh ((session.tree.follow? [] route).elim session session.enter) =
        (session.tree.follow? [] route).elim session.afresh session.afresh.enter
      cases session.tree.follow? [] route with
      | none => rfl
      | some path =>
          simp only [Option.elim_some, enter]
          change afresh (if session.tree.isDirectory path then _ else _) =
            if session.tree.isDirectory path then _ else _
          split
          · rfl
          · rfl

theorem afresh_ask (wording : Wording) (session : Session) :
    (session.perform wording .ask).afresh = session.afresh := by
  rw [perform, respond]
  rcases session.settings_cases wording with ⟨settings, asked⟩ | ⟨reason, asked⟩
  · rw [loaded_of_settings asked]
    rfl
  · rw [(settings_failed asked).1]

/-! ## Histories -/

/-- Files, directory and environment are what the changes alone make of them. -/
theorem afresh_performAll (wording : Wording) (session : Session) (actions : List Action) :
    (session.performAll wording actions).afresh =
      session.afresh.changeAll (actions.filterMap Action.outside?) := by
  induction actions generalizing session with
  | nil => rfl
  | cons action rest ih =>
      have next : (session.performAll wording (action :: rest)).afresh =
          (session.perform wording action).afresh.changeAll (rest.filterMap Action.outside?) :=
        ih (session.perform wording action)
      rw [next]
      cases action with
      | ask =>
          rw [afresh_ask, List.filterMap_cons]
          rfl
      | override =>
          rw [List.filterMap_cons]
          rfl
      | change outside =>
          rw [perform, respond, afresh_change, List.filterMap_cons]
          rfl

theorem performAll_concat (wording : Wording) (session : Session) (actions : List Action)
    (action : Action) :
    session.performAll wording (actions ++ [action]) =
      (session.performAll wording actions).perform wording action := by
  rw [performAll, List.foldl_append]
  rfl

theorem answered_concat {action : Action}
    (answered : start.Answered wording (actions ++ [action])) :
    start.Answered wording actions ∨ action = .ask ∧ ∃ settings,
      ((start.performAll wording actions).settings wording).1.result = .ok settings := by
  obtain ⟨early, settings, before, asked⟩ := answered
  rcases List.prefix_concat_iff.mp before with whole | inside
  · obtain ⟨rfl, last⟩ := List.append_inj' whole rfl
    cases last
    exact .inr ⟨rfl, settings, asked⟩
  · exact .inl ⟨early, settings, inside, asked⟩

theorem FirstAnswer.concat (first : start.FirstAnswer wording actions settings) (action : Action) :
    start.FirstAnswer wording (actions ++ [action]) settings := by
  obtain ⟨early, before, unanswered, asked⟩ := first
  exact ⟨early, before.trans (List.prefix_append _ _), unanswered, asked⟩

/-- Nothing is loaded until an ask succeeds, and then what the first of them gave. -/
theorem loaded_performAll (wording : Wording) (unloaded : start.loaded = none)
    (actions : List Action) :
    (¬ start.Answered wording actions ∧ (start.performAll wording actions).loaded = none) ∨
      ∃ settings, start.FirstAnswer wording actions settings ∧
        (start.performAll wording actions).loaded = some settings := by
  induction actions using List.reverseRecOn with
  | nil =>
      refine .inl ⟨?_, unloaded⟩
      rintro ⟨early, settings, before, -⟩
      exact List.append_ne_nil_of_right_ne_nil early (List.cons_ne_nil _ _)
        (List.prefix_nil.mp before)
  | append_singleton actions action ih =>
      rw [performAll_concat]
      have step := (start.performAll wording actions).loaded_perform wording action
      rcases ih with ⟨unanswered, nothing⟩ | ⟨settings, first, known⟩
      · rcases step with same | ⟨rfl, settings, asked, now⟩
        · refine .inl ⟨fun answered => ?_, same.trans nothing⟩
          rcases answered_concat answered with earlier | ⟨rfl, settings, asked⟩
          · exact unanswered earlier
          · rw [perform, respond, loaded_of_settings asked, nothing] at same
            cases same
        · exact .inr ⟨settings, ⟨actions, List.prefix_rfl, unanswered, asked⟩, now⟩
      · rcases step with same | ⟨rfl, other, asked, now⟩
        · exact .inr ⟨settings, first.concat action, same.trans known⟩
        · rw [settings_of_loaded wording known] at asked
          cases asked
          exact .inr ⟨settings, first.concat .ask, now⟩

/-- A process with any history. As long as no ask has succeeded, nothing is loaded, and an ask is
answered as it would be in a process started just now, among the files and in the directory and
environment that the changes have left; if it fails, there is still nothing loaded. From the first
ask on that succeeds, every ask gives the settings of that one and logs nothing. Overriding gives the
standard settings with what the environment of that moment says, whatever is loaded, and changes
nothing. What is loaded changes with no other action than an ask that succeeds. -/
theorem settings_after_history (wording : Wording) (tree : FileTree) (directory : Option Path)
    (environment : List (String × String)) (actions : List Action) :
    let start : Session := ⟨tree, directory, environment, none⟩
    let session := start.performAll wording actions
    let restarted := start.changeAll (actions.filterMap Action.outside?)
    session.afresh = restarted ∧
      ((¬ start.Answered wording actions ∧ session.loaded = none ∧
          (session.settings wording).1 = (restarted.settings wording).1 ∧
          ∀ failure, (session.settings wording).1.result = .error failure →
            (session.perform wording .ask).loaded = none) ∨
        ∃ settings, start.FirstAnswer wording actions settings ∧ session.loaded = some settings ∧
          (session.settings wording).1 = ⟨[], .ok settings⟩) ∧
      (session.respond wording .override = (some restarted.fromEnvironment, session) ∧
        restarted.fromEnvironment.result =
          .ok (Settings.standard.overridden restarted.valueOf)) ∧
      ∀ action, (session.perform wording action).loaded = session.loaded ∨
        action = .ask ∧ ∃ settings, (session.settings wording).1.result = .ok settings ∧
          (session.perform wording action).loaded = some settings := by
  intro start session restarted
  have placed : session.afresh = restarted := start.afresh_performAll wording actions
  have unloaded : start.loaded = none := rfl
  refine ⟨placed, ?_, ⟨?_, restarted.fromEnvironment_result⟩, session.loaded_perform wording⟩
  · rcases loaded_performAll wording unloaded actions with
      ⟨unanswered, nothing⟩ | ⟨settings, first, known⟩
    · refine .inl ⟨unanswered, nothing, ?_, fun failure asked => ?_⟩
      · rw [← placed, afresh_of_unloaded nothing]
      · rw [perform_ask_failed asked]
        exact nothing
    · refine .inr ⟨settings, first, known, ?_⟩
      rw [settings_of_loaded wording known]
      rfl
  · rw [respond_override, placed]

end Session

end GridCopy
