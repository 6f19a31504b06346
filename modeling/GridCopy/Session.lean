import GridCopy.FileTree
import GridCopy.Settings.Decode
import GridCopy.Settings.Environment

/-!
# Sessions

A session is one process: the files it sees, its current directory, its environment, and the
settings it has loaded. Settings are loaded once; a load that fails is forgotten, so the next one
starts afresh. The words of a refusal are those of the libraries that read files and documents, so
they are a parameter.
-/

namespace GridCopy

/-- The name of the file that holds settings. -/
def settingsFile : String := "tiled-copy.toml"

/-- How the libraries that read files and documents explain that they cannot. -/
structure Wording where
  /-- There is no file to read at a path as it is written. -/
  noFile : FileTree → String → String
  /-- The bytes of a file are no text. -/
  noText : ByteArray → String
  /-- A text holds no settings. -/
  noSettings : String → String

structure Session where
  tree : FileTree
  /-- The current directory, unless it has been removed or was never there. -/
  directory : Option Path
  environment : List (String × String)
  loaded : Option Settings

/-- A change that the outside makes to a session. -/
inductive Change
  | put (route : Route) (entry : FileEntry)
  | remove (route : Route)
  | enter (route : Route)
  | set (name : String) (value : Option String)

namespace Session

/-- The session in the directory at a path. What is no directory is not entered. -/
def enter (session : Session) (path : Path) : Session :=
  if session.tree.isDirectory path then { session with directory := some path } else session

/-- Nothing is loaded at first, and the current directory is made. -/
def start (tree : FileTree) (route : Route) (environment : List (String × String)) : Session :=
  let nowhere : Session := { tree, directory := none, environment, loaded := none }
  match tree.makeWay? [] route with
  | some (made, path) => { nowhere with tree := made.makeDirectory path }.enter path
  | none => nowhere

/-- The settings file of the nearest directory that has one as a regular file, going up. -/
def nearestFile? (tree : FileTree) (directory : Path) : Option (Path × ByteArray) :=
  directory.upward.findSome? fun above =>
    (tree.file? (above ++ [settingsFile])).map fun content => (above ++ [settingsFile], content)

/-- The settings in the bytes of a file. -/
def decode (wording : Wording) (content : ByteArray) : Except CopyError Settings :=
  match String.fromUTF8? content with
  | none => .error (.config (wording.noText content))
  | some text => Settings.ofToml wording.noSettings text

/-- The settings in the file at a path as it is written. -/
def settingsAt (wording : Wording) (tree : FileTree) (path : String) : Except CopyError Settings :=
  match tree.fileAt? path with
  | none => .error (.config (wording.noFile tree path))
  | some content => decode wording content

/-- A refusal to read settings fails the computation. -/
def orRefuse (settings : Except CopyError Settings) : Except Failure Settings :=
  settings.mapError .refused

/-- The settings that hold in the current directory; without a settings file, or without a current
directory, the standard ones. -/
def fromDirectory (wording : Wording) (session : Session) : Recorded Settings :=
  match session.directory with
  | none => return .standard
  | some directory =>
      match nearestFile? session.tree directory with
      | none => return .standard
      | some (path, content) => do
          Recorded.log .debug s!"Loading harness config from {path.text}"
          orRefuse (decode wording content)

/-- The value of an environment variable. -/
def valueOf (session : Session) (name : String) : Option String :=
  session.environment.lookup name

/-- The standard settings, overridden from the environment. -/
def fromEnvironment (session : Session) : Recorded Settings :=
  Settings.standard.overrideFrom session.valueOf

/-- Loads settings whether or not some are loaded already. -/
def load (wording : Wording) (session : Session) : Recorded Settings := do
  let settings ← session.fromDirectory wording
  settings.overrideFrom session.valueOf

/-- The settings of the session and the session that has them loaded. -/
def settings (wording : Wording) (session : Session) : Recorded Settings × Session :=
  match session.loaded with
  | some settings => (pure settings, session)
  | none =>
      let recorded := session.load wording
      match recorded.result with
      | .ok settings => (recorded, { session with loaded := some settings })
      | .error _ => (recorded, session)

/-- The environment with a variable set to a value, or without it. -/
def setVariable (environment : List (String × String)) (name : String) (value : Option String) :
    List (String × String) :=
  let others := environment.filter (·.1 != name)
  match value with
  | some value => (name, value) :: others
  | none => others

/-- The session without what stands at a path. A current directory that is removed stays lost until
another one is entered. -/
def remove (session : Session) (path : Path) : Session :=
  { session with
    tree := session.tree.remove path
    directory := session.directory.filter (!path.isPrefixOf ·) }

/-- The session after a change. Routes start at the root; one that leads nowhere changes nothing. -/
def change (session : Session) : Change → Session
  | .put route entry => { session with tree := session.tree.putAt route entry }
  | .remove route => (session.tree.follow? [] route).elim session session.remove
  | .enter route => (session.tree.follow? [] route).elim session session.enter
  | .set name value => { session with environment := setVariable session.environment name value }

/-- Changes from the outside do not touch what is loaded. -/
theorem loaded_change (session : Session) (change : Change) :
    (session.change change).loaded = session.loaded := by
  cases change with
  | put route entry => rfl
  | remove route =>
      cases found : session.tree.follow? [] route with
      | none => simp [Session.change, found]
      | some path => simp [Session.change, remove, found]
  | enter route =>
      cases found : session.tree.follow? [] route with
      | none => simp [Session.change, found]
      | some path =>
          by_cases there : session.tree.isDirectory path
          · simp [Session.change, enter, found, there]
          · simp [Session.change, enter, found, there]
  | set name value => rfl

end Session

end GridCopy
