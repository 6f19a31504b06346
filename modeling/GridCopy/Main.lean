import GridCopy.Program

/-!
# The command line

Looks at the process it runs in, hands what it sees to `Session.runCommand` and does what that
says.
-/

namespace GridCopy

namespace CommandLine

/-- The regular file of the given name in a directory, if there is one. A file that may not be
read is given a content that is no text. -/
def candidate (directory : Path) : IO (Option (Path × FileEntry)) := do
  let path := directory ++ [settingsFile]
  match ← (IO.FS.readBinFile path.text).toBaseIO with
  | .ok content => return some (path, .file content)
  | .error (.permissionDenied ..) => return some (path, .file ⟨#[0xff]⟩)
  | .error _ => return none

/-- The settings files that the current directory and those above it hold. -/
def candidates : List Path → IO FileTree
  | [] => return .empty
  | directory :: rest => do
      let tree ← candidates rest
      match ← candidate directory with
      | some (path, entry) => return tree.put path entry
      | none => return tree

def environment : List String → IO (List (String × String))
  | [] => return []
  | name :: rest => do
      let others ← environment rest
      match ← IO.getEnv name with
      | some value => return (name, value) :: others
      | none => return others

/-- The session of this process. -/
def observe : IO Session := do
  let environment ← environment
    [Settings.policyVariable, Settings.layoutVariable, Settings.limitVariable]
  match ← IO.currentDir.toBaseIO with
  | .error _ => return { Session.start .empty [] environment with directory := none }
  | .ok current =>
      let directory := Path.ofText current.toString
      return .start (← candidates directory.upward) (.ofPath directory) environment

/-- The words of this program. -/
def wording : Wording where
  noFile _ path := s!"There is no file {path}."
  noText _ := "The file is no text."
  noSettings _ := "The file is no TOML document, or a setting has a malformed value."

/-- Shows what a process has written, as far as the console takes it. -/
def present (ending : Ending) : IO Unit := do
  IO.print ending.stdout
  IO.eprint ending.stderr
  (← IO.getStdout).flush

/-- A run writes one line. When the console does not take it, the run is that on a console which
refuses its first line. -/
def perform (session : Session) : IO Nat := do
  let ending := session.runCommand wording .working
  match ← (present ending).toBaseIO with
  | .ok () => return ending.status
  | .error refusal =>
      let console : Console := fun number line =>
        if number = 0 then ⟨"", .error refusal.toString⟩ else Console.working number line
      let ending := session.runCommand wording console
      match ← (present ending).toBaseIO with
      | .ok () => return ending.status
      | .error _ => return Ending.abnormal

end CommandLine

end GridCopy

def main : IO UInt32 := do
  let session ← GridCopy.CommandLine.observe
  return UInt32.ofNat (← GridCopy.CommandLine.perform session)
