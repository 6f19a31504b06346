/-!
# File trees

Files and directories by their paths from the root. The root itself always exists. A path as it is
written is a route: it is followed step by step, so that each step but the last has to end at a
directory.
-/

namespace GridCopy

/-- The names from the root down. -/
abbrev Path := List String

namespace Path

/-- The path with the names between slashes. -/
def ofText (text : String) : Path := (text.splitOn "/").filter (· ≠ "")

def text (path : Path) : String := String.join (path.map ("/" ++ ·))

/-- The path and all directories above it, the root last. -/
def upward : Path → List Path
  | [] => [[]]
  | name :: path => (upward path).map (name :: ·) ++ [[]]

example : upward ["a", "b"] = [["a", "b"], ["a"], []] := by decide

end Path

/-- A step from a directory. -/
inductive Step
  /-- A single dot, or nothing between two slashes. -/
  | stay
  /-- Two dots. -/
  | up
  | down (name : String)
deriving DecidableEq, Repr

/-- The steps from the root to a place. -/
abbrev Route := List Step

namespace Step

def ofText : String → Step
  | "" | "." => .stay
  | ".." => .up
  | name => .down name

end Step

namespace Route

/-- The steps between slashes. A slash at the end is a step of its own, which only a directory
allows; one at the start is the root. -/
def ofText (text : String) : Route := (text.splitOn "/").map Step.ofText

/-- The route that names each directory on its way. -/
def ofPath (path : Path) : Route := path.map .down

end Route

/-- What stands at a path. -/
inductive FileEntry
  | file (content : ByteArray)
  | directory

structure FileTree where
  entries : List (Path × FileEntry)

namespace FileTree

def empty : FileTree := ⟨[]⟩

def find? (tree : FileTree) (path : Path) : Option FileEntry :=
  if path.isEmpty then some .directory else tree.entries.lookup path

def isDirectory (tree : FileTree) (path : Path) : Bool :=
  match tree.find? path with
  | some .directory => true
  | _ => false

/-- Makes a directory at a path that nothing stands at yet. -/
def makeDirectory (tree : FileTree) (path : Path) : FileTree :=
  match tree.find? path with
  | some _ => tree
  | none => ⟨(path, .directory) :: tree.entries⟩

/-- Puts an entry at a path whose directory is there. A file takes the place of another file, but no
file that of a directory and no directory that of a file. A directory that is there stays as it
is. -/
def place? (tree : FileTree) (path : Path) : FileEntry → Option FileTree
  | .directory =>
      let made := tree.makeDirectory path
      if made.isDirectory path then some made else none
  | .file content =>
      if tree.isDirectory path then none
      else some ⟨(path, .file content) :: tree.entries.filter (·.1 != path)⟩

/-- Removes what stands at a path and everything below it. -/
def remove (tree : FileTree) (path : Path) : FileTree :=
  ⟨tree.entries.filter fun (place, _) => !path.isPrefixOf place⟩

/-- The content of the regular file at a path. -/
def file? (tree : FileTree) (path : Path) : Option ByteArray :=
  match tree.find? path with
  | some (.file content) => some content
  | _ => none

/-- Where a step leads. It starts at a directory, and nothing lies above the root. -/
def step? (tree : FileTree) (path : Path) (step : Step) : Option Path :=
  if tree.isDirectory path then
    match step with
    | .stay => some path
    | .up => if path.isEmpty then none else some path.dropLast
    | .down name => some (path ++ [name])
  else
    none

/-- Where the steps lead that start at a path. Nothing has to stand there. -/
def follow? (tree : FileTree) (path : Path) : Route → Option Path
  | [] => some path
  | step :: route => do tree.follow? (← tree.step? path step) route

/-- Follows steps from a path and makes every directory that one of them starts at. -/
def makeWay? (tree : FileTree) (path : Path) : Route → Option (FileTree × Path)
  | [] => some (tree, path)
  | step :: route => do
      let made := tree.makeDirectory path
      made.makeWay? (← made.step? path step) route

/-- Puts an entry at the end of a route, with all directories on the way there. Nothing changes when
the route leads nowhere or the entry cannot be put there. -/
def putAt (tree : FileTree) (route : Route) (entry : FileEntry) : FileTree :=
  match tree.makeWay? [] route with
  | some (made, path) => (made.place? path entry).getD tree
  | none => tree

/-- Puts an entry at a path, with all directories above it. -/
def put (tree : FileTree) (path : Path) (entry : FileEntry) : FileTree :=
  tree.putAt (.ofPath path) entry

example : (empty.put ["a", "c"] (.file .empty)).follow? [] [.stay, .down "a", .stay, .down "c"]
    = some ["a", "c"] := by decide

example : (empty.put ["a", "c"] (.file .empty)).follow? [] [.down "a", .down "c", .stay]
    = none := by decide

example : (empty.put ["a", "c"] (.file .empty)).follow? [] [.down "b", .up, .down "a"]
    = none := by decide

example : ((empty.put ["a", "c"] (.file .empty)).put ["a"] (.file .empty)).isDirectory ["a"]
    = true := by decide

/-- The content of the regular file at a path as it is written. One that starts with a slash does
not start in the tree. -/
def fileAt? (tree : FileTree) (text : String) : Option ByteArray :=
  if text.startsWith "/" then none else (tree.follow? [] (.ofText text)).bind tree.file?

end FileTree

end GridCopy
