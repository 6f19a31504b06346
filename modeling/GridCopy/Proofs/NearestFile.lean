import Mathlib.Logic.ExistsUnique
import GridCopy.Proofs.Loading

/-!
# The settings file that counts

A session that loads its settings searches the current directory and the directories above it.
`Session.Nearest` says without a search which file counts: of the regular files of the right name,
the one with the longest path. What is loaded depends on the place and the content of this file and
on the environment, and on nothing else in the tree.

Results:
1. `Path.mem_upward`, `Path.upward_shortens`: which directories are searched, and in which order.
2. `Session.nearestFile?_eq_some_iff`, `Session.nearestFile?_eq_none_iff`: what the search finds.
3. `Session.load_accepted`, `Session.load_refused`, `Session.load_missing`: what a load makes of it.
4. `Session.settings_of_nearest_file`: all of them together.
-/

namespace GridCopy

namespace Path

variable {place path : Path}

theorem mem_upward : place ∈ path.upward ↔ place <+: path := by
  induction path generalizing place with
  | nil => rw [upward, List.mem_singleton, List.prefix_nil]
  | cons name path ih =>
      rw [upward, List.mem_append, List.mem_map, List.mem_singleton, List.prefix_cons_iff, or_comm]
      refine or_congr_right ⟨?_, ?_⟩
      · rintro ⟨rest, member, rfl⟩
        exact ⟨rest, rfl, ih.mp member⟩
      · rintro ⟨rest, rfl, before⟩
        exact ⟨rest, ih.mpr before, rfl⟩

/-- The directories come nearest first. -/
theorem upward_shortens (path : Path) :
    path.upward.Pairwise fun nearer farther => farther.length < nearer.length := by
  induction path with
  | nil => exact List.pairwise_singleton _ _
  | cons name path ih =>
      refine List.pairwise_append.mpr ⟨?_, List.pairwise_singleton _ _, ?_⟩
      · exact List.pairwise_map.mpr (ih.imp Nat.succ_lt_succ)
      · intro nearer member farther last
        obtain ⟨rest, -, rfl⟩ := List.mem_map.mp member
        cases List.mem_singleton.mp last
        exact Nat.succ_pos rest.length

end Path

namespace FileTree

variable {tree : FileTree} {path : Path} {content : ByteArray}

theorem file?_eq_some_iff :
    tree.file? path = some content ↔ tree.find? path = some (.file content) := by
  unfold file?
  split
  · next held => rw [held, Option.some.injEq, Option.some.injEq, FileEntry.file.injEq]
  · next other =>
      constructor
      · intro found
        cases found
      · intro held
        exact absurd held (other content)

end FileTree

namespace Session

/-- Of the directory and all directories above it, the one at `place` is the nearest that has a
regular file for settings, and this file holds `content`. -/
structure Nearest (tree : FileTree) (directory place : Path) (content : ByteArray) : Prop where
  above : place <+: directory
  held : tree.find? (place ++ [settingsFile]) = some (.file content)
  first : ∀ nearer, nearer <+: directory → place.length < nearer.length →
    ∀ other, tree.find? (nearer ++ [settingsFile]) ≠ some (.file other)

/-- Neither the directory nor any directory above it has a regular file for settings. -/
def Missing (tree : FileTree) (directory : Path) : Prop :=
  ∀ place, place <+: directory →
    ∀ content, tree.find? (place ++ [settingsFile]) ≠ some (.file content)

variable {tree : FileTree} {directory place path : Path} {content : ByteArray}

/-! ## The search -/

theorem nearestFile?_eq_some_iff :
    nearestFile? tree directory = some (path, content) ↔
      ∃ place, path = place ++ [settingsFile] ∧ Nearest tree directory place content := by
  unfold nearestFile?
  rw [List.findSome?_eq_some_iff]
  constructor
  · rintro ⟨before, place, after, listed, found, passed⟩
    obtain ⟨_, held, same⟩ := Option.map_eq_some_iff.mp found
    cases same
    have searched : place ∈ directory.upward := listed ▸ List.mem_append_right _ List.mem_cons_self
    have ordered := directory.upward_shortens
    rw [listed, List.pairwise_append] at ordered
    refine ⟨place, rfl, Path.mem_upward.mp searched, FileTree.file?_eq_some_iff.mp held, ?_⟩
    intro nearer within longer other shadow
    have member := Path.mem_upward.mpr within
    rw [listed, List.mem_append, List.mem_cons] at member
    rcases member with earlier | rfl | later
    · have absent := passed nearer earlier
      rw [FileTree.file?_eq_some_iff.mpr shadow] at absent
      cases absent
    · exact Nat.lt_irrefl _ longer
    · have shorter := (List.pairwise_cons.mp ordered.2.1).1 nearer later
      exact Nat.lt_asymm shorter longer
  · rintro ⟨place, rfl, nearest⟩
    obtain ⟨before, after, listed⟩ := List.append_of_mem (Path.mem_upward.mpr nearest.above)
    have ordered := directory.upward_shortens
    rw [listed, List.pairwise_append] at ordered
    refine ⟨before, place, after, listed, ?_, ?_⟩
    · rw [FileTree.file?_eq_some_iff.mpr nearest.held]
      rfl
    · intro nearer earlier
      have within : nearer <+: directory :=
        Path.mem_upward.mp (listed ▸ List.mem_append_left _ earlier)
      have longer : place.length < nearer.length :=
        ordered.2.2 nearer earlier place List.mem_cons_self
      rw [Option.map_eq_none_iff, Option.eq_none_iff_forall_ne_some]
      intro other shadow
      exact nearest.first nearer within longer other (FileTree.file?_eq_some_iff.mp shadow)

theorem nearestFile?_eq_none_iff : nearestFile? tree directory = none ↔ Missing tree directory := by
  unfold nearestFile?
  rw [List.findSome?_eq_none_iff]
  constructor
  · intro passed place within content held
    have absent := passed place (Path.mem_upward.mpr within)
    rw [FileTree.file?_eq_some_iff.mpr held] at absent
    cases absent
  · intro missing place searched
    rw [Option.map_eq_none_iff, Option.eq_none_iff_forall_ne_some]
    intro content held
    exact missing place (Path.mem_upward.mp searched) content (FileTree.file?_eq_some_iff.mp held)

theorem Nearest.found (nearest : Nearest tree directory place content) :
    nearestFile? tree directory = some (place ++ [settingsFile], content) :=
  nearestFile?_eq_some_iff.mpr ⟨place, rfl, nearest⟩

/-- There is one nearest file, or none at all. -/
theorem nearest_or_missing (tree : FileTree) (directory : Path) :
    (∃! file : Path × ByteArray, Nearest tree directory file.1 file.2) ∨
      Missing tree directory := by
  cases searched : nearestFile? tree directory with
  | none => exact .inr (nearestFile?_eq_none_iff.mp searched)
  | some file =>
      obtain ⟨path, content⟩ := file
      obtain ⟨place, -, nearest⟩ := nearestFile?_eq_some_iff.mp searched
      refine .inl ⟨(place, content), nearest, ?_⟩
      rintro ⟨other, text⟩ rival
      have same := Option.some.inj (rival.found.symm.trans nearest.found)
      rw [Prod.mk.injEq, List.append_left_inj] at same
      exact Prod.ext same.1 same.2

/-- The search finds the same in trees with the same nearest file. -/
theorem nearestFile?_congr {other : FileTree}
    (agree : ∀ place content,
      Nearest tree directory place content ↔ Nearest other directory place content) :
    nearestFile? tree directory = nearestFile? other directory := by
  apply Option.ext
  rintro ⟨path, content⟩
  rw [nearestFile?_eq_some_iff, nearestFile?_eq_some_iff]
  exact exists_congr fun place => and_congr_right fun _ => agree place content

/-! ## What a load makes of the file -/

variable {wording : Wording} {environment : List (String × String)} {loaded : Option Settings}
  {settings : Settings} {text : String}

theorem decode_accepted (readable : String.fromUTF8? content = some text)
    (accepted : Settings.ofToml wording.noSettings text = .ok settings) :
    decode wording content = .ok settings := by
  unfold decode
  rw [readable]
  exact accepted

theorem decode_unreadable (unreadable : String.fromUTF8? content = none) :
    decode wording content = .error (.config (wording.noText content)) := by
  unfold decode
  rw [unreadable]

theorem decode_rejected (readable : String.fromUTF8? content = some text) {error : CopyError}
    (rejected : Settings.ofToml wording.noSettings text = .error error) :
    decode wording content = .error (.config (wording.noSettings text)) := by
  unfold decode
  rw [readable]
  exact (Settings.ofToml_error_iff.mp rejected).2 ▸ rejected

/-- What a session logs when it reads the settings file of the directory at `place`. -/
def reading (place : Path) : Event :=
  .log .debug s!"Loading harness config from {(place ++ [settingsFile]).text}"

theorem load_accepted (nearest : Nearest tree directory place content)
    (accepted : decode wording content = .ok settings) :
    let session : Session := ⟨tree, some directory, environment, loaded⟩
    session.load wording =
      ⟨reading place :: (settings.overrideFrom session.valueOf).events,
        (settings.overrideFrom session.valueOf).result⟩ := by
  simp only [load, fromDirectory, nearest.found, accepted, Recorded.log_bind]
  rfl

theorem load_refused (nearest : Nearest tree directory place content) {error : CopyError}
    (refused : decode wording content = .error error) :
    let session : Session := ⟨tree, some directory, environment, loaded⟩
    session.load wording = ⟨[reading place], refuse error⟩ := by
  simp only [load, fromDirectory, nearest.found, refused, Recorded.log_bind]
  rfl

theorem load_missing (missing : Missing tree directory) :
    let session : Session := ⟨tree, some directory, environment, loaded⟩
    session.load wording = Settings.standard.overrideFrom session.valueOf := by
  simp only [load, fromDirectory, nearestFile?_eq_none_iff.mpr missing, pure_bind]

theorem load_lost {session : Session} (lost : session.directory = none) :
    session.load wording = Settings.standard.overrideFrom session.valueOf := by
  simp only [load, fromDirectory, lost, pure_bind]

theorem load_congr {other : FileTree}
    (agree : nearestFile? tree directory = nearestFile? other directory) :
    (⟨tree, some directory, environment, loaded⟩ : Session).load wording =
      (⟨other, some directory, environment, loaded⟩ : Session).load wording := by
  simp only [load, fromDirectory, agree]
  rfl

/-- A current directory that is removed, alone or with a directory above it, is lost. -/
theorem directory_remove {session : Session} (current : session.directory = some directory)
    {removed : Path} (inside : removed <+: directory) :
    (session.remove removed).directory = none := by
  change session.directory.filter (!removed.isPrefixOf ·) = none
  rw [current, Option.filter_some, List.isPrefixOf_iff_prefix.mpr inside]
  rfl

/-- The settings of a session that has none loaded. They are those of the nearest regular file of
the right name, overridden from the environment, and reading this file is logged. If the file is no
text or holds no settings, it is refused, whatever the environment and the directories farther up
hold. Without such a file, or in a directory that is gone, the standard settings are overridden.
Trees with the same nearest file give the same settings and the same log. -/
theorem settings_of_nearest_file (wording : Wording) (tree : FileTree) (directory : Path)
    (environment : List (String × String)) :
    let session : Session := ⟨tree, some directory, environment, none⟩
    let given := (session.settings wording).1
    let overridden (settings : Settings) := settings.overrideFrom session.valueOf
    ((∃! file : Path × ByteArray, Nearest tree directory file.1 file.2) ∨
        Missing tree directory) ∧
      (∀ place content, Nearest tree directory place content →
        (∀ text settings, String.fromUTF8? content = some text →
          Settings.ofToml wording.noSettings text = .ok settings →
            given =
              ⟨reading place :: (overridden settings).events, (overridden settings).result⟩) ∧
        (String.fromUTF8? content = none →
          given = ⟨[reading place], refuse (.config (wording.noText content))⟩) ∧
        ∀ text error, String.fromUTF8? content = some text →
          Settings.ofToml wording.noSettings text = .error error →
            given = ⟨[reading place], refuse (.config (wording.noSettings text))⟩) ∧
      (Missing tree directory → given = overridden .standard) ∧
      (({ session with directory := none }.settings wording).1 = overridden .standard ∧
        ∀ removed, removed <+: directory →
          ((session.remove removed).settings wording).1 = overridden .standard) ∧
      ∀ other : FileTree,
        (∀ place content,
          Nearest tree directory place content ↔ Nearest other directory place content) →
        ({ session with tree := other }.settings wording).1 = given := by
  intro session given overridden
  have loads : given = session.load wording := settings_of_unloaded wording rfl
  refine ⟨nearest_or_missing tree directory, ?_, ?_, ?_, ?_⟩
  · intro place content nearest
    rw [loads]
    refine ⟨?_, ?_, ?_⟩
    · intro text settings readable accepted
      exact load_accepted nearest (decode_accepted readable accepted)
    · intro unreadable
      exact load_refused nearest (decode_unreadable unreadable)
    · intro text error readable rejected
      exact load_refused nearest (decode_rejected readable rejected)
  · intro missing
    rw [loads]
    exact load_missing missing
  · rw [settings_of_unloaded wording rfl]
    refine ⟨load_lost rfl, ?_⟩
    intro removed inside
    have lost : (session.remove removed).directory = none := directory_remove rfl inside
    rw [settings_of_unloaded wording rfl]
    exact load_lost lost
  · intro other agree
    rw [loads, settings_of_unloaded wording rfl]
    exact load_congr (nearestFile?_congr agree).symm

/-- A directory of the right name is passed over, and the broken file at the root is not read. -/
theorem settings_of_nearest_file_passed_over :
    let tree : FileTree :=
      ⟨[(["a", "b", settingsFile], .directory),
        (["a", settingsFile], .file "policy = 'both'".toUTF8),
        ([settingsFile], .file "policy = 3".toUTF8)]⟩
    let session : Session := ⟨tree, some ["a", "b"], [(Settings.limitVariable, "+3")], none⟩
    let wording : Wording := ⟨fun _ _ => "no file", fun _ => "no text", fun _ => "no settings"⟩
    Nearest tree ["a", "b"] ["a"] "policy = 'both'".toUTF8 ∧
      (session.settings wording).1 =
        ⟨[.log .debug "Loading harness config from /a/tiled-copy.toml"],
          .ok { Settings.standard with policy := .both, errorLimit := 3 }⟩ := by
  intro tree session wording
  have nearest : Nearest tree ["a", "b"] ["a"] "policy = 'both'".toUTF8 := by
    refine ⟨⟨["b"], rfl⟩, rfl, ?_⟩
    intro nearer within longer other shadow
    have same : nearer = ["a", "b"] := within.eq_of_length_le longer
    rw [same] at shadow
    cases shadow
  have readable : String.fromUTF8? "policy = 'both'".toUTF8 = some "policy = 'both'" := by
    decide +kernel
  have accepted : Settings.ofToml wording.noSettings "policy = 'both'" =
      .ok { Settings.standard with policy := .both } :=
    Settings.ofToml_ok_iff.mpr (by decide +kernel)
  obtain ⟨-, read, -⟩ :=
    settings_of_nearest_file wording tree ["a", "b"] [(Settings.limitVariable, "+3")]
  exact ⟨nearest, (read _ _ nearest).1 _ _ readable accepted⟩

end Session

end GridCopy
