import GridCopy.Proofs.History

/-!
# File trees stay trees

Nothing stands below a file, and nothing stands in a directory that is not there: a tree with this
property is closed. Putting and removing entries keeps a tree closed, and putting an entry keeps every
directory, so the current directory of a process is a directory of its tree until it is removed.

Results:
1. `FileTree.find?_makeDirectory`, `FileTree.find?_place?`, `FileTree.find?_remove`: what stands where
   after an operation.
2. `FileTree.Closed.putAt`, `FileTree.Closed.remove`: operations keep trees closed.
3. `Session.Standing.change`, `Session.Standing.performAll`: so do histories of a process.
-/

namespace GridCopy

theorem lookup_filter {α : Type} (keep : Path → Bool) (entries : List (Path × α)) (path : Path) :
    (entries.filter fun entry => keep entry.1).lookup path =
      if keep path then entries.lookup path else none := by
  induction entries with
  | nil => simp
  | cons entry rest ih =>
      obtain ⟨place, value⟩ := entry
      by_cases here : path = place
      · subst here
        cases kept : keep path with
        | true => simp [kept]
        | false => simp [kept, ih]
      · have passed : (path == place) = false := beq_eq_false_iff_ne.mpr here
        cases kept : keep place with
        | true => simp [List.lookup_cons, kept, passed, ih]
        | false => simp [List.lookup_cons, kept, passed, ih]

theorem not_isPrefixOf_iff {path other : Path} :
    (!path.isPrefixOf other) = true ↔ ¬ path <+: other := by
  rw [Bool.not_eq_true', Bool.eq_false_iff, ne_eq, List.isPrefixOf_iff_prefix]

namespace FileTree

variable {tree next : FileTree} {path other : Path} {content : ByteArray}

theorem isDirectory_iff : tree.isDirectory path = true ↔ tree.find? path = some .directory := by
  unfold isDirectory
  split
  · next found => exact iff_of_true rfl found
  · next absent => exact iff_of_false Bool.false_ne_true absent

theorem find?_of_ne_nil (below : path ≠ []) : tree.find? path = tree.entries.lookup path :=
  if_neg (by simpa using below)

/-! ## What stands where -/

/-- A new entry below the root stands before the old ones. -/
theorem find?_insert (below : path ≠ []) (entry : FileEntry) (entries : List (Path × FileEntry))
    (other : Path) :
    find? ⟨(path, entry) :: entries⟩ other =
      if other = path then some entry else find? ⟨entries⟩ other := by
  by_cases here : other = path
  · subst here
    rw [find?_of_ne_nil below, if_pos rfl]
    exact List.lookup_cons_self
  · rw [if_neg here]
    by_cases root : other = []
    · subst root
      rfl
    · rw [find?_of_ne_nil root, find?_of_ne_nil root, List.lookup_cons, beq_eq_false_iff_ne.mpr here]

/-- Keeping the entries at some paths leaves the root and what stands at these paths. -/
theorem find?_filter (keep : Path → Bool) (tree : FileTree) (other : Path) :
    find? ⟨tree.entries.filter fun entry => keep entry.1⟩ other =
      if other = [] ∨ keep other then tree.find? other else none := by
  by_cases root : other = []
  · subst root
    rw [if_pos (.inl rfl)]
    rfl
  · simp only [find?_of_ne_nil root, lookup_filter, root, false_or]

theorem find?_makeDirectory (tree : FileTree) (path other : Path) :
    (tree.makeDirectory path).find? other =
      if other = path then some ((tree.find? path).getD .directory) else tree.find? other := by
  unfold makeDirectory
  cases found : tree.find? path with
  | some entry =>
      by_cases here : other = path
      · rw [if_pos here, here, found]
        rfl
      · rw [if_neg here]
  | none =>
      have below : path ≠ [] := by
        rintro rfl
        cases found
      exact find?_insert below .directory tree.entries other

theorem find?_place? (placed : tree.place? path (.file content) = some next) (other : Path) :
    tree.isDirectory path = false ∧
      next.find? other = if other = path then some (.file content) else tree.find? other := by
  rw [place?] at placed
  split at placed
  · cases placed
  · next free =>
      cases placed
      have below : path ≠ [] := by
        rintro rfl
        exact free rfl
      refine ⟨eq_false_of_ne_true free, ?_⟩
      rw [find?_insert below]
      by_cases here : other = path
      · rw [if_pos here, if_pos here]
      · rw [if_neg here, if_neg here]
        refine (find?_filter (· != path) tree other).trans ?_
        rw [if_pos (.inr (bne_iff_ne.mpr here))]

theorem find?_remove (tree : FileTree) (path other : Path) :
    (tree.remove path).find? other =
      if path <+: other ∧ other ≠ [] then none else tree.find? other := by
  refine (find?_filter (!path.isPrefixOf ·) tree other).trans ?_
  by_cases root : other = []
  · rw [if_pos (.inl root), if_neg fun removed => removed.2 root]
  · by_cases below : path <+: other
    · have dropped : ¬ (other = [] ∨ (!path.isPrefixOf other) = true) := by
        rintro (top | kept)
        · exact root top
        · exact not_isPrefixOf_iff.mp kept below
      rw [if_neg dropped, if_pos ⟨below, root⟩]
    · rw [if_pos (.inr (not_isPrefixOf_iff.mpr below)), if_neg fun removed => below removed.1]

/-! ## Closed trees -/

/-- What stands in a directory stands in one that is there. -/
def Closed (tree : FileTree) : Prop :=
  ∀ path name, tree.find? (path ++ [name]) ≠ none → tree.isDirectory path = true

/-- Every directory of one tree is one of the other. -/
def Keeps (tree next : FileTree) : Prop :=
  ∀ path, tree.isDirectory path = true → next.isDirectory path = true

/-- A path at which something may be put: its directory is there. -/
def Reached (tree : FileTree) (path : Path) : Prop :=
  path = [] ∨ tree.isDirectory path.dropLast = true

theorem Reached.parent {name : String} (reached : tree.Reached (path ++ [name])) :
    tree.isDirectory path = true := by
  rcases reached with root | parent
  · exact absurd root (List.append_ne_nil_of_right_ne_nil path (List.cons_ne_nil name []))
  · rwa [List.dropLast_concat] at parent

theorem Keeps.reached (keeps : tree.Keeps next) (reached : tree.Reached path) :
    next.Reached path :=
  reached.imp_right (keeps _)

theorem closed_empty : Closed empty := by
  intro path name stands
  have below : path ++ [name] ≠ [] :=
    List.append_ne_nil_of_right_ne_nil path (List.cons_ne_nil name [])
  exact absurd (find?_of_ne_nil below) stands

theorem makeDirectory_keeps (tree : FileTree) (path : Path) :
    tree.Keeps (tree.makeDirectory path) := by
  intro other directory
  rw [isDirectory_iff, find?_makeDirectory]
  rw [isDirectory_iff] at directory
  by_cases here : other = path
  · rw [if_pos here, ← here, directory]
    rfl
  · rw [if_neg here, directory]

namespace Closed

theorem reached (closed : tree.Closed) (directory : tree.isDirectory path = true) :
    tree.Reached path := by
  rcases List.eq_nil_or_concat' path with rfl | ⟨above, name, rfl⟩
  · exact .inl rfl
  · refine .inr ?_
    rw [List.dropLast_concat]
    refine closed above name ?_
    rw [isDirectory_iff.mp directory]
    exact Option.some_ne_none _

/-- Where a tree differs from a closed one in a single place that is reached, and no directory is
lost, it is closed. -/
theorem extend (closed : tree.Closed) (keeps : tree.Keeps next) (reached : tree.Reached path)
    (same : ∀ other, other ≠ path → next.find? other = tree.find? other) : next.Closed := by
  intro above name stands
  by_cases here : above ++ [name] = path
  · subst here
    exact keeps above reached.parent
  · rw [same _ here] at stands
    exact keeps above (closed above name stands)

theorem makeDirectory (closed : tree.Closed) (reached : tree.Reached path) :
    (tree.makeDirectory path).Closed :=
  closed.extend (tree.makeDirectory_keeps path) reached fun other apart => by
    rw [find?_makeDirectory, if_neg apart]

theorem place? (closed : tree.Closed) (reached : tree.Reached path) {entry : FileEntry}
    (placed : tree.place? path entry = some next) : next.Closed ∧ tree.Keeps next := by
  cases entry with
  | directory =>
      obtain ⟨-, last⟩ := Option.ite_none_right_eq_some.mp placed
      cases last
      exact ⟨closed.makeDirectory reached, tree.makeDirectory_keeps path⟩
  | file content =>
      have keeps : tree.Keeps next := by
        intro other directory
        obtain ⟨free, found⟩ := find?_place? placed other
        have apart : other ≠ path := by
          rintro rfl
          exact Bool.false_ne_true (free.symm.trans directory)
        rw [isDirectory_iff, found, if_neg apart]
        exact isDirectory_iff.mp directory
      refine ⟨closed.extend keeps reached fun other apart => ?_, keeps⟩
      rw [(find?_place? placed other).2, if_neg apart]

/-- A step leads from a directory to a place that is reached. -/
theorem step? (closed : tree.Closed) {step : Step} (led : tree.step? path step = some other) :
    tree.Reached other := by
  obtain ⟨directory, led⟩ := Option.ite_none_right_eq_some.mp led
  cases step with
  | stay =>
      cases led
      exact closed.reached directory
  | up =>
      obtain ⟨below, last⟩ := Option.ite_none_left_eq_some.mp led
      cases last
      rcases closed.reached directory with root | parent
      · exact absurd (List.isEmpty_iff.mpr root) below
      · exact closed.reached parent
  | down name =>
      cases led
      refine .inr ?_
      rwa [List.dropLast_concat]

/-- The directories on the way are made one after another, each in one that is there. -/
theorem makeWay? (closed : tree.Closed) (reached : tree.Reached path) {route : Route}
    (made : tree.makeWay? path route = some (next, other)) :
    next.Closed ∧ tree.Keeps next ∧ next.Reached other := by
  induction route generalizing tree path with
  | nil =>
      cases made
      exact ⟨closed, fun _ directory => directory, reached⟩
  | cons step route ih =>
      obtain ⟨place, led, made⟩ := Option.bind_eq_some_iff.mp made
      have closedHere := closed.makeDirectory reached
      obtain ⟨closedLast, keeps, reachedLast⟩ := ih closedHere (closedHere.step? led) made
      exact ⟨closedLast, fun above directory =>
        keeps above (tree.makeDirectory_keeps path above directory), reachedLast⟩

/-- Putting an entry anywhere keeps a tree closed, and loses no directory. -/
theorem putAt (closed : tree.Closed) (route : Route) (entry : FileEntry) :
    (tree.putAt route entry).Closed ∧ tree.Keeps (tree.putAt route entry) := by
  unfold FileTree.putAt
  cases way : tree.makeWay? [] route with
  | none => exact ⟨closed, fun _ directory => directory⟩
  | some found =>
      obtain ⟨made, path⟩ := found
      obtain ⟨closedMade, keeps, reached⟩ := closed.makeWay? (.inl rfl) way
      change ((made.place? path entry).getD tree).Closed ∧
        tree.Keeps ((made.place? path entry).getD tree)
      cases placed : made.place? path entry with
      | none => exact ⟨closed, fun _ directory => directory⟩
      | some next =>
          obtain ⟨closedNext, keepsNext⟩ := closedMade.place? reached placed
          exact ⟨closedNext, fun above directory => keepsNext above (keeps above directory)⟩

theorem remove (closed : tree.Closed) (path : Path) : (tree.remove path).Closed := by
  intro above name stands
  rw [find?_remove] at stands
  split at stands
  · exact absurd rfl stands
  · next apart =>
      rw [isDirectory_iff, find?_remove, if_neg]
      · exact isDirectory_iff.mp (closed above name stands)
      · rintro ⟨below, -⟩
        exact apart ⟨below.trans (List.prefix_append _ _),
          List.append_ne_nil_of_right_ne_nil above (List.cons_ne_nil name [])⟩

end Closed

end FileTree

namespace Session

/-- The files of a session form a tree, and its current directory is one of its directories, unless
it is lost. -/
structure Standing (session : Session) : Prop where
  closed : session.tree.Closed
  current : ∀ directory, session.directory = some directory →
    session.tree.isDirectory directory = true

namespace Standing

variable {session : Session}

theorem enter (standing : session.Standing) (path : Path) : (session.enter path).Standing := by
  unfold Session.enter
  split
  · next there =>
      refine ⟨standing.closed, ?_⟩
      intro directory now
      cases now
      exact there
  · exact standing

theorem remove (standing : session.Standing) (path : Path) : (session.remove path).Standing := by
  refine ⟨standing.closed.remove path, ?_⟩
  intro directory now
  obtain ⟨before, outside⟩ := Option.filter_eq_some_iff.mp now
  rw [FileTree.isDirectory_iff]
  refine (FileTree.find?_remove ..).trans ?_
  rw [if_neg fun removed => not_isPrefixOf_iff.mp outside removed.1]
  exact FileTree.isDirectory_iff.mp (standing.current directory before)

theorem change (standing : session.Standing) (change : Change) :
    (session.change change).Standing := by
  cases change with
  | put route entry =>
      obtain ⟨closed, keeps⟩ := standing.closed.putAt route entry
      exact ⟨closed, fun directory now => keeps directory (standing.current directory now)⟩
  | remove route =>
      rw [Session.change]
      cases session.tree.follow? [] route with
      | none => exact standing
      | some path => exact standing.remove path
  | enter route =>
      rw [Session.change]
      cases session.tree.follow? [] route with
      | none => exact standing
      | some path => exact standing.enter path
  | set name value => exact ⟨standing.closed, standing.current⟩

theorem changeAll (standing : session.Standing) (changes : List Change) :
    (session.changeAll changes).Standing := by
  induction changes generalizing session with
  | nil => exact standing
  | cons change rest ih => exact ih (standing.change change)

/-- A process starts in a directory that has been made for it. -/
theorem start {tree : FileTree} (closed : tree.Closed) (route : Route)
    (environment : List (String × String)) : (Session.start tree route environment).Standing := by
  unfold Session.start
  cases way : tree.makeWay? [] route with
  | none => exact ⟨closed, fun _ lost => nomatch lost⟩
  | some found =>
      obtain ⟨made, path⟩ := found
      obtain ⟨closedMade, -, reached⟩ := closed.makeWay? (.inl rfl) way
      refine enter ⟨closedMade.makeDirectory reached, ?_⟩ path
      intro directory lost
      cases lost

/-- Whatever happens to a process, its files form a tree, and its current directory stands in it
until it is removed. -/
theorem performAll (standing : session.Standing) (wording : Wording) (actions : List Action) :
    (session.performAll wording actions).Standing := by
  have placed := session.afresh_performAll wording actions
  have afresh : session.afresh.Standing := ⟨standing.closed, standing.current⟩
  obtain ⟨closed, current⟩ : (session.performAll wording actions).afresh.Standing :=
    placed ▸ afresh.changeAll _
  exact ⟨closed, current⟩

end Standing

end Session

end GridCopy
