import GridCopy.Fragment

/-!
# Staging

Workers that share a source and a destination and copy through private fragments. Each worker
runs a program of moves; a trace says which worker makes the next move. A trace interleaves
programs when every worker makes exactly the moves of its own program, in their order, however
the workers take turns. Every copy, on the host or on a device, is a run of such workers.
-/

namespace GridCopy

/-- A move of one chunk between shared memory and a slot of the worker's fragment. -/
inductive Move
  | fetch (slot base : Nat)
  | put (slot base : Nat)
deriving DecidableEq, Repr

/-- Reads every chunk of a partition, then writes every chunk back. -/
def Partition.program (partition : Partition) : List Move :=
  (partition.chunks.zipIdx.map fun (base, slot) => Move.fetch slot base) ++
    partition.chunks.zipIdx.map fun (base, slot) => Move.put slot base

/-- Moves in the order in which they happen, each with the number of the worker that makes it. -/
abbrev Trace := List (Nat × Move)

namespace Trace

/-- The moves of one worker. -/
def movesOf (trace : Trace) (worker : Nat) : List Move :=
  (trace.filter (·.1 == worker)).map (·.2)

/-- Every worker runs its own program, in order and to the end. -/
def Interleaves (trace : Trace) (programs : List (List Move)) : Prop :=
  ∀ worker, trace.movesOf worker = programs.getD worker []

/-- The workers take their turns one after another. -/
def oneByOne (programs : List (List Move)) : Trace :=
  programs.zipIdx.flatMap fun (program, worker) => program.map (worker, ·)

theorem movesOf_append (first second : Trace) (worker : Nat) :
    (first ++ second).movesOf worker = first.movesOf worker ++ second.movesOf worker := by
  simp [movesOf]

/-- A worker that moves alone makes all the moves, and the others none. -/
theorem movesOf_alone (program : List Move) (mover worker : Nat) :
    movesOf (program.map (mover, ·)) worker = if mover = worker then program else [] := by
  induction program with
  | nil => simp [movesOf]
  | cons move rest ih =>
      by_cases same : mover = worker
      · subst same
        simp_all [movesOf]
      · simp_all [movesOf]

theorem movesOf_numbered (programs : List (List Move)) (first worker : Nat) :
    movesOf ((programs.zipIdx first).flatMap fun (program, mover) => program.map (mover, ·))
        worker =
      if worker < first then [] else programs.getD (worker - first) [] := by
  induction programs generalizing first with
  | nil => simp [movesOf]
  | cons program rest ih =>
      rw [List.zipIdx_cons, List.flatMap_cons, movesOf_append, movesOf_alone, ih]
      by_cases before : worker < first
      · have next : worker < first + 1 := by omega
        simp [before, next, Nat.ne_of_gt before]
      · by_cases same : first = worker
        · subst same
          simp
        · have after : ¬ worker < first + 1 := by omega
          obtain ⟨gap, rfl⟩ : ∃ gap, worker = first + gap + 1 := ⟨worker - first - 1, by omega⟩
          simp [same, after, show first + gap + 1 - (first + 1) = gap by omega,
            show first + gap + 1 - first = gap + 1 by omega]
          omega

/-- Taking turns one after another is one way to run the programs. -/
theorem oneByOne_interleaves (programs : List (List Move)) :
    (oneByOne programs).Interleaves programs := by
  intro worker
  simpa [oneByOne] using movesOf_numbered programs 0 worker

end Trace

/-- Decides the turns of workers when it sees their programs. -/
abbrev Schedule := List (List Move) → Trace

/-- Shared memory, the fragment of each worker, and a log of what has been written. -/
structure Staging (α : Type) where
  source : Array α
  destination : Array α
  fragments : Array (Fragment α)
  /-- The first place and the number of elements of each write to the destination, in order. No
  move looks at it. -/
  writes : Array (Nat × Nat)

namespace Staging

variable {α : Type}

/-- All fragments are empty at first, and nothing has been written. -/
def start (source destination : Array α) (workers : Nat) : Staging α :=
  ⟨source, destination, Array.replicate workers .empty, #[]⟩

/-- One move of chunks of `width` elements: whether it can be made, and the state after it. A move
that meets a fault changes nothing. -/
def step (width : Nat) : Staging α → Nat × Move → Checked Unit × Staging α
  | ⟨source, destination, fragments, writes⟩, (worker, .fetch slot base) =>
      match Fragment.readChunk source width base with
      | .error fault => (.error fault, ⟨source, destination, fragments, writes⟩)
      | .ok chunk =>
          (.ok (), ⟨source, destination, fragments.modify worker (·.fill width slot chunk), writes⟩)
  | ⟨source, destination, fragments, writes⟩, (worker, .put slot base) =>
      match (fragments.getD worker .empty).outgoing width slot base destination.size with
      | .error fault => (.error fault, ⟨source, destination, fragments, writes⟩)
      | .ok elements =>
          (.ok (), ⟨source, writeRun destination base elements, fragments,
            writes.push (base, elements.length)⟩)

/-- Makes the moves of a trace up to the first fault. -/
def run (width : Nat) : Trace → Staging α → Checked Unit × Staging α
  | [], staging => (.ok (), staging)
  | turn :: rest, staging =>
      match staging.step width turn with
      | (.ok (), next) => run width rest next
      | (.error fault, last) => (.error fault, last)

/-- The run of workers, one for each program, that take their turns on two buffers as the schedule
says. -/
def runWorkers (schedule : Schedule) (width : Nat) (programs : List (List Move))
    (source destination : Array α) : Checked Unit × Staging α :=
  (start source destination programs.length).run width (schedule programs)

end Staging

end GridCopy
