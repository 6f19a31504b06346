import GridCopy.Staging
import GridCopy.Proofs.Fragments

/-!
# Copies under every interleaving

Workers fetch their chunks and then put them back at the same places. However they take turns, each
worker's fragment and remaining moves stay in step (`Progress`), so every put writes elements of the
source to their own places. `copies_under_every_interleaving` draws the conclusion for a whole run.
-/

namespace GridCopy

namespace Trace

theorem movesOf_cons (turn : Nat × Move) (rest : Trace) (worker : Nat) :
    movesOf (turn :: rest) worker =
      if turn.1 = worker then turn.2 :: movesOf rest worker else movesOf rest worker := by
  by_cases same : turn.1 = worker <;> simp [movesOf, same]

theorem eq_nil_of_movesOf {trace : Trace} (idle : ∀ worker, trace.movesOf worker = []) :
    trace = [] := by
  cases trace with
  | nil => rfl
  | cons turn rest =>
      have moved := idle turn.1
      rw [movesOf_cons, if_pos rfl] at moved
      contradiction

/-- Leaving out one worker leaves the moves of the others. -/
theorem movesOf_without (trace : Trace) (left worker : Nat) :
    movesOf (trace.filter (!·.1 == left)) worker =
      if worker = left then [] else trace.movesOf worker := by
  induction trace with
  | nil => simp [movesOf]
  | cons turn rest ih =>
      by_cases out : turn.1 = left
      · rw [List.filter_cons_of_neg (by simp [out]), ih, movesOf_cons]
        by_cases gone : worker = left
        · simp [gone]
        · simp [gone, out, Ne.symm gone]
      · rw [List.filter_cons_of_pos (by simp [out]), movesOf_cons, movesOf_cons, ih]
        by_cases same : turn.1 = worker
        · subst same
          simp [out]
        · simp [same]

theorem perm_of_numbered (trace : Trace) (programs : List (List Move)) (first : Nat)
    (numbered : ∀ worker, trace.movesOf worker =
      if worker < first then [] else programs.getD (worker - first) []) :
    (trace.map (·.2)).Perm programs.flatten := by
  -- The moves of the first worker are taken out, and the others are numbered from the next one on.
  induction programs generalizing trace first with
  | nil =>
      have idle := eq_nil_of_movesOf fun worker => by simpa using numbered worker
      simp [idle]
  | cons program rest ih =>
      have own : (trace.filter (·.1 == first)).map (·.2) = program := by
        simpa [movesOf] using numbered first
      have others := ih (trace.filter (!·.1 == first)) (first + 1) fun worker => by
        rw [movesOf_without, numbered]
        by_cases before : worker < first
        · simp [before, Nat.lt_succ_of_lt before]
        · by_cases same : worker = first
          · simp [same]
          · obtain ⟨gap, rfl⟩ : ∃ gap, worker = first + gap + 1 := ⟨worker - first - 1, by omega⟩
            rw [if_neg same, if_neg before, if_neg (by omega),
              show first + gap + 1 - first = gap + 1 by omega,
              show first + gap + 1 - (first + 1) = gap by omega, List.getD_cons_succ]
      have split := (List.filter_append_perm (·.1 == first) trace).map (·.2)
      rw [List.map_append, own] at split
      exact split.symm.trans (List.Perm.append_left program others)

/-- An interleaving makes the moves of all programs and no others. -/
theorem Interleaves.perm {trace : Trace} {programs : List (List Move)}
    (interleaves : trace.Interleaves programs) : (trace.map (·.2)).Perm programs.flatten :=
  perm_of_numbered trace programs 0 fun worker => by simpa using interleaves worker

end Trace

/-- The first place and the number of the places that a move of whole chunks writes. -/
def Move.run? (width : Nat) : Move → Option (Nat × Nat)
  | .fetch _ _ => none
  | .put _ base => some (base, width)

theorem Partition.program_runs (partition : Partition) (width : Nat) :
    partition.program.filterMap (Move.run? width) =
      partition.chunks.map fun base => (base, width) := by
  have moves : partition.program =
      (partition.chunks.zipIdx.map fun chunk => Move.fetch chunk.2 chunk.1) ++
        partition.chunks.zipIdx.map fun chunk => Move.put chunk.2 chunk.1 := rfl
  have fetched : (partition.chunks.zipIdx.map fun chunk => Move.fetch chunk.2 chunk.1).filterMap
      (Move.run? width) = [] := by
    simp [List.filterMap_eq_nil_iff, Move.run?]
  have put : (partition.chunks.zipIdx.map fun chunk => Move.put chunk.2 chunk.1).filterMap
      (Move.run? width) = partition.chunks.map fun base => (base, width) := by
    calc
      _ = partition.chunks.zipIdx.filterMap (some ∘ (fun base => (base, width)) ∘ Prod.fst) := by
        rw [List.filterMap_map]
        rfl
      _ = partition.chunks.map fun base => (base, width) := by
        rw [List.filterMap_eq_map, ← List.map_map, List.zipIdx_map_fst]
  rw [moves, List.filterMap_append, fetched, put, List.nil_append]

theorem Partition.programs_runs (partitions : List Partition) (width : Nat) :
    (partitions.map program).flatten.filterMap (Move.run? width) =
      (partitions.flatMap chunks).map fun base => (base, width) := by
  induction partitions with
  | nil => rfl
  | cons partition rest ih => simp [program_runs, ih]

/-- The runs of places that the moves of a trace write, in order. -/
def Trace.runs (width : Nat) (trace : Trace) : List (Nat × Nat) :=
  (trace.map (·.2)).filterMap (Move.run? width)

theorem Trace.Interleaves.runs_perm {trace : Trace} {partitions : List Partition}
    (interleaves : trace.Interleaves (partitions.map Partition.program)) (width : Nat) :
    (trace.runs width).Perm ((partitions.flatMap Partition.chunks).map fun base => (base, width)) :=
  Partition.programs_runs partitions width ▸ interleaves.perm.filterMap _

namespace Staging

variable {α : Type} {width : Nat} {source : Array α}

/-- A worker on its way: what its fragment holds fits the moves that it has left. -/
inductive Progress (width : Nat) (source : Array α) (bases : List Nat) (fragment : Fragment α)
    (moves : List Move) : Prop
  /-- Some chunks are in the fragment, the others are still to be fetched. -/
  | fetching (filled left : List Nat) :
      bases = filled ++ left →
      fragment.values.toList = Fragment.contents source width filled →
      moves = ((left.zipIdx filled.length).map fun (base, slot) => Move.fetch slot base) ++
        bases.zipIdx.map (fun (base, slot) => Move.put slot base) →
      Progress width source bases fragment moves
  /-- All chunks are in the fragment, some are still to be put back. -/
  | putting (done left : List Nat) :
      bases = done ++ left →
      fragment.values.toList = Fragment.contents source width bases →
      moves = (left.zipIdx done.length).map (fun (base, slot) => Move.put slot base) →
      Progress width source bases fragment moves

namespace Progress

variable {bases : List Nat} {fragment : Fragment α} {slot base : Nat} {rest : List Move}

theorem start (width : Nat) (source : Array α) (partition : Partition) :
    Progress width source partition.chunks .empty partition.program :=
  .fetching [] partition.chunks rfl rfl rfl

theorem fetch (inside : ∀ base ∈ bases, base + width ≤ source.size)
    (progress : Progress width source bases fragment (.fetch slot base :: rest)) :
    base ∈ bases ∧
      Progress width source bases
        (fragment.fill width slot (Fragment.chunk source width base)) rest := by
  rcases progress with ⟨filled, left, rfl, holds, moves⟩ | ⟨done, left, rfl, holds, moves⟩
  · cases left with
    | nil => cases filled <;> simp at moves
    | cons next later =>
        simp only [List.zipIdx_cons, List.map_cons, List.cons_append, List.cons.injEq,
          Move.fetch.injEq] at moves
        obtain ⟨⟨rfl, rfl⟩, rfl⟩ := moves
        have before : ∀ other ∈ filled, other + width ≤ source.size :=
          fun other member => inside other (List.mem_append_left _ member)
        exact ⟨by simp, .fetching (filled ++ [base]) later (by simp)
          (Fragment.fill_next before holds) (by simp)⟩
  · cases left <;> simp at moves

theorem put (progress : Progress width source bases fragment (.put slot base :: rest)) :
    ∃ before after, bases = before ++ base :: after ∧ slot = before.length ∧
      fragment.values.toList = Fragment.contents source width bases ∧
      Progress width source bases fragment rest := by
  rcases progress with ⟨filled, left, rfl, holds, moves⟩ | ⟨done, left, rfl, holds, moves⟩
  · cases left with
    | nil =>
        cases filled with
        | nil => simp at moves
        | cons next later =>
            simp only [List.zipIdx_nil, List.map_nil, List.nil_append, List.append_nil,
              List.zipIdx_cons, List.map_cons, List.cons.injEq, Move.put.injEq] at moves holds ⊢
            obtain ⟨⟨rfl, rfl⟩, rfl⟩ := moves
            exact ⟨[], later, rfl, rfl, holds, .putting [base] later rfl holds rfl⟩
    | cons next later => simp at moves
  · cases left with
    | nil => simp at moves
    | cons next later =>
        simp only [List.zipIdx_cons, List.map_cons, List.cons.injEq, Move.put.injEq] at moves
        obtain ⟨⟨rfl, rfl⟩, rfl⟩ := moves
        exact ⟨done, later, rfl, rfl, holds, .putting (done ++ [base]) later (by simp) holds
          (by simp)⟩

end Progress

/-- The state of a run with the moves of `trace` still to come. -/
structure Staged (width : Nat) (source : Array α) (partitions : List Partition) (trace : Trace)
    (staging : Staging α) : Prop where
  sourceKept : staging.source = source
  sized : staging.destination.size = source.size
  workers : staging.fragments.size = partitions.length
  progress : ∀ worker partition, partitions[worker]? = some partition →
    Progress width source partition.chunks (staging.fragments.getD worker .empty)
      (trace.movesOf worker)
  others : ∀ worker, partitions.length ≤ worker → trace.movesOf worker = []

namespace Staged

variable {partitions : List Partition} {staging : Staging α} {trace : Trace}

theorem start {destination : Array α} (sized : destination.size = source.size)
    (interleaves : trace.Interleaves (partitions.map Partition.program)) :
    Staged width source partitions trace
      (.start source destination (partitions.map Partition.program).length) where
  sourceKept := rfl
  sized := sized
  workers := Array.size_replicate.trans (List.length_map _)
  progress := by
    intro worker partition found
    have inside := (List.getElem?_eq_some_iff.mp found).1
    rw [interleaves worker]
    simp only [List.getD_eq_getElem?_getD, List.getElem?_map, found, Option.map_some,
      Option.getD_some]
    simpa [Staging.start, Array.getD, inside] using Progress.start width source partition
  others := by
    intro worker outside
    rw [interleaves worker]
    simp [List.getD_eq_getElem?_getD, List.getElem?_map, List.getElem?_eq_none outside]

variable {worker slot base : Nat} {rest : Trace}

/-- The worker whose turn it is is one of the partitions. -/
theorem mover {turn : Nat × Move}
    (staged : Staged width source partitions (turn :: rest) staging) :
    ∃ partition, partitions[turn.1]? = some partition ∧
      Progress width source partition.chunks (staging.fragments.getD turn.1 .empty)
        (turn.2 :: Trace.movesOf rest turn.1) := by
  have moved := Trace.movesOf_cons turn rest turn.1
  rw [if_pos rfl] at moved
  by_cases inside : turn.1 < partitions.length
  · have found := List.getElem?_eq_getElem inside
    exact ⟨_, found, moved ▸ staged.progress _ _ found⟩
  · have idle := staged.others turn.1 (Nat.not_lt.mp inside)
    rw [moved] at idle
    contradiction

/-- The invariant after a turn, when the mover's progress and the others' fragments are known. -/
theorem next {turn : Nat × Move} {after : Staging α}
    (staged : Staged width source partitions (turn :: rest) staging)
    (sourceKept : after.source = source) (sized : after.destination.size = source.size)
    (workers : after.fragments.size = partitions.length)
    (moved : ∀ partition, partitions[turn.1]? = some partition →
      Progress width source partition.chunks (after.fragments.getD turn.1 .empty)
        (Trace.movesOf rest turn.1))
    (waiting : ∀ worker, turn.1 ≠ worker →
      after.fragments.getD worker .empty = staging.fragments.getD worker .empty) :
    Staged width source partitions rest after where
  sourceKept := sourceKept
  sized := sized
  workers := workers
  progress := by
    intro worker partition found
    by_cases same : turn.1 = worker
    · subst same
      exact moved partition found
    · have before := staged.progress worker partition found
      rw [Trace.movesOf_cons, if_neg same] at before
      rw [waiting worker same]
      exact before
  others := by
    intro worker outside
    have before := staged.others worker outside
    rw [Trace.movesOf_cons] at before
    split at before
    · contradiction
    · exact before

theorem step_fetch
    (inside : ∀ partition ∈ partitions, ∀ base ∈ partition.chunks, base + width ≤ source.size)
    (small : source.size < Size.bound)
    (staged : Staged width source partitions ((worker, .fetch slot base) :: rest) staging) :
    ∃ after, staging.step width (worker, .fetch slot base) = (.ok (), after) ∧
      Staged width source partitions rest after ∧ after.destination = staging.destination ∧
      after.writes = staging.writes := by
  obtain ⟨partition, found, progress⟩ := staged.mover
  have within := inside partition (List.mem_of_getElem? found)
  obtain ⟨member, moved⟩ := progress.fetch within
  have present : worker < staging.fragments.size :=
    staged.workers ▸ (List.getElem?_eq_some_iff.mp found).1
  have read := Fragment.readChunk_exact small (within base member)
  obtain ⟨kept, destination, fragments, writes⟩ := staging
  obtain rfl : kept = source := staged.sourceKept
  refine ⟨⟨kept, destination, fragments.modify worker
    (·.fill width slot (Fragment.chunk kept width base)), writes⟩, ?_, ?_, rfl, rfl⟩
  · simp only [Staging.step, read]
  · refine staged.next rfl staged.sized (by simpa using staged.workers) ?_ ?_
    · intro other same
      rw [found] at same
      cases same
      simpa [Array.getD, present, Array.getElem_modify_self] using moved
    · intro other apart
      simp only [Array.getD, Array.size_modify]
      split
      · next inBounds => exact Array.getElem_modify_of_ne apart _ _
      · rfl

theorem step_put (positive : 0 < width)
    (inside : ∀ partition ∈ partitions, ∀ base ∈ partition.chunks, base + width ≤ source.size)
    (small : source.size < Size.bound)
    (staged : Staged width source partitions ((worker, .put slot base) :: rest) staging) :
    ∃ after, staging.step width (worker, .put slot base) = (.ok (), after) ∧
      Staged width source partitions rest after ∧
      after.writes = staging.writes.push (base, width) ∧
      ∀ place, after.destination[place]? =
        if base ≤ place ∧ place < base + width then source[place]?
        else staging.destination[place]? := by
  obtain ⟨partition, found, progress⟩ := staged.mover
  have within := inside partition (List.mem_of_getElem? found)
  obtain ⟨before, after, chunks, rfl, holds, moved⟩ := progress.put
  have fits : base + width ≤ source.size := within base (by simp [chunks])
  have handed := Fragment.outgoing_exact positive (chunks ▸ within) (chunks ▸ holds) small fits
  obtain ⟨kept, destination, fragments, writes⟩ := staging
  obtain rfl : kept = source := staged.sourceKept
  have sized : destination.size = kept.size := staged.sized
  rw [← sized] at handed fits
  have whole : (Fragment.chunk kept width base).length = width :=
    Fragment.chunk_length (sized ▸ fits)
  have room : base + (Fragment.chunk kept width base).length ≤ destination.size := by
    rw [whole]
    exact fits
  refine ⟨⟨kept, writeRun destination base (Fragment.chunk kept width base), fragments,
    writes.push (base, width)⟩, ?_, ?_, rfl, ?_⟩
  · simp only [Staging.step, handed, whole]
  · refine staged.next rfl ((writeRun_size room).trans sized) staged.workers ?_ fun _ _ => rfl
    intro other same
    rw [found] at same
    cases same
    exact moved
  · exact Fragment.writeRun_chunk_getElem? (sized ▸ fits) fits

/-- A whole run: no move meets a fault, the log grows by the runs of the trace, and a place that is
written, or that held the element of the source before, holds it in the end. -/
theorem run_exact (positive : 0 < width)
    (inside : ∀ partition ∈ partitions, ∀ base ∈ partition.chunks, base + width ≤ source.size)
    (small : source.size < Size.bound) (staged : Staged width source partitions trace staging) :
    ∃ last, staging.run width trace = (.ok (), last) ∧
      Staged width source partitions [] last ∧
      last.writes.toList = staging.writes.toList ++ trace.runs width ∧
      ∀ place, (staging.destination[place]? = source[place]? ∨
          ∃ run ∈ trace.runs width, run.1 ≤ place ∧ place < run.1 + run.2) →
        last.destination[place]? = source[place]? := by
  -- On the moves still to come: each of them leaves the run staged for those after it.
  induction trace generalizing staging with
  | nil => exact ⟨staging, rfl, staged, by simp [Trace.runs], by simp [Trace.runs]⟩
  | cons turn rest ih =>
      obtain ⟨worker, move⟩ := turn
      cases move with
      | fetch slot base =>
          have runs : Trace.runs width ((worker, .fetch slot base) :: rest) =
              Trace.runs width rest := rfl
          obtain ⟨after, stepped, stagedAfter, same, quiet⟩ := staged.step_fetch inside small
          obtain ⟨last, ran, stagedLast, logged, settled⟩ := ih stagedAfter
          refine ⟨last, by simp only [Staging.run, stepped, ran], stagedLast, ?_, ?_⟩
          · rw [logged, quiet, runs]
          · rw [runs, ← same]
            exact settled
      | put slot base =>
          have runs : Trace.runs width ((worker, .put slot base) :: rest) =
              (base, width) :: Trace.runs width rest := rfl
          obtain ⟨after, stepped, stagedAfter, wrote, changed⟩ :=
            staged.step_put positive inside small
          obtain ⟨last, ran, stagedLast, logged, settled⟩ := ih stagedAfter
          refine ⟨last, by simp only [Staging.run, stepped, ran], stagedLast, ?_, ?_⟩
          · rw [logged, wrote, runs, Array.toList_push, List.append_assoc, List.singleton_append]
          · intro place reason
            apply settled
            rw [runs] at reason
            -- A place that this move writes holds its element from now on.
            by_cases covered : base ≤ place ∧ place < base + width
            · exact .inl (by rw [changed, if_pos covered])
            · rw [changed, if_neg covered]
              rcases reason with held | ⟨run, member, within⟩
              · exact .inl held
              · rcases List.mem_cons.mp member with rfl | later
                · exact absurd within covered
                · exact .inr ⟨run, later, within⟩

end Staged

/-- However the workers take turns, the run ends without a fault, leaves the source as it is, makes
the destination equal to it and writes each chunk once, provided the chunks lie inside the source
and cover it. -/
theorem copies_under_every_interleaving {partitions : List Partition} {schedule : Schedule}
    {destination : Array α} (positive : 0 < width)
    (inside : ∀ partition ∈ partitions, ∀ base ∈ partition.chunks, base + width ≤ source.size)
    (covered : ∀ place < source.size, ∃ partition ∈ partitions, ∃ base ∈ partition.chunks,
      base ≤ place ∧ place < base + width)
    (small : source.size < Size.bound) (sized : destination.size = source.size)
    (interleaves : (schedule (partitions.map Partition.program)).Interleaves
      (partitions.map Partition.program)) :
    let ran := runWorkers schedule width (partitions.map Partition.program) source destination
    ran.1 = .ok () ∧ ran.2.source = source ∧ ran.2.destination = source ∧
      ran.2.writes.toList.Perm
        ((partitions.flatMap Partition.chunks).map fun base => (base, width)) := by
  intro ran
  obtain ⟨last, ended, staged, logged, settled⟩ :=
    (Staged.start sized interleaves).run_exact positive inside small
  have chunks := interleaves.runs_perm width
  rw [show ran = (.ok (), last) from ended]
  refine ⟨rfl, staged.sourceKept, ?_, logged ▸ chunks⟩
  refine Array.ext_getElem? fun place => ?_
  by_cases within : place < source.size
  · obtain ⟨partition, listed, base, member, covering⟩ := covered place within
    refine settled place (.inr ⟨(base, width), chunks.mem_iff.mpr ?_, covering⟩)
    exact List.mem_map_of_mem (List.mem_flatMap.mpr ⟨partition, listed, member⟩)
  · have outside := Nat.not_lt.mp within
    rw [Array.getElem?_eq_none outside, Array.getElem?_eq_none (staged.sized ▸ outside)]

end Staging

end GridCopy
