import GridCopy.Staging
import GridCopy.Proofs.Fragments
import GridCopy.Proofs.Shares

/-!
# Transfers

A unit loads its partition into a fragment, which is one flat list of elements, and stores the
fragment at the same places of another buffer. Loading joins the chunks; storing cuts the list into
pieces of one width and pairs them with the chunks again. Both agree for every number of chunks and
every width, so each element comes back to its own place.

Results:
1. `Fragment.load_eq`, `Fragment.store_eq`: what is loaded and what is stored, without slots.
2. `Partition.Within.load_error_iff`: loading fails for a source that ends too early, and only then.
3. `Partition.Within.paired_gathered`, `Partition.Within.store_gathered`: a loaded fragment is stored
   chunk by chunk and changes the places of the partition only.
4. `Staging.alone_transfers`: the moves of a worker on its own are such a transfer.
5. `Plan.fragment_carries_partition`: the partitions of an accepted plan.
-/

namespace GridCopy

namespace Fragment

variable {α : Type} {source : Array α} {width : Nat}

/-! ## Loading -/

/-- Reads one chunk into the slot of its number. -/
def loadSlot (source : Array α) (width : Nat) (fragment : Fragment α) :
    Nat × Nat → Checked (Fragment α)
  | (base, slot) => do
      let chunk ← readChunk source width base
      return fragment.fill width slot chunk

theorem load_eq_slots (source : Array α) {partition : Partition} {count : Nat}
    (sized : partition.size = .ok count) :
    load source partition =
      partition.chunks.zipIdx.foldlM (loadSlot source partition.width) empty := by
  rw [load, sized]
  rfl

theorem loadSlots_eq (source : Array α) (fragment : Fragment α) (filled : List Nat)
    {left : List Nat} (fits : ∀ base ∈ left, base + width < Size.bound)
    (inside : ∀ base ∈ filled, base + width ≤ source.size)
    (holds : fragment.values.toList = contents source width filled) :
    (left.zipIdx filled.length).foldlM (loadSlot source width) fragment =
      if ∀ base ∈ left, base + width ≤ source.size then
        .ok ⟨(contents source width (filled ++ left)).toArray⟩
      else .error .readOutsideBuffer := by
  -- On the chunks still to be read; the ones before fill the slots in front.
  induction left generalizing fragment filled with
  | nil =>
      obtain ⟨values⟩ := fragment
      simp [← holds, pure, Except.pure]
  | cons base rest ih =>
      obtain ⟨first, others⟩ := List.forall_mem_cons.mp fits
      rw [List.zipIdx_cons, List.foldlM_cons]
      simp only [loadSlot, readChunk_eq source first]
      by_cases within : base + width ≤ source.size
      · have insideNext : ∀ other ∈ filled ++ [base], other + width ≤ source.size := by
          simpa only [List.forall_mem_append, List.forall_mem_singleton] using ⟨inside, within⟩
        have next := ih _ _ others insideNext (fill_next inside holds)
        rw [List.length_append, List.length_singleton, List.append_assoc,
          List.singleton_append] at next
        simpa only [bind, Except.bind, pure, Except.pure, List.forall_mem_cons, within, if_true,
          true_and] using next
      · simp only [bind, Except.bind, List.forall_mem_cons, within, false_and, if_false]

/-- The fragment that holds the elements of a partition, chunk by chunk. -/
def gathered (source : Array α) (partition : Partition) : Fragment α :=
  ⟨(contents source partition.width partition.chunks).toArray⟩

/-- A partition is loaded when all its chunks end inside the source. -/
theorem load_eq {partition : Partition} {count : Nat} (source : Array α)
    (sized : partition.size = .ok count)
    (fits : ∀ base ∈ partition.chunks, base + partition.width < Size.bound) :
    load source partition =
      if ∀ base ∈ partition.chunks, base + partition.width ≤ source.size then
        .ok (gathered source partition)
      else .error .readOutsideBuffer := by
  have slots := loadSlots_eq source empty [] fits (fun _ member => absurd member List.not_mem_nil) rfl
  rw [List.nil_append] at slots
  rw [load_eq_slots source sized, gathered, ← slots]
  rfl

/-! ## Storing -/

/-- Writes one slot to the chunk of its number. -/
def storeSlot (fragment : Fragment α) (width : Nat) (destination : Array α) :
    Nat × Nat → Checked (Array α)
  | (base, slot) => fragment.put width slot base destination

/-- Writes a piece to the places from `base` on. -/
def writePiece (destination : Array α) : List α × Nat → Checked (Array α)
  | (piece, base) => do
      let stop ← Size.add base piece.length
      if stop ≤ destination.size then return writeRun destination base piece
      else .error .writeOutsideBuffer

/-- The whole pieces of a fragment, each with the chunk of the same number. -/
def paired (fragment : Fragment α) (partition : Partition) : List (List α × Nat) :=
  (pieces partition.width fragment.values.toList).zip partition.chunks

theorem length_of_mem_pieces {elements piece : List α} (positive : 0 < width)
    (member : piece ∈ pieces width elements) : piece.length = width := by
  simp only [pieces, List.mem_map, List.mem_range] at member
  obtain ⟨slot, inside, rfl⟩ := member
  have whole := (Nat.le_div_iff_mul_le positive).mp (Nat.succ_le_of_lt inside)
  rw [Nat.succ_mul] at whole
  rw [List.length_take, List.length_drop]
  omega

theorem put_eq (fragment : Fragment α) (positive : 0 < width) (slot base : Nat)
    (destination : Array α) :
    fragment.put width slot base destination =
      match (pieces width fragment.values.toList)[slot]? with
      | none => .ok destination
      | some piece => writePiece destination (piece, base) := by
  rw [put, outgoing_eq fragment positive]
  cases found : (pieces width fragment.values.toList)[slot]? with
  | none => rfl
  | some piece =>
      have whole := length_of_mem_pieces positive (List.mem_of_getElem? found)
      simp only [writePiece, whole, bind, Except.bind]
      cases Size.add base width with
      | error fault => rfl
      | ok stop =>
          by_cases room : stop ≤ destination.size
          · simp only [if_pos room, pure, Except.pure]
          · simp only [if_neg room]

theorem storeSlots_eq (fragment : Fragment α) (positive : 0 < width) (bases : List Nat)
    (slot : Nat) (destination : Array α) :
    (bases.zipIdx slot).foldlM (fragment.storeSlot width) destination =
      (((pieces width fragment.values.toList).drop slot).zip bases).foldlM writePiece
        destination := by
  induction bases generalizing slot destination with
  | nil => simp
  | cons base rest ih =>
      rw [List.zipIdx_cons, List.foldlM_cons, storeSlot, put_eq fragment positive]
      cases found : (pieces width fragment.values.toList)[slot]? with
      | none =>
          -- No later slot has a piece either.
          have beyond := List.getElem?_eq_none_iff.mp found
          have others := ih (slot + 1) destination
          rw [List.drop_eq_nil_of_le (Nat.le_succ_of_le beyond)] at others
          rw [List.drop_eq_nil_of_le beyond]
          exact others
      | some piece =>
          obtain ⟨inside, rfl⟩ := List.getElem?_eq_some_iff.mp found
          rw [List.drop_eq_getElem_cons inside, List.zip_cons_cons, List.foldlM_cons]
          exact congrArg _ (funext fun buffer => ih (slot + 1) buffer)

theorem store_eq_slots (fragment : Fragment α) {partition : Partition}
    (positive : 0 < partition.width) (destination : Array α) :
    fragment.store partition destination =
      partition.chunks.zipIdx.foldlM (fragment.storeSlot partition.width) destination := by
  rw [store, checkWidth_of_pos positive]
  rfl

/-- Any fragment is stored by its whole pieces, each of them at its chunk. -/
theorem store_eq (fragment : Fragment α) {partition : Partition} (positive : 0 < partition.width)
    (destination : Array α) :
    fragment.store partition destination =
      (fragment.paired partition).foldlM writePiece destination := by
  rw [store_eq_slots fragment positive, storeSlots_eq fragment positive, List.drop_zero, paired]

theorem writePiece_chunk {base : Nat} {destination : Array α} (fits : base + width < Size.bound)
    (inside : base + width ≤ source.size) (room : base + width ≤ destination.size) :
    writePiece destination (chunk source width base, base) =
      .ok (writeRun destination base (chunk source width base)) := by
  simp only [writePiece, chunk_length inside, Size.add_of_lt fits, bind, Except.bind, if_pos room,
    pure, Except.pure]

/-- Chunks that go back to their own places bring the elements of the source there, and leave all
other places as they are. -/
theorem writePieces_chunks {bases : List Nat} {destination : Array α}
    (fits : ∀ base ∈ bases, base + width < Size.bound)
    (inside : ∀ base ∈ bases, base + width ≤ source.size)
    (room : ∀ base ∈ bases, base + width ≤ destination.size) :
    ∃ written, (bases.map fun base => (chunk source width base, base)).foldlM writePiece
        destination = .ok written ∧ written.size = destination.size ∧
      ∀ place, written[place]? =
        if place ∈ bases.flatMap fun base => List.range' base width then source[place]?
        else destination[place]? := by
  induction bases generalizing destination with
  | nil => exact ⟨destination, rfl, rfl, fun place => by simp⟩
  | cons base rest ih =>
      obtain ⟨firstFits, restFits⟩ := List.forall_mem_cons.mp fits
      obtain ⟨firstInside, restInside⟩ := List.forall_mem_cons.mp inside
      obtain ⟨firstRoom, restRoom⟩ := List.forall_mem_cons.mp room
      have sized : (writeRun destination base (chunk source width base)).size = destination.size :=
        writeRun_size (by rwa [chunk_length firstInside])
      obtain ⟨written, wrote, writtenSize, held⟩ := ih restFits restInside (sized ▸ restRoom)
      refine ⟨written, ?_, writtenSize.trans sized, fun place => ?_⟩
      · rw [List.map_cons, List.foldlM_cons, writePiece_chunk firstFits firstInside firstRoom]
        exact wrote
      · rw [held, writeRun_chunk_getElem? firstInside firstRoom, List.flatMap_cons]
        simp only [List.mem_append, List.mem_range'_1]
        -- A later chunk that holds the place writes the same element again.
        by_cases later : place ∈ rest.flatMap fun base => List.range' base width
        · rw [if_pos later, if_pos (.inr later)]
        · simp only [later, if_false, or_false]

/-- Loads a partition from one buffer and stores it in another. -/
def transfer (source : Array α) (partition : Partition) (destination : Array α) :
    Checked (Array α) := do
  let fragment ← load source partition
  fragment.store partition destination

/-! ## The elements of a fragment -/

theorem chunk_map_some {base : Nat} (inside : base + width ≤ source.size) :
    (chunk source width base).map some = (List.range' base width).map (source[·]?) := by
  refine List.ext_getElem? fun lane => ?_
  rw [List.getElem?_map, List.getElem?_map]
  by_cases within : lane < width
  · have present : base + lane < source.size := by omega
    rw [chunk_getElem? within, List.getElem?_range' within, Nat.one_mul, Option.map_some,
      Array.getElem?_eq_getElem present, Option.map_some]
  · have beyond := Nat.not_lt.mp within
    rw [List.getElem?_eq_none (by rwa [chunk_length inside]),
      List.getElem?_eq_none (by rwa [List.length_range'])]
    rfl

/-- The elements of several chunks are those of the source at the places of the chunks. -/
theorem contents_map_some {bases : List Nat}
    (inside : ∀ base ∈ bases, base + width ≤ source.size) :
    (contents source width bases).map some =
      (bases.flatMap fun base => List.range' base width).map (source[·]?) := by
  induction bases with
  | nil => rfl
  | cons base rest ih =>
      obtain ⟨first, others⟩ := List.forall_mem_cons.mp inside
      have tail := ih others
      simp only [contents, List.flatMap_cons, List.map_append, chunk_map_some first] at tail ⊢
      rw [tail]

end Fragment

/-! ## Partitions inside a buffer -/

namespace Partition

open Fragment

/-- The places of the elements of a partition, chunk by chunk. -/
def places (partition : Partition) : List Nat :=
  partition.chunks.flatMap fun base => List.range' base partition.width

/-- The chunks of a partition are not empty and lie inside a buffer of `size` elements, so no end of
a chunk is too large for a size. -/
structure Within (partition : Partition) (size : Nat) : Prop where
  positive : 0 < partition.width
  inside : ∀ base ∈ partition.chunks, base + partition.width ≤ size
  small : size < Size.bound

namespace Within

variable {α : Type} {partition : Partition} {size count : Nat} {source destination : Array α}

theorem fits (within : partition.Within size) :
    ∀ base ∈ partition.chunks, base + partition.width < Size.bound := by
  intro base member
  exact Nat.lt_of_le_of_lt (within.inside base member) within.small

/-- All chunks end inside a source exactly when it holds all places of the partition. -/
theorem chunks_inside_iff (within : partition.Within size) (source : Array α) :
    (∀ base ∈ partition.chunks, base + partition.width ≤ source.size) ↔
      ∀ place ∈ partition.places, place < source.size := by
  have positive := within.positive
  simp only [places, List.mem_flatMap, List.mem_range'_1]
  constructor
  · rintro inside place ⟨base, member, -, before⟩
    exact Nat.lt_of_lt_of_le before (inside base member)
  · intro present base member
    -- The last place of a chunk decides.
    have last := present (base + (partition.width - 1)) ⟨base, member, by omega, by omega⟩
    omega

theorem load_exact (within : partition.Within size) (sized : partition.size = .ok count)
    (present : ∀ place ∈ partition.places, place < source.size) :
    load source partition = .ok (gathered source partition) := by
  rw [load_eq source sized within.fits, if_pos ((within.chunks_inside_iff source).mpr present)]

/-- Loading fails exactly when the source ends before one of the places of the partition. -/
theorem load_error_iff (within : partition.Within size) (sized : partition.size = .ok count)
    (source : Array α) :
    load source partition = .error .readOutsideBuffer ↔
      ∃ place ∈ partition.places, source.size ≤ place := by
  by_cases present : ∀ place ∈ partition.places, place < source.size
  · rw [within.load_exact sized present]
    constructor
    · intro failed
      cases failed
    · rintro ⟨place, member, beyond⟩
      exact absurd (present place member) (Nat.not_lt.mpr beyond)
  · rw [load_eq source sized within.fits, if_neg (mt (within.chunks_inside_iff source).mp present)]
    simpa using present

theorem gathered_size (within : partition.Within size)
    (present : ∀ place ∈ partition.places, place < source.size) :
    (gathered source partition).values.size = partition.chunks.length * partition.width := by
  rw [gathered, List.size_toArray,
    contents_length ((within.chunks_inside_iff source).mpr present)]

theorem gathered_elements (within : partition.Within size)
    (present : ∀ place ∈ partition.places, place < source.size) :
    (gathered source partition).values.toList.map some = partition.places.map (source[·]?) :=
  contents_map_some ((within.chunks_inside_iff source).mpr present)

/-- No chunk is lost: each is paired with the elements that were read from it. -/
theorem paired_gathered (within : partition.Within size)
    (present : ∀ place ∈ partition.places, place < source.size) :
    (gathered source partition).paired partition =
      partition.chunks.map fun base => (chunk source partition.width base, base) := by
  have inside := (within.chunks_inside_iff source).mpr present
  rw [paired, gathered, pieces_contents within.positive inside, List.map_prod_right_eq_zip]

/-- A loaded fragment changes the places of its partition only, each to the element of the source. -/
theorem store_gathered (within : partition.Within size)
    (present : ∀ place ∈ partition.places, place < source.size)
    (fitting : destination.size = size) :
    ∃ written, (gathered source partition).store partition destination = .ok written ∧
      written.size = size ∧
      ∀ place, written[place]? =
        if place ∈ partition.places then source[place]? else destination[place]? := by
  have inside := (within.chunks_inside_iff source).mpr present
  rw [store_eq _ within.positive, within.paired_gathered present, ← fitting]
  exact writePieces_chunks within.fits inside (fitting ▸ within.inside)

theorem transfer_exact (within : partition.Within size) (sized : partition.size = .ok count)
    (present : ∀ place ∈ partition.places, place < source.size) {written : Array α}
    (stored : (gathered source partition).store partition destination = .ok written) :
    transfer source partition destination = .ok written := by
  rw [transfer, within.load_exact sized present]
  exact stored

end Within

end Partition

namespace Staging

open Fragment

variable {α : Type} {width : Nat}

/-! ## A worker on its own -/

/-- The state of a worker that has its fragment and two buffers to itself, whatever the log says. -/
structure Single (source destination : Array α) (fragment : Fragment α) (staging : Staging α) :
    Prop where
  source : staging.source = source
  destination : staging.destination = destination
  fragments : staging.fragments = #[fragment]

/-- A turn follows one step of a computation on parts of the state: it meets the same fault, or it
shows the state after the step. -/
def Follows {State : Type} (shows : State → Staging α → Prop) (made : Checked Unit × Staging α) :
    Checked State → Prop
  | .error fault => made.1 = .error fault
  | .ok next => made.1 = .ok () ∧ shows next made.2

theorem Single.fetch {source destination : Array α} {fragment : Fragment α} {staging : Staging α}
    (single : Single source destination fragment staging) (chunk : Nat × Nat) :
    Follows (Single source destination) (staging.step width (0, .fetch chunk.2 chunk.1))
      (loadSlot source width fragment chunk) := by
  obtain ⟨kept, written, fragments, writes⟩ := staging
  obtain ⟨rfl, rfl, rfl⟩ := single
  cases read : readChunk kept width chunk.1 with
  | error fault => simp only [step, loadSlot, read, bind, Except.bind, Follows]
  | ok elements =>
      simp only [step, loadSlot, read, bind, Except.bind, pure, Except.pure, Follows, true_and]
      exact ⟨rfl, rfl, rfl⟩

theorem Single.put {source destination : Array α} {fragment : Fragment α} {staging : Staging α}
    (single : Single source destination fragment staging) (chunk : Nat × Nat) :
    Follows (fun next => Single source next fragment)
      (staging.step width (0, .put chunk.2 chunk.1))
      (fragment.storeSlot width destination chunk) := by
  obtain ⟨kept, written, fragments, writes⟩ := staging
  obtain ⟨rfl, rfl, rfl⟩ := single
  have own : (#[fragment] : Array (Fragment α)).getD 0 .empty = fragment := rfl
  cases handed : fragment.outgoing width chunk.2 chunk.1 written.size with
  | error fault =>
      simp only [step, own, storeSlot, Fragment.put, handed, bind, Except.bind, Follows]
  | ok elements =>
      simp only [step, own, storeSlot, Fragment.put, handed, bind, Except.bind, pure, Except.pure,
        Follows, true_and]
      exact ⟨rfl, rfl, rfl⟩

/-- Turns that follow the steps of a computation one by one follow the whole of it. -/
theorem run_follows {State Item : Type} {shows : State → Staging α → Prop}
    {turn : Item → Nat × Move} {act : State → Item → Checked State} (width : Nat)
    (follows : ∀ {state staging}, shows state staging → ∀ item,
      Follows shows (staging.step width (turn item)) (act state item))
    (items : List Item) {state : State} {staging : Staging α} (shown : shows state staging)
    (rest : Trace) :
    match items.foldlM act state with
    | .error fault => (run width (items.map turn ++ rest) staging).1 = .error fault
    | .ok last => ∃ after, shows last after ∧
        run width (items.map turn ++ rest) staging = run width rest after := by
  induction items generalizing state staging with
  | nil => exact ⟨staging, shown, rfl⟩
  | cons item others ih =>
      have followed := follows shown item
      simp only [List.map_cons, List.cons_append, run, List.foldlM_cons, bind, Except.bind]
      cases made : staging.step width (turn item) with
      | mk outcome after =>
          rw [made] at followed
          cases acted : act state item with
          | error fault =>
              rw [acted] at followed
              obtain rfl : outcome = .error fault := followed
              rfl
          | ok next =>
              rw [acted] at followed
              obtain ⟨ended, shown⟩ := followed
              obtain rfl : outcome = .ok () := ended
              exact ih shown

/-- A single worker copies a partition from one buffer to another, all its moves in a row. -/
def alone (partition : Partition) (source destination : Array α) : Checked Unit × Staging α :=
  runWorkers .oneByOne partition.width [partition.program] source destination

/-- The moves of a worker on its own load its partition and store it. -/
theorem alone_transfers {partition : Partition} {count : Nat} (sized : partition.size = .ok count)
    (positive : 0 < partition.width) (source destination : Array α) :
    match transfer source partition destination with
    | .error fault => (alone partition source destination).1 = .error fault
    | .ok written =>
        (alone partition source destination).1 = .ok () ∧
          (alone partition source destination).2.destination = written := by
  have turns : Trace.oneByOne [partition.program] =
      partition.chunks.zipIdx.map (fun chunk => (0, Move.fetch chunk.2 chunk.1)) ++
        (partition.chunks.zipIdx.map (fun chunk => (0, Move.put chunk.2 chunk.1)) ++ []) := by
    simp [Trace.oneByOne, Partition.program, Function.comp_def]
  have begun : Single source destination .empty (start source destination 1) := ⟨rfl, rfl, rfl⟩
  have fetched := run_follows partition.width Single.fetch partition.chunks.zipIdx begun
    (partition.chunks.zipIdx.map (fun chunk => (0, Move.put chunk.2 chunk.1)) ++ [])
  rw [← load_eq_slots source sized] at fetched
  rw [alone, runWorkers, turns, transfer]
  cases loaded : load source partition with
  | error fault =>
      rw [loaded] at fetched
      exact fetched
  | ok fragment =>
      rw [loaded] at fetched
      obtain ⟨filled, single, fetched⟩ := fetched
      have put := run_follows partition.width Single.put partition.chunks.zipIdx single []
      rw [← store_eq_slots fragment positive] at put
      rw [List.length_singleton, fetched]
      simp only [bind, Except.bind]
      cases stored : fragment.store partition destination with
      | error fault =>
          rw [stored] at put
          exact put
      | ok written =>
          rw [stored] at put
          obtain ⟨last, held, ended⟩ := put
          rw [ended]
          exact ⟨rfl, held.destination⟩

end Staging

namespace Plan

open Fragment

/-- The share of a unit lies inside the buffer. -/
theorem Valid.share_within {plan : Plan} {owner : Owner} (valid : plan.Valid)
    (inGrid : plan.InGrid owner) :
    (plan.exactShare owner).Within plan.layout.shape.area where
  positive := valid.widthPositive
  inside := fun _ member =>
    valid.chunk_inside (List.mem_map_of_mem (mem_ownerList.mpr inGrid)) member
  small := Nat.lt_of_le_of_lt valid.small maxElements_lt_bound

/-- The partition of a unit of an accepted plan and a source of any length. Loading fails exactly
when the source ends before one of the places of the partition. Otherwise the fragment holds the
elements of the source at these places, in order. It comes apart into one piece for each chunk, and
storing it, as the worker of the unit does, writes each piece to its chunk: in a destination of the
size of the layout the places of the partition then hold the elements of the source, and all others
are as they were. -/
theorem fragment_carries_partition {layout : Layout} {tile : Shape} {threads : Arrangement}
    {policy : Policy} {plan : Plan} (accepted : make layout tile threads policy = .ok plan) :
    ∃ size grid units, layout.size = .ok size ∧ plan.grid = .ok grid ∧
      plan.unitsPerTile = .ok units ∧
      ∀ tileRow < grid.rows, ∀ tileCol < grid.cols, ∀ unit < units, ∃ partition offsets count,
        plan.partition ⟨tileRow, tileCol, unit⟩ = .ok partition ∧
        partition.offsets = .ok offsets ∧ partition.size = .ok count ∧
        ∀ {α : Type} (source : Array α),
          (load source partition = .error .readOutsideBuffer ↔
            ∃ offset ∈ offsets, source.size ≤ offset) ∧
          ((∀ offset ∈ offsets, offset < source.size) → ∃ fragment,
            load source partition = .ok fragment ∧ fragment.values.size = count ∧
            fragment.values.toList.map some = offsets.map (source[·]?) ∧
            fragment.paired partition = partition.chunks.map (fun base =>
              ((source.extract base (base + partition.width)).toList, base)) ∧
            ∀ destination : Array α, destination.size = size → ∃ written,
              fragment.store partition destination = .ok written ∧
              (fragment.paired partition).foldlM writePiece destination = .ok written ∧
              (Staging.alone partition source destination).1 = .ok () ∧
              (Staging.alone partition source destination).2.destination = written ∧
              written.size = size ∧
              ∀ place, written[place]? =
                if place ∈ offsets then source[place]? else destination[place]?) := by
  obtain ⟨rfl, valid⟩ := make_eq_ok_iff.mp accepted
  let plan : Plan := ⟨⟨layout, tile⟩, threads, policy⟩
  refine ⟨_, _, _, valid.size_exact, valid.grid_exact, valid.unitsPerTile_exact, ?_⟩
  intro tileRow rowInside tileCol colInside unit unitInside
  have inGrid : plan.InGrid ⟨tileRow, tileCol, unit⟩ := ⟨rowInside, colInside, unitInside⟩
  have within := valid.share_within inGrid
  have sized := valid.share_size ⟨tileRow, tileCol, unit⟩
  refine ⟨_, _, _, valid.partition_exact inGrid, valid.offsets_exact inGrid, sized,
    fun {α} source => ⟨within.load_error_iff sized source, fun present => ?_⟩⟩
  have counted := within.gathered_size present
  rw [chunks_length] at counted
  refine ⟨_, within.load_exact sized present, counted, within.gathered_elements present,
    within.paired_gathered present, fun destination fitting => ?_⟩
  obtain ⟨written, stored, size, held⟩ := within.store_gathered present fitting
  have transferred := within.transfer_exact sized present stored
  have moved := Staging.alone_transfers sized within.positive source destination
  rw [transferred] at moved
  exact ⟨written, stored, (store_eq _ within.positive destination).symm.trans stored, moved.1,
    moved.2, size, held⟩

/-- The last unit of the last tile owns rows 6 and 7 of both columns. A source of 15 elements ends
inside its second chunk. -/
theorem fragment_carries_partition_cut_chunk :
    ∃ plan partition, make (.columnMajor ⟨8, 2⟩) ⟨4, 2⟩ ⟨⟨2, 1⟩⟩ (.vectorized ⟨2, 1⟩) = .ok plan ∧
      plan.partition ⟨1, 0, 1⟩ = .ok partition ∧ partition.offsets = .ok [6, 7, 14, 15] ∧
      load (Array.range 15) partition = .error .readOutsideBuffer ∧
      ∃ fragment written, load (Array.range 17) partition = .ok fragment ∧
        fragment.values = #[6, 7, 14, 15] ∧
        fragment.store partition (Array.replicate 16 100) = .ok written ∧
        written[13]? = some 100 ∧ written[14]? = some 14 ∧ written[15]? = some 15 := by
  have accepted : make (.columnMajor ⟨8, 2⟩) ⟨4, 2⟩ ⟨⟨2, 1⟩⟩ (.vectorized ⟨2, 1⟩) =
      .ok ⟨⟨.columnMajor ⟨8, 2⟩, ⟨4, 2⟩⟩, ⟨⟨2, 1⟩⟩, .vectorized ⟨2, 1⟩⟩ := rfl
  obtain ⟨size, grid, units, sized, gridded, counted, carried⟩ :=
    fragment_carries_partition accepted
  cases sized
  cases gridded
  cases counted
  obtain ⟨partition, offsets, count, owned, listed, -, transferred⟩ :=
    carried 1 (by decide) 0 (by decide) 1 (by decide)
  cases owned
  cases listed
  obtain ⟨cut, -⟩ := transferred (Array.range 15)
  obtain ⟨-, whole⟩ := transferred (Array.range 17)
  obtain ⟨fragment, loaded, -, -, -, stored⟩ := whole (by decide)
  cases loaded
  obtain ⟨written, wrote, -, -, -, -, held⟩ := stored (Array.replicate 16 100) rfl
  exact ⟨_, _, accepted, rfl, rfl, cut.mpr ⟨15, by decide⟩, _, written, rfl, rfl, wrote, held 13,
    held 14, held 15⟩

end Plan

end GridCopy
