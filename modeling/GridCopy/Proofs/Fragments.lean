import GridCopy.Fragment

/-!
# Fragments as lists of chunks

Filling the slots of a fragment in order makes it the concatenation of the chunks that were read.
Its pieces of one width are these chunks again, and each slot hands out exactly its own.
-/

namespace GridCopy

variable {α : Type}

theorem writeRun_size {buffer : Array α} {start : Nat} {elements : List α}
    (fits : start + elements.length ≤ buffer.size) :
    (writeRun buffer start elements).size = buffer.size := by
  induction elements generalizing buffer start with
  | nil => rfl
  | cons element rest ih =>
      rw [List.length_cons] at fits
      have inside : start < buffer.size := by omega
      simp only [writeRun, dif_pos inside]
      rw [ih (by simp only [Array.size_set]; omega), Array.size_set]

/-- A run that fits changes its own places and no others. -/
theorem writeRun_getElem? {buffer : Array α} {start : Nat} {elements : List α}
    (fits : start + elements.length ≤ buffer.size) (place : Nat) :
    (writeRun buffer start elements)[place]? =
      if start ≤ place ∧ place < start + elements.length then elements[place - start]?
      else buffer[place]? := by
  induction elements generalizing buffer start with
  | nil =>
      rw [List.length_nil, if_neg (by omega)]
      rfl
  | cons element rest ih =>
      rw [List.length_cons] at fits
      have inside : start < buffer.size := by omega
      simp only [writeRun, dif_pos inside, List.length_cons]
      rw [ih (by simp only [Array.size_set]; omega)]
      -- The later elements go behind `start`, so only the first one decides about it.
      by_cases first : place = start
      · subst first
        rw [if_neg (by omega), if_pos (by omega), Array.getElem?_set_self, Nat.sub_self,
          List.getElem?_cons_zero]
      · rw [Array.getElem?_set_ne _ (Ne.symm first)]
        by_cases later : start + 1 ≤ place ∧ place < start + 1 + rest.length
        · obtain ⟨gap, rfl⟩ : ∃ gap, place = start + 1 + gap := ⟨place - (start + 1), by omega⟩
          rw [if_pos later, if_pos (by omega), show start + 1 + gap - (start + 1) = gap by omega,
            show start + 1 + gap - start = gap + 1 by omega, List.getElem?_cons_succ]
        · rw [if_neg later, if_neg (by omega)]

/-- A run that starts at the end of a buffer is appended. -/
theorem writeRun_at_end (buffer : Array α) (elements : List α) :
    (writeRun buffer buffer.size elements).toList = buffer.toList ++ elements := by
  induction elements generalizing buffer with
  | nil => simp [writeRun]
  | cons element rest ih =>
      have pushed := ih (buffer.push element)
      rw [Array.size_push] at pushed
      simp [writeRun, pushed]

namespace Fragment

/-- The elements of the chunk that starts at `base`. -/
def chunk (source : Array α) (width base : Nat) : List α :=
  (source.extract base (base + width)).toList

/-- The elements of several chunks, one chunk after another. -/
def contents (source : Array α) (width : Nat) (bases : List Nat) : List α :=
  bases.flatMap (chunk source width)

variable {source : Array α} {width base : Nat}

theorem chunk_length (inside : base + width ≤ source.size) :
    (chunk source width base).length = width := by
  simp [chunk]
  omega

theorem chunk_getElem? {lane : Nat} (inChunk : lane < width) :
    (chunk source width base)[lane]? = source[base + lane]? := by
  simp only [chunk, Array.getElem?_toList, Array.getElem?_extract]
  split
  · rfl
  · next outside => exact (Array.getElem?_eq_none (by omega)).symm

/-- A chunk that goes back to its own place brings the elements of the source there. -/
theorem writeRun_chunk_getElem? {destination : Array α} (inside : base + width ≤ source.size)
    (room : base + width ≤ destination.size) (place : Nat) :
    (writeRun destination base (chunk source width base))[place]? =
      if base ≤ place ∧ place < base + width then source[place]? else destination[place]? := by
  rw [writeRun_getElem? (by rwa [chunk_length inside]), chunk_length inside]
  split
  · next covered => rw [chunk_getElem? (by omega), Nat.add_sub_cancel' covered.1]
  · rfl

theorem contents_length {bases : List Nat} (inside : ∀ base ∈ bases, base + width ≤ source.size) :
    (contents source width bases).length = bases.length * width := by
  induction bases with
  | nil => simp [contents]
  | cons base rest ih =>
      have first := chunk_length (inside base List.mem_cons_self)
      have others := ih fun base member => inside base (List.mem_cons_of_mem _ member)
      simp only [contents, List.flatMap_cons, List.length_append, List.length_cons] at others ⊢
      rw [first, others, Nat.add_mul]
      omega

/-- A chunk can be read exactly when it ends inside the source. -/
theorem readChunk_eq (source : Array α) (fits : base + width < Size.bound) :
    readChunk source width base =
      if base + width ≤ source.size then .ok (chunk source width base)
      else .error .readOutsideBuffer := by
  simp only [readChunk, Size.add_of_lt fits, bind, Except.bind, pure, Except.pure, chunk]

theorem readChunk_exact (small : source.size < Size.bound) (inside : base + width ≤ source.size) :
    readChunk source width base = .ok (chunk source width base) := by
  rw [readChunk_eq source (Nat.lt_of_le_of_lt inside small), if_pos inside]

/-- Filling the next free slot appends a chunk. -/
theorem fill_next {fragment : Fragment α} {filled : List Nat}
    (inside : ∀ base ∈ filled, base + width ≤ source.size)
    (holds : fragment.values.toList = contents source width filled) :
    (fragment.fill width filled.length (chunk source width base)).values.toList =
      contents source width (filled ++ [base]) := by
  have size : fragment.values.size = filled.length * width := by
    rw [← Array.length_toList, holds, contents_length inside]
  rw [fill, ← size, writeRun_at_end, holds]
  simp [contents]

/-- The whole pieces of `width` elements from the front on; fewer elements at the end are left out. -/
def pieces (width : Nat) (elements : List α) : List (List α) :=
  (List.range (elements.length / width)).map fun slot => (elements.drop (slot * width)).take width

theorem pieces_append {first : List α} (positive : 0 < width) (whole : first.length = width)
    (rest : List α) : pieces width (first ++ rest) = first :: pieces width rest := by
  have counted : (first ++ rest).length / width = rest.length / width + 1 := by
    rw [List.length_append, whole, Nat.add_div_left _ positive]
  have front : (first ++ rest).take width = first := List.take_left' whole
  rw [pieces, counted, List.range_succ_eq_map, List.map_cons, List.map_map, Nat.zero_mul,
    List.drop_zero, front]
  congr 1
  refine List.map_congr_left fun slot _ => ?_
  rw [Function.comp_apply, Nat.succ_mul, Nat.add_comm, ← List.drop_drop, List.drop_left' whole]

/-- Chunks that were put one after another come apart again. -/
theorem pieces_contents {bases : List Nat} (positive : 0 < width)
    (inside : ∀ base ∈ bases, base + width ≤ source.size) :
    pieces width (contents source width bases) = bases.map (chunk source width) := by
  induction bases with
  | nil => simp [contents, pieces]
  | cons base rest ih =>
      obtain ⟨first, others⟩ := List.forall_mem_cons.mp inside
      rw [List.map_cons, ← ih others]
      exact pieces_append positive (chunk_length first) _

/-- A slot hands out its piece, and nothing when it has none. -/
theorem outgoing_eq (fragment : Fragment α) (positive : 0 < width) (slot base size : Nat) :
    fragment.outgoing width slot base size =
      (match (pieces width fragment.values.toList)[slot]? with
      | none => .ok []
      | some piece => do
          let stop ← Size.add base width
          if stop ≤ size then return piece else .error .writeOutsideBuffer) := by
  have filled : slot * width + width ≤ fragment.values.size ↔
      slot < fragment.values.toList.length / width := by
    rw [← Nat.succ_mul, ← Nat.le_div_iff_mul_le positive, Array.length_toList]
    rfl
  unfold outgoing
  rw [checkWidth_of_pos positive]
  by_cases inside : slot < fragment.values.toList.length / width
  · simp only [bind, Except.bind, filled, if_pos inside, pieces, List.getElem?_map,
      List.getElem?_range inside, Option.map_some, Array.toList_extract, List.extract_eq_take_drop,
      Nat.add_sub_cancel_left]
  · have beyond : (List.range (fragment.values.toList.length / width))[slot]? = none :=
      List.getElem?_eq_none (by simpa using inside)
    simp only [bind, Except.bind, filled, if_neg inside, pieces, List.getElem?_map, beyond,
      Option.map_none]
    rfl

/-- A slot of a fragment that holds all chunks hands out its own chunk. -/
theorem outgoing_exact {fragment : Fragment α} {before after : List Nat} {size : Nat}
    (positive : 0 < width)
    (inside : ∀ other ∈ before ++ base :: after, other + width ≤ source.size)
    (holds : fragment.values.toList = contents source width (before ++ base :: after))
    (small : size < Size.bound) (fits : base + width ≤ size) :
    fragment.outgoing width before.length base size = .ok (chunk source width base) := by
  have stop := Size.add_of_lt (Nat.lt_of_le_of_lt fits small)
  rw [outgoing_eq fragment positive, holds, pieces_contents positive inside]
  simp [stop, fits, bind, Except.bind, pure, Except.pure]

end Fragment

end GridCopy
