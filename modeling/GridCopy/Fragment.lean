import GridCopy.Plan.Partition

/-!
# Fragments

A fragment is the private store of one unit. It holds the elements of the unit's chunks in order,
so chunk number `slot` fills the places from `slot * width` on.
-/

namespace GridCopy

/-- Writes a run of elements from `start` on; past the end they are appended. -/
def writeRun {α : Type} (buffer : Array α) (start : Nat) : List α → Array α
  | [] => buffer
  | element :: rest =>
      if inside : start < buffer.size then
        writeRun (buffer.set start element inside) (start + 1) rest
      else
        writeRun (buffer.push element) (start + 1) rest

structure Fragment (α : Type) where
  values : Array α

namespace Fragment

variable {α : Type}

def empty : Fragment α := ⟨#[]⟩

/-- The chunk of `width` elements that starts at `base` of `source`. -/
def readChunk (source : Array α) (width base : Nat) : Checked (List α) := do
  let stop ← Size.add base width
  if stop ≤ source.size then
    return (source.extract base stop).toList
  else
    .error .readOutsideBuffer

/-- The fragment with a chunk in one of its slots. -/
def fill (fragment : Fragment α) (width slot : Nat) (chunk : List α) : Fragment α :=
  ⟨writeRun fragment.values (slot * width) chunk⟩

/-- A fragment cannot be cut into pieces of no elements. -/
def checkWidth (width : Nat) : Checked Unit := if width = 0 then .error .emptyPieces else .ok ()

theorem checkWidth_of_pos {width : Nat} (positive : 0 < width) : checkWidth width = .ok () :=
  if_neg (Nat.ne_of_gt positive)

/-- The elements that a slot writes to the place `base` of a buffer of `size` elements. A slot that
the fragment does not fill writes nothing. -/
def outgoing (fragment : Fragment α) (width slot base size : Nat) : Checked (List α) := do
  checkWidth width
  let first := slot * width
  if first + width ≤ fragment.values.size then
    let stop ← Size.add base width
    if stop ≤ size then
      return (fragment.values.extract first (first + width)).toList
    else
      .error .writeOutsideBuffer
  else
    return []

/-- Writes a slot to the place `base` of `destination`. -/
def put (fragment : Fragment α) (width slot base : Nat) (destination : Array α) :
    Checked (Array α) := do
  let elements ← fragment.outgoing width slot base destination.size
  return writeRun destination base elements

/-- Reads every chunk of a partition. -/
def load (source : Array α) (partition : Partition) : Checked (Fragment α) := do
  let _ ← partition.size
  partition.chunks.zipIdx.foldlM (fun fragment (base, slot) => do
    let chunk ← readChunk source partition.width base
    return fragment.fill partition.width slot chunk) empty

/-- Writes every chunk back to the same places of `destination`. -/
def store (fragment : Fragment α) (partition : Partition) (destination : Array α) :
    Checked (Array α) := do
  checkWidth partition.width
  partition.chunks.zipIdx.foldlM
    (fun buffer (base, slot) => fragment.put partition.width slot base buffer) destination

example : (load #[10, 11, 12, 13, 14, 15] ⟨[4, 0], 2⟩).map (·.values) = .ok #[14, 15, 10, 11] := rfl
example : (load #[10, 11, 12] ⟨[0, 2], 2⟩).map (·.values) = .error .readOutsideBuffer := rfl

end Fragment

end GridCopy
