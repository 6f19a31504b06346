import GridCopy.Plan.Basic

/-!
# Partitions

A partition lists the chunks of a tile that one unit owns. Each chunk is a run of elements that
lie next to each other in memory, given by the place of its first element.
-/

namespace GridCopy

structure Partition where
  /-- The place of the first element of every chunk. -/
  chunks : List Nat
  /-- The number of elements of every chunk. -/
  width : Nat
deriving DecidableEq, Repr

namespace Partition

/-- The number of elements owned. -/
def size (partition : Partition) : Checked Nat := Size.mul partition.chunks.length partition.width

def isEmpty (partition : Partition) : Bool := partition.chunks.isEmpty

/-- The places of the elements of one chunk. -/
def chunkOffsets (width base : Nat) : Checked (List Nat) := do
  let stop ← Size.add base width
  return List.range' base (stop - base)

/-- The place of every element owned, chunk by chunk. -/
def offsets (partition : Partition) : Checked (List Nat) := do
  let chunks ← partition.chunks.mapM (chunkOffsets partition.width)
  return chunks.flatten

end Partition

/-- The unit that owns an element, with the tile it works on. -/
structure Owner where
  tileRow : Nat
  tileCol : Nat
  unit : Nat
deriving DecidableEq, Repr

namespace Plan

/-- The first element of one chunk: the unit's place in the first step, moved on by whole steps. -/
def chunkBase (plan : Plan) (owner : Owner) (step : Shape) (unitRow unitCol : Nat)
    (repetition : Nat × Nat) : Checked Nat := do
  let vector := plan.policy.vector
  let startRow ← Size.mul unitRow vector.rows
  let movedRows ← Size.mul repetition.1 step.rows
  let row ← Size.add startRow movedRows
  let startCol ← Size.mul unitCol vector.cols
  let movedCols ← Size.mul repetition.2 step.cols
  let col ← Size.add startCol movedCols
  plan.tiling.offset owner.tileRow owner.tileCol row col

/-- The chunks of one unit of one tile, repetitions along rows first. -/
def share (plan : Plan) (owner : Owner) : Checked Partition := do
  let (unitRow, unitCol) ← plan.threads.coords owner.unit
  let step ← plan.step
  let repeats ← plan.repeats
  let _ ← repeats.size
  let chunks ← repeats.positions.mapM (plan.chunkBase owner step unitRow unitCol)
  let width ← plan.policy.width
  return ⟨chunks, width⟩

/-- The chunks of a unit, refused outside the launch grid. -/
def partition (plan : Plan) (owner : Owner) : Except Failure Partition := do
  let grid ← plan.grid
  let units ← plan.unitsPerTile
  if grid.rows ≤ owner.tileRow || grid.cols ≤ owner.tileCol || units ≤ owner.unit then
    refuse (.outOfBounds owner.tileRow owner.tileCol owner.unit)
  else
    plan.share owner

/-- Every unit of the launch: tiles column by column, and within a tile its units in order. -/
def owners (plan : Plan) : Checked (List Owner) := do
  let grid ← plan.grid
  let units ← plan.unitsPerTile
  return grid.positions.flatMap fun tile =>
    (List.range units).map fun unit => ⟨tile.1, tile.2, unit⟩

/-- Every unit of the launch with its chunks. -/
def partitions (plan : Plan) : Checked (List (Owner × Partition)) := do
  let owners ← plan.owners
  owners.mapM fun owner => do
    let partition ← plan.share owner
    return (owner, partition)

end Plan

end GridCopy
