import GridCopy.Tiling
import GridCopy.Plan.Policy

/-!
# Plans

A plan describes one tiled copy: a tiling of the buffer, the arrangement of the units over a tile
and the policy by which they share it. `Plan.make` checks everything the copy relies on, so the
partitions of a plan are disjoint and cover the buffer, and each vector lies in one piece of
memory that starts at a multiple of its width.
-/

namespace GridCopy

/-- The most units a cube can hold. -/
def maxUnits : Nat := 1024

/-- The numbers of elements that one memory access can move. -/
def lineSizes : List Nat := [1, 2, 4, 8, 16]

structure Plan where
  tiling : Tiling
  threads : Arrangement
  policy : Policy
deriving DecidableEq, Repr

namespace Plan

/-- Whether one vector of every unit fills a whole part of the tile in both modes. -/
def arrangementFits (tile threads vector : Shape) : Bool :=
  (threads.scale? vector).any tile.isMultipleOf

/-- Whether the vector extends along the mode that is walked in memory order. -/
def alongContiguousMode (layout : Layout) (vector : Shape) : Bool :=
  match layout.contiguousMode with
  | .rows => vector.cols == 1
  | .cols => vector.rows == 1

/-- Validates a plan. The first condition that fails, in this order, is the reason given. -/
def make (layout : Layout) (tile : Shape) (threads : Arrangement) (policy : Policy) :
    Except Failure Plan :=
  match Tiling.make layout tile with
  | .error error => refuse error
  | .ok tiling =>
    let vector := policy.vector
    let requested := threads.shape.size?.getD Size.largest
    if threads.shape.isEmpty then
      refuse (.zeroExtent "threads" threads.shape)
    else if vector.isEmpty then
      refuse (.zeroExtent "vector" vector)
    else if maxUnits < requested then
      refuse (.tooManyUnits requested maxUnits)
    else if !arrangementFits tile threads.shape vector then
      refuse (.arrangementMismatch tile threads.shape vector)
    else
      match vector.size with
      | .error fault => .error (.fault fault)
      | .ok width =>
        if 1 < width && !alongContiguousMode layout vector then
          refuse (.uncoalescedVector vector)
        else if !lineSizes.contains width then
          refuse (.unsupportedVectorWidth width)
        else
          .ok ⟨tiling, threads, policy⟩

/-- The same copy under another policy, validated again. -/
def withPolicy (plan : Plan) (policy : Policy) : Except Failure Plan :=
  make plan.tiling.layout plan.tiling.tile plan.threads policy

def layout (plan : Plan) : Layout := plan.tiling.layout

def tile (plan : Plan) : Shape := plan.tiling.tile

/-- One cube per tile. -/
def grid (plan : Plan) : Checked Shape := plan.tiling.tileCount

/-- The number of units of a cube. -/
def unitsPerTile (plan : Plan) : Checked Nat := plan.threads.units

/-- The part of a tile that the units of a cube cover with one vector each. -/
def step (plan : Plan) : Checked Shape := plan.threads.shape.scale plan.policy.vector

/-- How often the step is repeated over a tile in each mode. -/
def repeats (plan : Plan) : Checked Shape := do
  let step ← plan.step
  plan.tile.divUp step

/-- The number of chunks that each unit owns. -/
def chunksPerUnit (plan : Plan) : Checked Nat := do
  let repeats ← plan.repeats
  repeats.size

/-- The number of elements moved by one memory access, as a byte. -/
def lineSize (plan : Plan) : Checked UInt8 := do
  let width ← plan.policy.width
  return UInt8.ofNat width

/-- The geometry of a plan, with every derived quantity. -/
structure Summary where
  shape : Shape
  rowStride : Nat
  colStride : Nat
  size : Nat
  tile : Shape
  threads : Shape
  policy : Policy
  width : Nat
  grid : Shape
  units : Nat
  step : Shape
  repeats : Shape
  chunksPerUnit : Nat
  lineSize : UInt8
deriving DecidableEq, Repr

def summary (plan : Plan) : Checked Summary := do
  let size ← plan.layout.size
  let width ← plan.policy.width
  let grid ← plan.grid
  let units ← plan.unitsPerTile
  let step ← plan.step
  let repeats ← plan.repeats
  let chunksPerUnit ← plan.chunksPerUnit
  let lineSize ← plan.lineSize
  return {
    shape := plan.layout.shape, rowStride := plan.layout.rowStride,
    colStride := plan.layout.colStride, size, tile := plan.tile,
    threads := plan.threads.shape, policy := plan.policy, width, grid, units, step, repeats,
    chunksPerUnit, lineSize }

example : make (.columnMajor ⟨16, 8⟩) ⟨8, 4⟩ ⟨⟨2, 2⟩⟩ (.vectorized ⟨1, 2⟩) =
    refuse (.uncoalescedVector ⟨1, 2⟩) := rfl
example : make (.rowMajor ⟨16, 8⟩) ⟨8, 4⟩ ⟨⟨2, 2⟩⟩ (.vectorized ⟨1, 2⟩) =
    .ok ⟨⟨.rowMajor ⟨16, 8⟩, ⟨8, 4⟩⟩, ⟨⟨2, 2⟩⟩, .vectorized ⟨1, 2⟩⟩ := rfl

end Plan

end GridCopy
