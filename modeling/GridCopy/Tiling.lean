import GridCopy.Layout
import GridCopy.CopyError

/-!
# Tilings

A tiling sees a layout as a grid of equally sized tiles. No data moves: it only renames the
element `(row, col)` of the buffer to a tile and a place in that tile. There are no partial tiles.
-/

namespace GridCopy

/-- Device offsets have 32 bits, so a buffer holds at most this many elements. -/
def maxElements : Nat := UInt32.size - 1

structure Tiling where
  layout : Layout
  tile : Shape
deriving DecidableEq, Repr

namespace Tiling

/-- Tiles `layout`. A zero extent is refused before anything else, then a buffer that is too
large, then one that is not a whole number of tiles. -/
def make (layout : Layout) (tile : Shape) : Except CopyError Tiling :=
  if layout.shape.isEmpty then
    .error (.zeroExtent "shape" layout.shape)
  else if tile.isEmpty then
    .error (.zeroExtent "tile" tile)
  else if layout.shape.size?.all (maxElements < ·) then
    .error (.tooLarge layout.shape maxElements)
  else if !layout.shape.isMultipleOf tile then
    .error (.notDivisible layout.shape tile)
  else
    .ok ⟨layout, tile⟩

/-- The number of tiles along each mode. -/
def tileCount (tiling : Tiling) : Checked Shape := tiling.layout.shape.divUp tiling.tile

/-- The row and column of the first element of a tile. -/
def tileOrigin (tiling : Tiling) (tileRow tileCol : Nat) : Checked (Nat × Nat) := do
  let row ← Size.mul tileRow tiling.tile.rows
  let col ← Size.mul tileCol tiling.tile.cols
  return (row, col)

/-- The place in memory of the element `(row, col)` of a tile. -/
def offset (tiling : Tiling) (tileRow tileCol row col : Nat) : Checked Nat := do
  let (originRow, originCol) ← tiling.tileOrigin tileRow tileCol
  let bufferRow ← Size.add originRow row
  let bufferCol ← Size.add originCol col
  tiling.layout.offset bufferRow bufferCol

example :
    make (.columnMajor ⟨6, 4⟩) ⟨4, 4⟩ = .error (.notDivisible ⟨6, 4⟩ ⟨4, 4⟩) := rfl
example : make (.columnMajor ⟨2 ^ 16, 2 ^ 16⟩) ⟨4, 4⟩ =
    .error (.tooLarge ⟨65536, 65536⟩ 4294967295) := rfl

end Tiling

end GridCopy
