import GridCopy.Shape

/-!
# Thread arrangements and policies

The units of a cube are arranged over a tile, and a policy says how much each of them takes at a
time: one element, or a vector of elements.
-/

namespace GridCopy

/-- The units of one cube, numbered column by column. -/
structure Arrangement where
  shape : Shape
deriving DecidableEq, Repr

namespace Arrangement

/-- The number of units. -/
def units (threads : Arrangement) : Checked Nat := threads.shape.size

/-- The row and column of a unit. -/
def coords (threads : Arrangement) (unit : Nat) : Checked (Nat × Nat) := do
  let row ← Size.rem unit threads.shape.rows
  let col ← Size.div unit threads.shape.rows
  return (row, col)

end Arrangement

/-- How the elements of a tile are handed out to its units. -/
inductive Policy
  /-- Single elements, strided by the thread arrangement. -/
  | striped
  /-- Whole vectors of elements that lie next to each other in memory. -/
  | vectorized (vector : Shape)
deriving DecidableEq, Repr

namespace Policy

/-- The shape of one chunk; a striped chunk is a single element. -/
def vector : Policy → Shape
  | .striped => ⟨1, 1⟩
  | .vectorized vector => vector

/-- The number of elements of one chunk. -/
def width (policy : Policy) : Checked Nat := policy.vector.size

def text : Policy → String
  | .striped => "striped"
  | .vectorized vector => s!"vectorized {vector}"

instance : ToString Policy := ⟨text⟩

end Policy

end GridCopy
