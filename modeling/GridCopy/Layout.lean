import GridCopy.Shape

/-!
# Layouts

A layout stores a two-mode buffer densely: one mode has unit stride and the other one the extent
of the first. Offsets and strides count elements.
-/

namespace GridCopy

/-- The mode stored contiguously: rows in column-major order, columns in row-major order. -/
inductive MajorOrder
  | columnMajor
  | rowMajor
deriving DecidableEq, Repr

namespace MajorOrder

def name : MajorOrder → String
  | .columnMajor => "column_major"
  | .rowMajor => "row_major"

/-- Every accepted spelling of an order. -/
def ofName? : String → Option MajorOrder
  | "column_major" => some .columnMajor
  | "column" => some .columnMajor
  | "row_major" => some .rowMajor
  | "row" => some .rowMajor
  | _ => none

end MajorOrder

/-- One of the two modes of a buffer. -/
inductive Mode
  | rows
  | cols
deriving DecidableEq, Repr

def Mode.name : Mode → String
  | .rows => "rows"
  | .cols => "cols"

structure Layout where
  shape : Shape
  order : MajorOrder
deriving DecidableEq, Repr

namespace Layout

def columnMajor (shape : Shape) : Layout := ⟨shape, .columnMajor⟩

def rowMajor (shape : Shape) : Layout := ⟨shape, .rowMajor⟩

def rowStride (layout : Layout) : Nat :=
  match layout.order with
  | .columnMajor => 1
  | .rowMajor => layout.shape.cols

def colStride (layout : Layout) : Nat :=
  match layout.order with
  | .columnMajor => layout.shape.rows
  | .rowMajor => 1

/-- The number of elements. -/
def size (layout : Layout) : Checked Nat := layout.shape.size

/-- The place in memory of the element at `(row, col)`. -/
def offset (layout : Layout) (row col : Nat) : Checked Nat := do
  let down ← Size.mul row layout.rowStride
  let across ← Size.mul col layout.colStride
  Size.add down across

/-- The exact place of `(row, col)`, whether or not it is a size. -/
def place (layout : Layout) (row col : Nat) : Nat :=
  row * layout.rowStride + col * layout.colStride

/-- The mode walked in memory order. A single row or column has both strides equal to one, and
then the mode with more than one element is the one that is walked. -/
def contiguousMode (layout : Layout) : Mode :=
  if layout.rowStride = 1 ∧ (layout.colStride ≠ 1 ∨ 1 < layout.shape.rows) then .rows else .cols

def contiguousExtent (layout : Layout) : Nat :=
  match layout.contiguousMode with
  | .rows => layout.shape.rows
  | .cols => layout.shape.cols

theorem offset_of_lt {layout : Layout} {row col : Nat}
    (fits : layout.place row col < Size.bound) :
    layout.offset row col = .ok (layout.place row col) := by
  unfold place at fits
  have down : row * layout.rowStride < Size.bound := by omega
  have across : col * layout.colStride < Size.bound := by omega
  simp [offset, place, bind, Except.bind, Size.mul_of_lt down, Size.mul_of_lt across,
    Size.add_of_lt fits]

example : (columnMajor ⟨1, 4⟩).contiguousMode = .cols := by decide
example : (columnMajor ⟨4, 1⟩).contiguousMode = .rows := by decide
example : (rowMajor ⟨4, 1⟩).contiguousMode = .rows := by decide

end Layout

end GridCopy
