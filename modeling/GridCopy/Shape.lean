import GridCopy.Fault

/-!
# Shapes

A shape gives the two extents of a buffer, a tile, a thread arrangement or a vector. The first
mode is called rows and the second columns, whatever the memory order.
-/

namespace GridCopy

structure Shape where
  rows : Nat
  cols : Nat
deriving DecidableEq, Repr

namespace Shape

def text (shape : Shape) : String := s!"({shape.rows}, {shape.cols})"

instance : ToString Shape := ⟨text⟩

/-- The exact number of elements, whether or not it is a size. -/
def area (shape : Shape) : Nat := shape.rows * shape.cols

def size (shape : Shape) : Checked Nat := Size.mul shape.rows shape.cols

def size? (shape : Shape) : Option Nat := Size.mul? shape.rows shape.cols

/-- Whether an extent is zero. -/
def isEmpty (shape : Shape) : Bool := shape.rows == 0 || shape.cols == 0

/-- Whether the shape is a whole number of `part`s in both modes. -/
def isMultipleOf (shape part : Shape) : Bool :=
  !part.isEmpty && shape.rows % part.rows == 0 && shape.cols % part.cols == 0

/-- The product in each mode. -/
def scale (shape factor : Shape) : Checked Shape := do
  let rows ← Size.mul shape.rows factor.rows
  let cols ← Size.mul shape.cols factor.cols
  return ⟨rows, cols⟩

/-- The product in each mode, when both are sizes. -/
def scale? (shape factor : Shape) : Option Shape := do
  let rows ← Size.mul? shape.rows factor.rows
  let cols ← Size.mul? shape.cols factor.cols
  return ⟨rows, cols⟩

/-- The quotient in each mode, rounded up. -/
def divUp (shape part : Shape) : Checked Shape := do
  let rows ← Size.divUp shape.rows part.rows
  let cols ← Size.divUp shape.cols part.cols
  return ⟨rows, cols⟩

/-- The extents with the two modes exchanged. -/
def transpose (shape : Shape) : Shape := ⟨shape.cols, shape.rows⟩

/-- Every position of the shape as a row and a column, rows running fastest. -/
def positions (shape : Shape) : List (Nat × Nat) :=
  (List.range shape.cols).flatMap fun col => (List.range shape.rows).map fun row => (row, col)

theorem isEmpty_eq_false_iff {shape : Shape} :
    shape.isEmpty = false ↔ 0 < shape.rows ∧ 0 < shape.cols := by
  simp [isEmpty, Nat.pos_iff_ne_zero]

theorem isMultipleOf_iff {shape part : Shape} :
    shape.isMultipleOf part = true ↔
      (0 < part.rows ∧ 0 < part.cols) ∧ part.rows ∣ shape.rows ∧ part.cols ∣ shape.cols := by
  simp [isMultipleOf, isEmpty_eq_false_iff, Nat.dvd_iff_mod_eq_zero, and_assoc]

@[simp] theorem transpose_transpose (shape : Shape) : shape.transpose.transpose = shape := rfl

theorem mem_positions {shape : Shape} {position : Nat × Nat} :
    position ∈ shape.positions ↔ position.1 < shape.rows ∧ position.2 < shape.cols := by
  simp only [positions, List.mem_flatMap, List.mem_map, List.mem_range]
  constructor
  · rintro ⟨col, colInside, row, rowInside, rfl⟩
    exact ⟨rowInside, colInside⟩
  · rintro ⟨rowInside, colInside⟩
    exact ⟨position.2, colInside, position.1, rowInside, rfl⟩

theorem positions_length (shape : Shape) : shape.positions.length = shape.area := by
  simp [positions, area, List.length_flatMap, List.map_const', Nat.mul_comm]

example : (⟨2, 3⟩ : Shape).positions = [(0, 0), (1, 0), (0, 1), (1, 1), (0, 2), (1, 2)] := by
  decide

end Shape

end GridCopy
