import GridCopy.Layout
import GridCopy.Proofs.Axis

/-!
# Places and coordinates

A layout numbers the elements of its shape without a gap: `place` and `coords` are inverse to each
other between the coordinates inside the shape and the numbers below its area.
-/

namespace GridCopy

namespace Layout

variable {layout : Layout}

/-- The row and column of the element at a place. -/
def coords (layout : Layout) (place : Nat) : Nat × Nat :=
  match layout.order with
  | .columnMajor => (place % layout.shape.rows, place / layout.shape.rows)
  | .rowMajor => (place / layout.shape.cols, place % layout.shape.cols)

theorem place_lt {row col : Nat} (rowInside : row < layout.shape.rows)
    (colInside : col < layout.shape.cols) : layout.place row col < layout.shape.area := by
  obtain ⟨shape, order⟩ := layout
  cases order with
  | columnMajor =>
      have below : col * shape.rows + row < shape.cols * shape.rows :=
        Axis.digit_lt colInside rowInside
      simp only [place, rowStride, colStride, Shape.area]
      rw [Nat.mul_comm shape.rows]
      omega
  | rowMajor =>
      have below : row * shape.cols + col < shape.rows * shape.cols :=
        Axis.digit_lt rowInside colInside
      simp only [place, rowStride, colStride, Shape.area]
      omega

/-- The offset of an element of a buffer whose size is a size is computed without a fault. -/
theorem offset_inside {row col : Nat} (sized : layout.shape.area ≤ Size.bound)
    (rowInside : row < layout.shape.rows) (colInside : col < layout.shape.cols) :
    layout.offset row col = .ok (layout.place row col) :=
  offset_of_lt (Nat.lt_of_lt_of_le (place_lt rowInside colInside) sized)

theorem coords_inside {offset : Nat} (inside : offset < layout.shape.area) :
    (layout.coords offset).1 < layout.shape.rows ∧
      (layout.coords offset).2 < layout.shape.cols := by
  obtain ⟨⟨rows, cols⟩, order⟩ := layout
  simp only [Shape.area] at inside
  have rowsPositive : 0 < rows := Nat.pos_of_mul_pos_right (Nat.zero_lt_of_lt inside)
  have colsPositive : 0 < cols := Nat.pos_of_mul_pos_left (Nat.zero_lt_of_lt inside)
  cases order with
  | columnMajor =>
      exact ⟨Nat.mod_lt _ rowsPositive, Nat.div_lt_of_lt_mul inside⟩
  | rowMajor =>
      exact ⟨Nat.div_lt_of_lt_mul (Nat.mul_comm rows cols ▸ inside), Nat.mod_lt _ colsPositive⟩

theorem place_coords (offset : Nat) :
    layout.place (layout.coords offset).1 (layout.coords offset).2 = offset := by
  obtain ⟨shape, order⟩ := layout
  cases order with
  | columnMajor => simpa [place, coords, rowStride, colStride] using Nat.mod_add_div' offset _
  | rowMajor => simpa [place, coords, rowStride, colStride] using Nat.div_add_mod' offset _

theorem coords_place {row col : Nat} (rowInside : row < layout.shape.rows)
    (colInside : col < layout.shape.cols) : layout.coords (layout.place row col) = (row, col) := by
  obtain ⟨shape, order⟩ := layout
  cases order with
  | columnMajor =>
      have positive : 0 < shape.rows := Nat.zero_lt_of_lt rowInside
      simp [place, coords, rowStride, colStride, Nat.add_mul_mod_self_right,
        Nat.add_mul_div_right _ _ positive, Nat.mod_eq_of_lt rowInside,
        Nat.div_eq_of_lt rowInside]
  | rowMajor =>
      have positive : 0 < shape.cols := Nat.zero_lt_of_lt colInside
      simp [place, coords, rowStride, colStride, Nat.mul_comm row, Nat.mul_add_div positive,
        Nat.mod_eq_of_lt colInside, Nat.div_eq_of_lt colInside]

/-- Every offset below the area belongs to exactly one element inside the shape. -/
theorem existsUnique_offset (sized : layout.shape.area ≤ Size.bound) {offset : Nat}
    (inside : offset < layout.shape.area) :
    ∃! position : Nat × Nat, (position.1 < layout.shape.rows ∧ position.2 < layout.shape.cols) ∧
      layout.offset position.1 position.2 = .ok offset := by
  obtain ⟨rowInside, colInside⟩ := coords_inside inside
  refine ⟨layout.coords offset, ⟨⟨rowInside, colInside⟩, ?_⟩, ?_⟩
  · simp only [offset_inside sized rowInside colInside, place_coords]
  · rintro ⟨row, col⟩ ⟨⟨otherRowInside, otherColInside⟩, same⟩
    rw [offset_inside sized otherRowInside otherColInside] at same
    rw [← Except.ok.inj same]
    exact (coords_place otherRowInside otherColInside).symm

/-- The mode that is walked in memory order has unit stride. -/
theorem rowStride_of_contiguousMode (walked : layout.contiguousMode = .rows) :
    layout.rowStride = 1 := by
  unfold contiguousMode at walked
  split at walked
  · next unit => exact unit.1
  · contradiction

theorem colStride_of_contiguousMode (walked : layout.contiguousMode = .cols) :
    layout.colStride = 1 := by
  obtain ⟨shape, order⟩ := layout
  cases order with
  | columnMajor =>
      simp only [contiguousMode, rowStride, colStride] at walked ⊢
      split at walked
      · contradiction
      · next other =>
          by_contra apart
          exact other ⟨trivial, .inl apart⟩
  | rowMajor => rfl

/-- A step across the walked mode passes over a whole line of it, if there is more than one. -/
theorem colStride_of_rows_walked (walked : layout.contiguousMode = .rows) :
    layout.colStride = layout.shape.rows ∨ layout.shape.cols = 1 := by
  have unit := rowStride_of_contiguousMode walked
  obtain ⟨shape, order⟩ := layout
  cases order with
  | columnMajor => exact .inl rfl
  | rowMajor => exact .inr unit

theorem rowStride_of_cols_walked (walked : layout.contiguousMode = .cols) :
    layout.rowStride = layout.shape.cols ∨ layout.shape.rows = 1 := by
  have unit := colStride_of_contiguousMode walked
  obtain ⟨shape, order⟩ := layout
  cases order with
  | columnMajor => exact .inr unit
  | rowMajor => exact .inl rfl

end Layout

end GridCopy
