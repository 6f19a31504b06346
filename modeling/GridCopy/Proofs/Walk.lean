import Mathlib.Algebra.Group.Nat.Units
import Mathlib.Logic.Function.Iterate
import GridCopy.Proofs.Placement

/-!
# Walking a buffer in memory order

Memory holds a buffer line by line: a line runs along the walked mode, over its whole extent, and
the next line lies one further in the other mode. This includes buffers of one row or one column,
where both strides are one and all elements lie on one line.

Results:
1. `Layout.place_of_rows_walked`, `Layout.place_of_cols_walked`: the place of an element in terms of
   its line and its place in the line.
2. `Layout.place_next`: one step of the walk moves by one place.
3. `Layout.coords_eq_iterate`: the walk from the first element meets all elements in memory order.
4. `Layout.walk_visits_memory_in_order`: all of this for offsets, which never leave the sizes.
-/

namespace GridCopy

namespace Layout

variable {layout : Layout} {row col : Nat}

/-- The element after another one: the next one along the walked mode or, at the end of a line, the
first one of the next line. -/
def next (layout : Layout) (position : Nat × Nat) : Nat × Nat :=
  match layout.contiguousMode with
  | .rows =>
      if position.1 = layout.contiguousExtent - 1 then (0, position.2 + 1)
      else (position.1 + 1, position.2)
  | .cols =>
      if position.2 = layout.contiguousExtent - 1 then (position.1 + 1, 0)
      else (position.1, position.2 + 1)

theorem place_of_rows_walked (walked : layout.contiguousMode = .rows)
    (colInside : col < layout.shape.cols) :
    layout.place row col = row + col * layout.shape.rows := by
  rw [place, rowStride_of_contiguousMode walked, Nat.mul_one]
  rcases colStride_of_rows_walked walked with whole | single
  · rw [whole]
  · -- With one column there is no second line, so the stride between lines does not matter.
    rw [single, Nat.lt_one_iff] at colInside
    rw [colInside, Nat.zero_mul, Nat.zero_mul]

theorem place_of_cols_walked (walked : layout.contiguousMode = .cols)
    (rowInside : row < layout.shape.rows) :
    layout.place row col = row * layout.shape.cols + col := by
  rw [place, colStride_of_contiguousMode walked, Nat.mul_one]
  rcases rowStride_of_cols_walked walked with whole | single
  · rw [whole]
  · rw [single, Nat.lt_one_iff] at rowInside
    rw [rowInside, Nat.zero_mul, Nat.zero_mul]

/-- After an element that is not the last one comes an element of the buffer, one place further. -/
theorem place_next (rowInside : row < layout.shape.rows) (colInside : col < layout.shape.cols)
    (more : layout.place row col + 1 < layout.shape.area) :
    ((layout.next (row, col)).1 < layout.shape.rows ∧
        (layout.next (row, col)).2 < layout.shape.cols) ∧
      layout.place (layout.next (row, col)).1 (layout.next (row, col)).2 =
        layout.place row col + 1 := by
  cases walked : layout.contiguousMode with
  | rows =>
      rw [place_of_rows_walked walked colInside] at more ⊢
      simp only [next, walked, contiguousExtent]
      split
      · next last =>
          have lineEnd : row + col * layout.shape.rows + 1 = (col + 1) * layout.shape.rows := by
            rw [Nat.succ_mul]
            omega
          rw [lineEnd, Shape.area, Nat.mul_comm layout.shape.rows] at more
          have further : col + 1 < layout.shape.cols := Nat.lt_of_mul_lt_mul_right more
          refine ⟨⟨Nat.zero_lt_of_lt rowInside, further⟩, ?_⟩
          rw [place_of_rows_walked walked further, lineEnd, Nat.zero_add]
      · next inner =>
          refine ⟨⟨by omega, colInside⟩, ?_⟩
          rw [place_of_rows_walked walked colInside, Nat.add_right_comm]
  | cols =>
      rw [place_of_cols_walked walked rowInside] at more ⊢
      simp only [next, walked, contiguousExtent]
      split
      · next last =>
          have lineEnd : row * layout.shape.cols + col + 1 = (row + 1) * layout.shape.cols := by
            rw [Nat.succ_mul]
            omega
          rw [lineEnd, Shape.area] at more
          have further : row + 1 < layout.shape.rows := Nat.lt_of_mul_lt_mul_right more
          refine ⟨⟨further, Nat.zero_lt_of_lt colInside⟩, ?_⟩
          rw [place_of_cols_walked walked further, lineEnd, Nat.add_zero]
      · next inner =>
          refine ⟨⟨rowInside, by omega⟩, ?_⟩
          rw [place_of_cols_walked walked rowInside, Nat.add_assoc]

theorem coords_succ {offset : Nat} (more : offset + 1 < layout.shape.area) :
    layout.coords (offset + 1) = layout.next (layout.coords offset) := by
  obtain ⟨rowInside, colInside⟩ := coords_inside (Nat.lt_of_succ_lt more)
  have here : layout.place (layout.coords offset).1 (layout.coords offset).2 = offset :=
    place_coords offset
  obtain ⟨⟨nextRowInside, nextColInside⟩, moved⟩ :=
    place_next rowInside colInside (here.symm ▸ more)
  rw [here] at moved
  rw [← moved]
  exact coords_place nextRowInside nextColInside

theorem coords_zero : layout.coords 0 = (0, 0) := by
  obtain ⟨shape, order⟩ := layout
  cases order with
  | columnMajor => simp [coords]
  | rowMajor => simp [coords]

/-- The walk starts at the first element and is at the element of each offset after as many steps. -/
theorem coords_eq_iterate {offset : Nat} (inside : offset < layout.shape.area) :
    layout.coords offset = layout.next^[offset] (0, 0) := by
  induction offset with
  | zero => exact coords_zero
  | succ offset ih =>
      rw [coords_succ inside, ih (Nat.lt_of_succ_lt inside), Function.iterate_succ_apply']

/-- Only a buffer of one element has lines of one element. -/
theorem contiguousExtent_eq_one_iff (rowsPositive : 0 < layout.shape.rows)
    (colsPositive : 0 < layout.shape.cols) :
    layout.contiguousExtent = 1 ↔ layout.shape.area = 1 := by
  rw [Shape.area, mul_eq_one]
  obtain ⟨⟨rows, cols⟩, order⟩ := layout
  cases order with
  | columnMajor =>
      simp only [contiguousExtent, contiguousMode, rowStride, colStride]
      grind
  | rowMajor =>
      simp only [contiguousExtent, contiguousMode, rowStride, colStride]
      grind

/-- In a buffer that is not empty and whose size is a size, every element has an offset, computed
without a fault, and every offset belongs to exactly one element. The element of the next offset is
the next one along the walked mode, unless the extent of this mode is reached: then it is the first
one of the next line. So the walk meets the element of each offset after as many steps. Only a
buffer of one element has a walked extent of one. -/
theorem walk_visits_memory_in_order (layout : Layout)
    (filled : 0 < layout.shape.rows ∧ 0 < layout.shape.cols)
    (sized : layout.shape.rows * layout.shape.cols < 2 ^ 64) :
    ∃ size, layout.size = .ok size ∧ size = layout.shape.rows * layout.shape.cols ∧
      (∀ row < layout.shape.rows, ∀ col < layout.shape.cols,
        ∃ offset < size, layout.offset row col = .ok offset) ∧
      (∀ offset < size, ∃! position : Nat × Nat,
        (position.1 < layout.shape.rows ∧ position.2 < layout.shape.cols) ∧
          layout.offset position.1 position.2 = .ok offset) ∧
      (∀ here there : Nat × Nat, here.1 < layout.shape.rows → here.2 < layout.shape.cols →
        there.1 < layout.shape.rows → there.2 < layout.shape.cols →
          ∀ offset, layout.offset here.1 here.2 = .ok offset →
            layout.offset there.1 there.2 = .ok (offset + 1) → there = layout.next here) ∧
      (∀ position : Nat × Nat, position.1 < layout.shape.rows → position.2 < layout.shape.cols →
        ∀ offset, layout.offset position.1 position.2 = .ok offset →
          position = layout.next^[offset] (0, 0)) ∧
      (layout.contiguousExtent = 1 ↔ size = 1) := by
  have small : layout.shape.area < Size.bound := sized
  -- The element of an offset is the one that its coordinates name.
  have located (position : Nat × Nat) (rowInside : position.1 < layout.shape.rows)
      (colInside : position.2 < layout.shape.cols) (offset : Nat)
      (found : layout.offset position.1 position.2 = .ok offset) :
      offset < layout.shape.area ∧ position = layout.coords offset := by
    rw [offset_inside small.le rowInside colInside] at found
    cases found
    exact ⟨place_lt rowInside colInside, (coords_place rowInside colInside).symm⟩
  refine ⟨layout.shape.area, Size.mul_of_lt small, rfl, ?_, ?_, ?_, ?_,
    contiguousExtent_eq_one_iff filled.1 filled.2⟩
  · intro row rowInside col colInside
    exact ⟨_, place_lt rowInside colInside, offset_inside small.le rowInside colInside⟩
  · intro offset inside
    exact existsUnique_offset small.le inside
  · intro here there hereRow hereCol thereRow thereCol offset found next
    obtain ⟨-, atHere⟩ := located here hereRow hereCol offset found
    obtain ⟨more, atThere⟩ := located there thereRow thereCol (offset + 1) next
    rw [atThere, atHere]
    exact coords_succ more
  · intro position rowInside colInside offset found
    obtain ⟨inside, atOffset⟩ := located position rowInside colInside offset found
    rw [atOffset]
    exact coords_eq_iterate inside

/-- A single row as long as a size allows lies on one line, although the memory order puts the lines
along the rows. -/
theorem walk_visits_memory_in_order_single_row :
    let layout := columnMajor ⟨1, 2 ^ 64 - 1⟩
    layout.contiguousMode = .cols ∧ layout.offset 0 (2 ^ 64 - 3) = .ok (2 ^ 64 - 3) ∧
      (0, 2 ^ 64 - 2) = layout.next (0, 2 ^ 64 - 3) ∧ layout.contiguousExtent ≠ 1 := by
  intro layout
  obtain ⟨size, sized, whole, -, -, step, -, single⟩ :=
    walk_visits_memory_in_order layout (by decide) (by decide)
  have found : layout.offset 0 (2 ^ 64 - 3) = .ok (2 ^ 64 - 3) := by decide +kernel
  have further : layout.offset 0 (2 ^ 64 - 2) = .ok (2 ^ 64 - 2) := by decide +kernel
  refine ⟨rfl, found, step (0, _) (0, _) (by decide) (by decide) (by decide) (by decide) _ found
    further, ?_⟩
  rw [Ne, single, whole]
  decide

end Layout

end GridCopy
