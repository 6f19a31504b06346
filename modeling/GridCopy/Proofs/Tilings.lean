import GridCopy.Proofs.Validity

/-!
# Tilings as renamings

A tiling names each element of a buffer by a tile and a place in that tile. In each mode this splits
a coordinate into a quotient and a remainder by the extent of a tile, and since the tiles fill the
buffer exactly, every such name belongs to an element.

Results:
1. `Tiling.position_elementAt`, `Tiling.elementAt_position`: names and coordinates are
   inverse to each other.
2. `Tiling.Valid.offset_exact`: the offset of an element by its name is the one by its coordinates.
3. `Tiling.offset_renames_elements`: both of these for an accepted tiling and its offsets.
-/

namespace GridCopy

namespace Tiling

/-- An element as a tiling names it: a tile, and a row and a column in this tile. -/
structure Element where
  tileRow : Nat
  tileCol : Nat
  row : Nat
  col : Nat
deriving DecidableEq, Repr

/-- The element lies in a tile of the given shape, and the tile is one of a grid. -/
structure Element.Inside (element : Element) (grid tile : Shape) : Prop where
  tileRow : element.tileRow < grid.rows
  tileCol : element.tileCol < grid.cols
  row : element.row < tile.rows
  col : element.col < tile.cols

/-- The row and column in the buffer. -/
def position (tiling : Tiling) (element : Element) : Nat × Nat :=
  (element.tileRow * tiling.tile.rows + element.row,
    element.tileCol * tiling.tile.cols + element.col)

/-- The name of the element at a row and column of the buffer. -/
def elementAt (tiling : Tiling) (row col : Nat) : Element :=
  ⟨row / tiling.tile.rows, col / tiling.tile.cols, row % tiling.tile.rows, col % tiling.tile.cols⟩

variable {tiling : Tiling} {element : Element} {row col : Nat}

theorem position_elementAt (row col : Nat) :
    tiling.position (tiling.elementAt row col) = (row, col) := by
  rw [position, elementAt, Nat.div_add_mod', Nat.div_add_mod']

theorem elementAt_position (inside : element.Inside tiling.count tiling.tile) :
    tiling.elementAt (tiling.position element).1 (tiling.position element).2 = element := by
  obtain ⟨tileRow, tileCol, row, col⟩ := element
  have rowInside : row < tiling.tile.rows := inside.row
  have colInside : col < tiling.tile.cols := inside.col
  simp only [elementAt, position, Nat.mul_comm tileRow, Nat.mul_comm tileCol,
    Nat.add_comm _ row, Nat.add_comm _ col, Axis.pair_div rowInside, Axis.pair_div colInside,
    Axis.pair_mod rowInside, Axis.pair_mod colInside]

namespace Valid

theorem position_inside (valid : tiling.Valid) (inside : element.Inside tiling.count tiling.tile) :
    (tiling.position element).1 < tiling.layout.shape.rows ∧
      (tiling.position element).2 < tiling.layout.shape.cols := by
  have rows := Axis.digit_lt inside.tileRow inside.row
  have cols := Axis.digit_lt inside.tileCol inside.col
  rw [count, Nat.div_mul_cancel valid.tileDivides.1] at rows
  rw [count, Nat.div_mul_cancel valid.tileDivides.2] at cols
  exact ⟨rows, cols⟩

theorem elementAt_inside (valid : tiling.Valid) (rowInside : row < tiling.layout.shape.rows)
    (colInside : col < tiling.layout.shape.cols) :
    (tiling.elementAt row col).Inside tiling.count tiling.tile where
  tileRow := Nat.div_lt_div_of_lt_of_dvd valid.tileDivides.1 rowInside
  tileCol := Nat.div_lt_div_of_lt_of_dvd valid.tileDivides.2 colInside
  row := Nat.mod_lt _ valid.tilePositive.1
  col := Nat.mod_lt _ valid.tilePositive.2

/-- The offset of an element of a tile is the place of the element that it names. -/
theorem offset_exact (valid : tiling.Valid) (inside : element.Inside tiling.count tiling.tile) :
    tiling.offset element.tileRow element.tileCol element.row element.col =
      .ok (tiling.layout.place (tiling.position element).1 (tiling.position element).2) := by
  obtain ⟨rowInside, colInside⟩ := valid.position_inside inside
  have rowSmall := rowInside.trans valid.extent_lt_bound.1
  have colSmall := colInside.trans valid.extent_lt_bound.2
  simp only [position] at rowSmall colSmall
  -- The origin of the tile is no larger than the coordinates of the element.
  have originRow := Size.mul_of_lt (Nat.lt_of_le_of_lt (Nat.le_add_right _ _) rowSmall)
  have originCol := Size.mul_of_lt (Nat.lt_of_le_of_lt (Nat.le_add_right _ _) colSmall)
  simp only [offset, tileOrigin, originRow, originCol, Size.add_of_lt rowSmall,
    Size.add_of_lt colSmall, bind, Except.bind, pure, Except.pure]
  exact Layout.offset_inside valid.area_lt_bound.le rowInside colInside

/-- An offset below the size belongs to exactly one element of one tile. -/
theorem existsUnique_element (valid : tiling.Valid) {offset : Nat}
    (inside : offset < tiling.layout.shape.area) :
    ∃! element : Element, element.Inside tiling.count tiling.tile ∧
      tiling.offset element.tileRow element.tileCol element.row element.col = .ok offset := by
  obtain ⟨rowInside, colInside⟩ := Layout.coords_inside inside
  have named := valid.elementAt_inside rowInside colInside
  refine ⟨_, ⟨named, ?_⟩, ?_⟩
  · simp only [valid.offset_exact named, position_elementAt, Layout.place_coords]
  · rintro other ⟨otherInside, same⟩
    obtain ⟨otherRow, otherCol⟩ := valid.position_inside otherInside
    rw [valid.offset_exact otherInside] at same
    cases same
    rw [Layout.coords_place otherRow otherCol]
    exact (elementAt_position otherInside).symm

end Valid

/-- An accepted tiling only renames the elements of its buffer. The offsets of the elements of all
tiles are computed without a fault, and each offset below the size belongs to exactly one of them.
The element at a row and column of the buffer is named by their quotients and remainders by the
extents of a tile, and keeps its offset. -/
theorem offset_renames_elements {layout : Layout} {tile : Shape} {tiling : Tiling}
    (accepted : make layout tile = .ok tiling) :
    ∃ size grid, layout.size = .ok size ∧ tiling.tileCount = .ok grid ∧
      (∀ element : Element, element.Inside grid tile → ∃ offset < size,
        tiling.offset element.tileRow element.tileCol element.row element.col = .ok offset) ∧
      (∀ offset < size, ∃! element : Element, element.Inside grid tile ∧
        tiling.offset element.tileRow element.tileCol element.row element.col = .ok offset) ∧
      ∀ row < layout.shape.rows, ∀ col < layout.shape.cols,
        Element.Inside ⟨row / tile.rows, col / tile.cols, row % tile.rows, col % tile.cols⟩
            grid tile ∧
          tiling.offset (row / tile.rows) (col / tile.cols) (row % tile.rows) (col % tile.cols) =
            layout.offset row col := by
  obtain ⟨rfl, valid⟩ := make_eq_ok_iff.mp accepted
  refine ⟨_, _, Shape.size_of_small valid.small, valid.tileCount_exact, ?_, ?_, ?_⟩
  · intro element inside
    obtain ⟨rowInside, colInside⟩ := valid.position_inside inside
    exact ⟨_, Layout.place_lt rowInside colInside, valid.offset_exact inside⟩
  · intro offset inside
    exact valid.existsUnique_element inside
  · intro row rowInside col colInside
    have named := valid.elementAt_inside rowInside colInside
    refine ⟨named, ?_⟩
    calc
      _ = _ := valid.offset_exact named
      _ = .ok (layout.place row col) := by rw [position_elementAt]
      _ = layout.offset row col :=
        (Layout.offset_inside valid.area_lt_bound.le rowInside colInside).symm

/-- The largest buffer that a tiling admits, in row-major order and in tiles of three rows. -/
theorem offset_renames_elements_largest :
    let layout := Layout.rowMajor ⟨3, 1431655765⟩
    ∃ tiling, make layout ⟨3, 5⟩ = .ok tiling ∧
      tiling.offset 0 286331152 2 4 = layout.offset 2 1431655764 ∧
      layout.offset 2 1431655764 = .ok 4294967294 ∧
      ∃! element : Element, element.Inside ⟨1, 286331153⟩ ⟨3, 5⟩ ∧
        tiling.offset element.tileRow element.tileCol element.row element.col =
          .ok 4294967294 := by
  intro layout
  have accepted : make layout ⟨3, 5⟩ = .ok ⟨layout, ⟨3, 5⟩⟩ := by decide +kernel
  obtain ⟨size, grid, sized, gridded, -, unique, renamed⟩ := offset_renames_elements accepted
  have largest : layout.size = .ok 4294967295 := by decide +kernel
  have tiles : (Tiling.mk layout ⟨3, 5⟩).tileCount = .ok ⟨1, 286331153⟩ := by decide +kernel
  obtain rfl := Except.ok.inj (largest.symm.trans sized)
  obtain rfl := Except.ok.inj (tiles.symm.trans gridded)
  exact ⟨_, accepted, (renamed 2 (by decide) 1431655764 (by decide)).2, by decide +kernel,
    unique 4294967294 (by decide)⟩

end Tiling

end GridCopy
