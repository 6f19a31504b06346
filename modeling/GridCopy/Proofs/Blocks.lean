import GridCopy.Proofs.Shares

/-!
# Chunks as blocks

A chunk of a share is a block of one vector of elements inside its tile, and memory holds this block
in one aligned piece.

Results:
1. `Axis.Fits.start_add_in_tile`: a lane of a vector stays inside the tile.
2. `Plan.Valid.block_places`, `Plan.Valid.block_exact`: the places of a block, column by column,
   count up from its chunk.
3. `Plan.Valid.chunks_nodup`: the chunks of a share are distinct.
4. `Plan.partition_lists_blocks`: the partition of a unit lists its blocks in order.
-/

namespace GridCopy

namespace Axis

/-- A lane of a vector lies between the first place of its tile and that of the next one. -/
theorem Fits.start_add_in_tile {axis : Axis} (fits : axis.Fits) (tile : Nat)
    {thread repetition lane : Nat} (threadInside : thread < axis.threads)
    (repetitionInside : repetition < axis.repeats) (laneInside : lane < axis.vector) :
    tile * axis.tile ≤ axis.start tile thread repetition + lane ∧
      axis.start tile thread repetition + lane < (tile + 1) * axis.tile := by
  have inTile := fits.offset_lt_tile threadInside repetitionInside laneInside
  rw [Nat.succ_mul, start]
  constructor
  · omega
  · omega

end Axis

namespace Plan

variable {plan : Plan} {owner : Owner} {repetition : Nat × Nat}

/-- A unit starts at its place in the first step of its tile and moves on by whole steps. -/
theorem chunkCorner_eq (plan : Plan) (owner : Owner) (repetition : Nat × Nat) :
    plan.chunkCorner owner repetition =
      (owner.tileRow * plan.tile.rows +
          (owner.unit % plan.threads.shape.rows * plan.policy.vector.rows +
            repetition.1 * (plan.threads.shape.rows * plan.policy.vector.rows)),
        owner.tileCol * plan.tile.cols +
          (owner.unit / plan.threads.shape.rows * plan.policy.vector.cols +
            repetition.2 * (plan.threads.shape.cols * plan.policy.vector.cols))) := rfl

/-- Chunk number `k` belongs to the repetition whose row counts fastest. -/
theorem chunks_getElem? (plan : Plan) (owner : Owner) {k : Nat}
    (inside : k < plan.repeatShape.area) :
    (plan.exactShare owner).chunks[k]? = some
      (plan.chunkPlace owner (k % plan.repeatShape.rows, k / plan.repeatShape.rows)) := by
  have counted : k < plan.repeatShape.cols * plan.repeatShape.rows := by
    rw [Nat.mul_comm]
    exact inside
  rw [exactShare, positions_numbered, List.map_map, List.getElem?_map,
    List.getElem?_range counted]
  rfl

namespace Valid

theorem repetition_inside (valid : plan.Valid) {k : Nat} (inside : k < plan.repeatShape.area) :
    (k % plan.repeatShape.rows, k / plan.repeatShape.rows) ∈ plan.repeatShape.positions :=
  Shape.mem_positions.mpr
    ⟨Nat.mod_lt _ valid.rows.repeatsPositive, Nat.div_lt_of_lt_mul inside⟩

theorem chunksPerUnit_exact (valid : plan.Valid) :
    plan.chunksPerUnit = .ok plan.repeatShape.area := by
  simp only [chunksPerUnit, valid.repeats_exact, bind, Except.bind, valid.repeatShape_size]

/-- The elements of a block lie inside the tile of its unit. -/
theorem block_in_tile (valid : plan.Valid) (inGrid : plan.InGrid owner)
    (repeated : repetition ∈ plan.repeatShape.positions) {row col : Nat}
    (rowLane : row < plan.policy.vector.rows) (colLane : col < plan.policy.vector.cols) :
    (owner.tileRow * plan.tile.rows ≤ (plan.chunkCorner owner repetition).1 + row ∧
        (plan.chunkCorner owner repetition).1 + row < (owner.tileRow + 1) * plan.tile.rows) ∧
      owner.tileCol * plan.tile.cols ≤ (plan.chunkCorner owner repetition).2 + col ∧
        (plan.chunkCorner owner repetition).2 + col < (owner.tileCol + 1) * plan.tile.cols := by
  obtain ⟨rowRepeated, colRepeated⟩ := Shape.mem_positions.mp repeated
  obtain ⟨threadRow, threadCol⟩ := valid.coords_inside inGrid
  exact ⟨valid.rows.start_add_in_tile _ threadRow rowRepeated rowLane,
    valid.cols.start_add_in_tile _ threadCol colRepeated colLane⟩

/-- Column by column, the places of a block count up from its corner. -/
theorem block_places (valid : plan.Valid) (row col : Nat) :
    (plan.policy.vector.positions.map fun place =>
        plan.layout.place (row + place.1) (col + place.2)) =
      List.range' (plan.layout.place row col) plan.width := by
  rw [positions_numbered, List.map_map, List.range'_eq_map_range, width, Shape.area,
    Nat.mul_comm plan.policy.vector.rows]
  refine List.map_congr_left fun lane listed => ?_
  have inside : lane < plan.width := by
    rw [width, Shape.area, Nat.mul_comm]
    exact List.mem_range.mp listed
  exact valid.place_lane row col inside

theorem block_exact (valid : plan.Valid) (inGrid : plan.InGrid owner)
    (repeated : repetition ∈ plan.repeatShape.positions) :
    (plan.policy.vector.positions.mapM fun place => plan.layout.offset
        ((plan.chunkCorner owner repetition).1 + place.1)
        ((plan.chunkCorner owner repetition).2 + place.2)) =
      .ok (List.range' (plan.chunkPlace owner repetition) plan.width) := by
  obtain ⟨rowRepeated, colRepeated⟩ := Shape.mem_positions.mp repeated
  obtain ⟨threadRow, threadCol⟩ := valid.coords_inside inGrid
  rw [chunkPlace, ← valid.block_places]
  refine mapM_ok fun place member => ?_
  obtain ⟨rowLane, colLane⟩ := Shape.mem_positions.mp member
  exact Layout.offset_inside (valid.small.trans maxElements_lt_bound.le)
    (valid.rows.start_add_lt inGrid.1 threadRow rowRepeated rowLane)
    (valid.cols.start_add_lt inGrid.2.1 threadCol colRepeated colLane)

theorem chunks_nodup (valid : plan.Valid) (inGrid : plan.InGrid owner) :
    (plan.exactShare owner).chunks.Nodup := by
  have distinct := List.nodup_flatMap.mp (valid.elements_perm.nodup_iff.mpr List.nodup_range)
  have ownDistinct : (plan.elements owner).Nodup := distinct.1 owner (mem_ownerList.mpr inGrid)
  have apart := (List.nodup_flatMap.mp ownDistinct).2
  -- Chunks that share no element differ, since each of them holds its own first element.
  refine apart.imp fun {first second} disjoint same => ?_
  subst same
  have held : first ∈ List.range' first plan.width :=
    List.mem_range'_1.mpr ⟨Nat.le_refl first, Nat.lt_add_of_pos_right valid.widthPositive⟩
  exact disjoint held held

end Valid

/-- The partition of a unit of an accepted plan has one chunk for each repetition, in order and all
distinct. Chunk number `k` starts at a multiple of the width and is, element by element, the block
of one vector that the policy gives to the unit in this repetition; the block lies in the tile. -/
theorem partition_lists_blocks {layout : Layout} {tile : Shape} {threads : Arrangement}
    {policy : Policy} {plan : Plan} (accepted : make layout tile threads policy = .ok plan) :
    ∃ size width grid units repeats count, layout.size = .ok size ∧ policy.width = .ok width ∧
      plan.grid = .ok grid ∧ plan.unitsPerTile = .ok units ∧ plan.repeats = .ok repeats ∧
      plan.chunksPerUnit = .ok count ∧
      ∀ tileRow < grid.rows, ∀ tileCol < grid.cols, ∀ unit < units, ∃ partition,
        plan.partition ⟨tileRow, tileCol, unit⟩ = .ok partition ∧ partition.width = width ∧
        partition.chunks.length = count ∧ partition.chunks.Nodup ∧
        partition.offsets =
          .ok (partition.chunks.flatMap fun base => List.range' base width) ∧
        ∀ k < count, ∃ base, partition.chunks[k]? = some base ∧ width ∣ base ∧
          base + width ≤ size ∧
          let vector := policy.vector
          let cornerRow := tileRow * tile.rows + (unit % threads.shape.rows * vector.rows +
            k % repeats.rows * (threads.shape.rows * vector.rows))
          let cornerCol := tileCol * tile.cols + (unit / threads.shape.rows * vector.cols +
            k / repeats.rows * (threads.shape.cols * vector.cols))
          (vector.positions.mapM fun place =>
              layout.offset (cornerRow + place.1) (cornerCol + place.2)) =
            .ok (List.range' base width) ∧
          ∀ row < vector.rows, ∀ col < vector.cols,
            (tileRow * tile.rows ≤ cornerRow + row ∧
              cornerRow + row < (tileRow + 1) * tile.rows) ∧
            tileCol * tile.cols ≤ cornerCol + col ∧
              cornerCol + col < (tileCol + 1) * tile.cols := by
  obtain ⟨rfl, valid⟩ := make_eq_ok_iff.mp accepted
  let plan : Plan := ⟨⟨layout, tile⟩, threads, policy⟩
  refine ⟨_, _, _, _, _, _, valid.size_exact, valid.width_exact, valid.grid_exact,
    valid.unitsPerTile_exact, valid.repeats_exact, valid.chunksPerUnit_exact, ?_⟩
  intro tileRow rowInside tileCol colInside unit unitInside
  have inGrid : plan.InGrid ⟨tileRow, tileCol, unit⟩ := ⟨rowInside, colInside, unitInside⟩
  refine ⟨plan.exactShare ⟨tileRow, tileCol, unit⟩, valid.partition_exact inGrid, rfl,
    chunks_length _ _, valid.chunks_nodup inGrid, valid.offsets_exact inGrid, fun k inside => ?_⟩
  have repeated := valid.repetition_inside inside
  have block := valid.block_exact inGrid repeated
  simp only [chunkCorner_eq] at block
  refine ⟨_, chunks_getElem? _ _ inside, valid.width_dvd_chunkPlace inGrid repeated,
    valid.chunkPlace_add_width_le inGrid repeated, block, ?_⟩
  intro row rowLane col colLane
  exact valid.block_in_tile inGrid repeated rowLane colLane

/-- In a buffer of one row both strides are one, and vectors run along the columns. -/
theorem partition_lists_blocks_single_row :
    ∃ plan partition, make (.columnMajor ⟨1, 16⟩) ⟨1, 8⟩ ⟨⟨1, 1⟩⟩ (.vectorized ⟨1, 4⟩) = .ok plan ∧
      plan.partition ⟨0, 1, 0⟩ = .ok partition ∧ partition.chunks[1]? = some 12 ∧ 4 ∣ 12 ∧
      12 + 4 ≤ 16 ∧
      ((Shape.mk 1 4).positions.mapM fun place =>
        (Layout.columnMajor ⟨1, 16⟩).offset (0 + place.1) (12 + place.2)) =
          .ok [12, 13, 14, 15] := by
  have accepted : make (.columnMajor ⟨1, 16⟩) ⟨1, 8⟩ ⟨⟨1, 1⟩⟩ (.vectorized ⟨1, 4⟩) =
      .ok ⟨⟨.columnMajor ⟨1, 16⟩, ⟨1, 8⟩⟩, ⟨⟨1, 1⟩⟩, .vectorized ⟨1, 4⟩⟩ := rfl
  obtain ⟨size, width, grid, units, repeats, count, sized, wide, gridded, counted, repeated,
    chunked, listed⟩ := partition_lists_blocks accepted
  cases sized
  cases wide
  cases gridded
  cases counted
  cases repeated
  cases chunked
  obtain ⟨partition, owned, -, -, -, -, blocks⟩ :=
    listed 0 (by decide) 1 (by decide) 0 (by decide)
  obtain ⟨base, found, aligned, inside, block, -⟩ := blocks 1 (by decide)
  cases owned
  cases found
  exact ⟨_, _, accepted, rfl, rfl, aligned, inside, block⟩

end Plan

end GridCopy
