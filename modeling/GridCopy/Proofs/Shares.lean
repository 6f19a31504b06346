import Mathlib.Data.List.Nodup
import Mathlib.Data.List.Pairwise
import Mathlib.Data.List.Perm.Subperm
import GridCopy.Plan.Partition
import GridCopy.Proofs.Tilings

/-!
# Shares

What each unit of a valid plan owns. `share_exact` gives the chunks of a unit in closed form, and
`elements_perm` says that the units of a launch together own every place of the buffer exactly once.
-/

namespace GridCopy

namespace Plan

/-- The unit of an owner is one of a cube of the launch. -/
def InGrid (plan : Plan) (owner : Owner) : Prop :=
  owner.tileRow < plan.gridShape.rows ∧ owner.tileCol < plan.gridShape.cols ∧
    owner.unit < plan.unitCount

/-- The row and column of the first element of a chunk. -/
def chunkCorner (plan : Plan) (owner : Owner) (repetition : Nat × Nat) : Nat × Nat :=
  (plan.rowAxis.start owner.tileRow (owner.unit % plan.threads.shape.rows) repetition.1,
    plan.colAxis.start owner.tileCol (owner.unit / plan.threads.shape.rows) repetition.2)

/-- The first element of a chunk, as the tiling names it. -/
def chunkElement (plan : Plan) (owner : Owner) (repetition : Nat × Nat) : Tiling.Element :=
  ⟨owner.tileRow, owner.tileCol,
    owner.unit % plan.threads.shape.rows * plan.policy.vector.rows +
      repetition.1 * plan.rowAxis.step,
    owner.unit / plan.threads.shape.rows * plan.policy.vector.cols +
      repetition.2 * plan.colAxis.step⟩

/-- The place of the first element of a chunk. -/
def chunkPlace (plan : Plan) (owner : Owner) (repetition : Nat × Nat) : Nat :=
  plan.layout.place (plan.chunkCorner owner repetition).1 (plan.chunkCorner owner repetition).2

/-- The share of a unit, computed without bounds on sizes. -/
def exactShare (plan : Plan) (owner : Owner) : Partition :=
  ⟨plan.repeatShape.positions.map (plan.chunkPlace owner), plan.width⟩

/-- The places of the elements of a share, chunk by chunk. -/
def elements (plan : Plan) (owner : Owner) : List Nat :=
  (plan.exactShare owner).chunks.flatMap fun base => List.range' base plan.width

/-- The units of a launch, in the order of `owners`. -/
def ownerList (plan : Plan) : List Owner :=
  plan.gridShape.positions.flatMap fun tile =>
    (List.range plan.unitCount).map fun unit => ⟨tile.1, tile.2, unit⟩

/-- The shares of a launch, in the order of its units. -/
def shares (plan : Plan) : List Partition := plan.ownerList.map plan.exactShare

/-- The unit that the policy gives the element `(row, col)` to. -/
def ownerAt (plan : Plan) (row col : Nat) : Owner :=
  ⟨plan.rowAxis.tileOf row, plan.colAxis.tileOf col,
    plan.rowAxis.threadOf row + plan.threads.shape.rows * plan.colAxis.threadOf col⟩

/-- Two nested counters, the inner one fastest, count like one. -/
theorem flatMap_range_map {α : Type} (count base : Nat) (value : Nat → Nat → α) :
    ((List.range count).flatMap fun high => (List.range base).map fun low => value low high) =
      (List.range (count * base)).map fun number => value (number % base) (number / base) := by
  induction count with
  | zero => simp
  | succ count ih =>
      rw [List.range_succ, List.flatMap_append, ih, Nat.succ_mul, List.range_add, List.map_append,
        List.flatMap_singleton, List.map_map]
      congr 1
      refine List.map_congr_left fun low inside => ?_
      have inBase := List.mem_range.mp inside
      rw [Function.comp_apply, Nat.add_comm, Nat.mul_comm count, Axis.pair_mod inBase,
        Axis.pair_div inBase]

theorem positions_numbered (shape : Shape) :
    shape.positions =
      (List.range (shape.cols * shape.rows)).map fun number =>
        (number % shape.rows, number / shape.rows) :=
  flatMap_range_map shape.cols shape.rows fun row col => (row, col)

/-- The units of a launch, numbered unit by unit, then tile row by tile row. -/
theorem ownerList_numbered (plan : Plan) :
    plan.ownerList = (List.range (plan.gridShape.area * plan.unitCount)).map fun number =>
      ⟨number / plan.unitCount % plan.gridShape.rows,
        number / plan.unitCount / plan.gridShape.rows, number % plan.unitCount⟩ := by
  rw [ownerList, positions_numbered, List.flatMap_map, Shape.area,
    Nat.mul_comm plan.gridShape.rows]
  exact flatMap_range_map _ plan.unitCount fun unit tile =>
    Owner.mk (tile % plan.gridShape.rows) (tile / plan.gridShape.rows) unit

theorem mem_ownerList {plan : Plan} {owner : Owner} :
    owner ∈ plan.ownerList ↔ plan.InGrid owner := by
  simp only [ownerList, List.mem_flatMap, List.mem_map, List.mem_range, Shape.mem_positions]
  constructor
  · rintro ⟨tile, ⟨rowInside, colInside⟩, unit, unitInside, rfl⟩
    exact ⟨rowInside, colInside, unitInside⟩
  · rintro ⟨rowInside, colInside, unitInside⟩
    exact ⟨(owner.tileRow, owner.tileCol), ⟨rowInside, colInside⟩, owner.unit, unitInside, rfl⟩

theorem ownerList_length (plan : Plan) :
    plan.ownerList.length = plan.gridShape.area * plan.unitCount := by
  simp [ownerList, List.length_flatMap, List.map_const', Shape.positions_length]

theorem chunks_length (plan : Plan) (owner : Owner) :
    (plan.exactShare owner).chunks.length = plan.repeatShape.area := by
  rw [exactShare, List.length_map, Shape.positions_length]

theorem runs_length (bases : List Nat) (width : Nat) :
    (bases.flatMap fun base => List.range' base width).length = bases.length * width := by
  simp [List.length_flatMap, List.map_const']

theorem elements_length (plan : Plan) (owner : Owner) :
    (plan.elements owner).length = plan.repeatShape.area * plan.width := by
  rw [elements, runs_length, chunks_length]

namespace Valid

variable {plan : Plan} {owner : Owner} {repetition : Nat × Nat}

/-! ## The place of a unit and of its chunks -/

theorem coords_inside (valid : plan.Valid) (inGrid : plan.InGrid owner) :
    owner.unit % plan.threads.shape.rows < plan.threads.shape.rows ∧
      owner.unit / plan.threads.shape.rows < plan.threads.shape.cols :=
  ⟨Nat.mod_lt _ valid.rows.threadsPositive, Nat.div_lt_of_lt_mul inGrid.2.2⟩

theorem coords_exact (valid : plan.Valid) (unit : Nat) :
    plan.threads.coords unit =
      .ok (unit % plan.threads.shape.rows, unit / plan.threads.shape.rows) := by
  have positive : 0 < plan.threads.shape.rows := valid.rows.threadsPositive
  simp [Arrangement.coords, Size.rem_of_pos positive, Size.div_of_pos positive, bind, Except.bind,
    pure, Except.pure]

/-- The first element of a chunk lies in the tile of its unit. -/
theorem chunkElement_inside (valid : plan.Valid) (inGrid : plan.InGrid owner)
    (repeated : repetition ∈ plan.repeatShape.positions) :
    (plan.chunkElement owner repetition).Inside plan.gridShape plan.tile := by
  obtain ⟨rowRepeated, colRepeated⟩ := Shape.mem_positions.mp repeated
  obtain ⟨threadRow, threadCol⟩ := valid.coords_inside inGrid
  exact ⟨inGrid.1, inGrid.2.1,
    valid.rows.offset_lt_tile threadRow rowRepeated valid.rows.vectorPositive,
    valid.cols.offset_lt_tile threadCol colRepeated valid.cols.vectorPositive⟩

theorem chunkCorner_inside (valid : plan.Valid) (inGrid : plan.InGrid owner)
    (repeated : repetition ∈ plan.repeatShape.positions) :
    (plan.chunkCorner owner repetition).1 < plan.layout.shape.rows ∧
      (plan.chunkCorner owner repetition).2 < plan.layout.shape.cols :=
  valid.tiling.position_inside (valid.chunkElement_inside inGrid repeated)

theorem chunkBase_exact (valid : plan.Valid) (inGrid : plan.InGrid owner)
    (repeated : repetition ∈ plan.repeatShape.positions) :
    plan.chunkBase owner plan.stepShape (owner.unit % plan.threads.shape.rows)
      (owner.unit / plan.threads.shape.rows) repetition = .ok (plan.chunkPlace owner repetition) := by
  have inside := valid.chunkElement_inside inGrid repeated
  obtain ⟨rowStart, rowMoved, rowSum⟩ :=
    plan.rowAxis.offset_steps (owner.unit % plan.threads.shape.rows) repetition.1
      (inside.row.trans valid.tiling.tile_lt_bound.1)
  obtain ⟨colStart, colMoved, colSum⟩ :=
    plan.colAxis.offset_steps (owner.unit / plan.threads.shape.rows) repetition.2
      (inside.col.trans valid.tiling.tile_lt_bound.2)
  simp only [rowAxis] at rowStart rowMoved rowSum
  simp only [colAxis] at colStart colMoved colSum
  simp only [chunkBase, stepShape, rowAxis, colAxis, bind, Except.bind, rowStart, rowMoved, rowSum,
    colStart, colMoved, colSum]
  exact valid.tiling.offset_exact inside

theorem share_exact (valid : plan.Valid) (inGrid : plan.InGrid owner) :
    plan.share owner = .ok (plan.exactShare owner) := by
  have bases := mapM_ok fun repetition (repeated : repetition ∈ plan.repeatShape.positions) =>
    valid.chunkBase_exact inGrid repeated
  simp only [share, valid.coords_exact, valid.step_exact, valid.repeats_exact,
    valid.repeatShape_size, valid.width_exact, bases, bind, Except.bind, pure, Except.pure,
    exactShare]

theorem partition_exact (valid : plan.Valid) (inGrid : plan.InGrid owner) :
    plan.partition owner = .ok (plan.exactShare owner) := by
  have shared := valid.share_exact inGrid
  obtain ⟨rowInside, colInside, unitInside⟩ := inGrid
  simp only [partition, valid.grid_exact, valid.unitsPerTile_exact, shared, lift_ok, bind,
    Except.bind]
  simp [Nat.not_le.mpr rowInside, Nat.not_le.mpr colInside, Nat.not_le.mpr unitInside]

/-! ## The elements of a share -/

/-- The lanes of a vector lie next to each other in memory. -/
theorem place_lane (valid : plan.Valid) (row col : Nat) {lane : Nat} (inside : lane < plan.width) :
    plan.layout.place (row + lane % plan.policy.vector.rows)
      (col + lane / plan.policy.vector.rows) = plan.layout.place row col + lane := by
  simp only [width, Shape.area] at inside
  rcases valid.alongMemory with single | along
  · rw [Shape.area] at single
    obtain rfl : lane = 0 := by omega
    simp
  · unfold alongContiguousMode at along
    -- The vector is one element wide across the walked mode, so a lane moves by the unit stride.
    split at along
    · next walked =>
        rw [beq_iff_eq] at along
        rw [along, Nat.mul_one] at inside
        simp only [Layout.place, Layout.rowStride_of_contiguousMode walked,
          Nat.mod_eq_of_lt inside, Nat.div_eq_of_lt inside, Nat.add_zero, Nat.mul_one]
        omega
    · next walked =>
        rw [beq_iff_eq] at along
        simp only [along, Nat.mod_one, Nat.div_one, Nat.add_zero, Nat.mul_one, Layout.place,
          Layout.colStride_of_contiguousMode walked]
        omega

theorem lane_inside (valid : plan.Valid) {lane : Nat} (inside : lane < plan.width) :
    lane % plan.policy.vector.rows < plan.policy.vector.rows ∧
      lane / plan.policy.vector.rows < plan.policy.vector.cols :=
  ⟨Nat.mod_lt _ valid.rows.vectorPositive, Nat.div_lt_of_lt_mul inside⟩

/-- A chunk stays inside the buffer. -/
theorem chunkPlace_add_lt (valid : plan.Valid) (inGrid : plan.InGrid owner)
    (repeated : repetition ∈ plan.repeatShape.positions) {lane : Nat}
    (inside : lane < plan.width) :
    plan.chunkPlace owner repetition + lane < plan.layout.shape.area := by
  obtain ⟨rowRepeated, colRepeated⟩ := Shape.mem_positions.mp repeated
  obtain ⟨threadRow, threadCol⟩ := valid.coords_inside inGrid
  obtain ⟨rowLane, colLane⟩ := valid.lane_inside inside
  rw [chunkPlace, ← valid.place_lane _ _ inside]
  exact Layout.place_lt (valid.rows.start_add_lt inGrid.1 threadRow rowRepeated rowLane)
    (valid.cols.start_add_lt inGrid.2.1 threadCol colRepeated colLane)

theorem chunkPlace_add_width_le (valid : plan.Valid) (inGrid : plan.InGrid owner)
    (repeated : repetition ∈ plan.repeatShape.positions) :
    plan.chunkPlace owner repetition + plan.width ≤ plan.layout.shape.area := by
  have positive := valid.widthPositive
  have last := valid.chunkPlace_add_lt inGrid repeated (Nat.sub_lt positive Nat.one_pos)
  omega

/-- Every chunk starts at a multiple of the width. -/
theorem width_dvd_chunkPlace (valid : plan.Valid) (inGrid : plan.InGrid owner)
    (repeated : repetition ∈ plan.repeatShape.positions) :
    plan.width ∣ plan.chunkPlace owner repetition := by
  have rowStart : plan.policy.vector.rows ∣ (plan.chunkCorner owner repetition).1 :=
    valid.rows.vector_dvd_start _ _ _
  have colStart : plan.policy.vector.cols ∣ (plan.chunkCorner owner repetition).2 :=
    valid.cols.vector_dvd_start _ _ _
  obtain ⟨rowInside, colInside⟩ := valid.chunkCorner_inside inGrid repeated
  rw [chunkPlace, Layout.place]
  rcases valid.alongMemory with single | along
  · exact (show plan.width = 1 from single) ▸ Nat.one_dvd _
  · unfold alongContiguousMode at along
    split at along
    · next walked =>
        rw [beq_iff_eq] at along
        rw [width, Shape.area, along, Nat.mul_one]
        refine Nat.dvd_add (rowStart.mul_right _) ?_
        rcases Layout.colStride_of_rows_walked walked with whole | flat
        · exact whole ▸ valid.rows.vector_dvd_extent.mul_left _
        · have first : (plan.chunkCorner owner repetition).2 = 0 := by omega
          simp [first]
    · next walked =>
        rw [beq_iff_eq] at along
        rw [width, Shape.area, along, Nat.one_mul]
        refine Nat.dvd_add ?_ (colStart.mul_right _)
        rcases Layout.rowStride_of_cols_walked walked with whole | flat
        · exact whole ▸ valid.cols.vector_dvd_extent.mul_left _
        · have first : (plan.chunkCorner owner repetition).1 = 0 := by omega
          simp [first]

theorem offsets_exact (valid : plan.Valid) (inGrid : plan.InGrid owner) :
    (plan.exactShare owner).offsets = .ok (plan.elements owner) := by
  have runs : ∀ base ∈ (plan.exactShare owner).chunks,
      Partition.chunkOffsets plan.width base = .ok (List.range' base plan.width) := by
    intro base member
    obtain ⟨repetition, repeated, rfl⟩ := List.mem_map.mp member
    have fits := (valid.chunkPlace_add_width_le inGrid repeated).trans valid.small
    simp [Partition.chunkOffsets, Size.add_of_lt (Nat.lt_of_le_of_lt fits maxElements_lt_bound),
      bind, Except.bind, pure, Except.pure]
  have listed := mapM_ok runs
  simp only [Partition.offsets, bind, Except.bind, pure, Except.pure]
  rw [show (plan.exactShare owner).width = plan.width from rfl, listed]
  rfl

theorem share_size (valid : plan.Valid) (owner : Owner) :
    (plan.exactShare owner).size = .ok (plan.repeatShape.area * plan.width) := by
  rw [Partition.size, chunks_length]
  exact Size.mul_of_lt (Nat.lt_of_le_of_lt (valid.share_le.trans valid.small) maxElements_lt_bound)

theorem ownerAt_inGrid (valid : plan.Valid) {row col : Nat}
    (rowInside : row < plan.layout.shape.rows) (colInside : col < plan.layout.shape.cols) :
    plan.InGrid (plan.ownerAt row col) :=
  ⟨valid.rows.tileOf_lt rowInside, valid.cols.tileOf_lt colInside,
    Axis.pair_lt (valid.rows.threadOf_lt row) (valid.cols.threadOf_lt col)⟩

/-- The unit that the policy names does own the element. -/
theorem place_mem_elements (valid : plan.Valid) (row col : Nat) :
    plan.layout.place row col ∈ plan.elements (plan.ownerAt row col) := by
  let repetition := (plan.rowAxis.repetitionOf row, plan.colAxis.repetitionOf col)
  let lane := plan.rowAxis.laneOf row + plan.policy.vector.rows * plan.colAxis.laneOf col
  have repeated : repetition ∈ plan.repeatShape.positions :=
    Shape.mem_positions.mpr ⟨valid.rows.repetitionOf_lt row, valid.cols.repetitionOf_lt col⟩
  have inWidth : lane < plan.width :=
    Axis.pair_lt (valid.rows.laneOf_lt row) (valid.cols.laneOf_lt col)
  have threadRow : (plan.ownerAt row col).unit % plan.threads.shape.rows =
      plan.rowAxis.threadOf row := Axis.pair_mod (valid.rows.threadOf_lt row) _
  have threadCol : (plan.ownerAt row col).unit / plan.threads.shape.rows =
      plan.colAxis.threadOf col := Axis.pair_div (valid.rows.threadOf_lt row) _
  have laneRow : lane % plan.policy.vector.rows = plan.rowAxis.laneOf row :=
    Axis.pair_mod (valid.rows.laneOf_lt row) _
  have laneCol : lane / plan.policy.vector.rows = plan.colAxis.laneOf col :=
    Axis.pair_div (valid.rows.laneOf_lt row) _
  have placed : plan.chunkPlace (plan.ownerAt row col) repetition + lane =
      plan.layout.place row col := by
    rw [chunkPlace, ← valid.place_lane _ _ inWidth, laneRow, laneCol, chunkCorner, threadRow,
      threadCol]
    exact congrArg₂ plan.layout.place (valid.rows.start_add_laneOf row)
      (valid.cols.start_add_laneOf col)
  simp only [elements, exactShare, List.mem_flatMap, List.mem_map, List.mem_range'_1]
  exact ⟨_, ⟨repetition, repeated, rfl⟩, by omega, by omega⟩

/-- The units of a launch own every place of the buffer, and each place once. -/
theorem elements_perm (valid : plan.Valid) :
    (plan.ownerList.flatMap plan.elements).Perm (List.range plan.layout.shape.area) := by
  have covered : List.range plan.layout.shape.area ⊆ plan.ownerList.flatMap plan.elements := by
    intro offset member
    obtain ⟨rowInside, colInside⟩ := Layout.coords_inside (List.mem_range.mp member)
    have owned := valid.place_mem_elements (plan.layout.coords offset).1
      (plan.layout.coords offset).2
    rw [Layout.place_coords] at owned
    exact List.mem_flatMap.mpr ⟨_, mem_ownerList.mpr (valid.ownerAt_inGrid rowInside colInside), owned⟩
  -- As many elements are handed out as there are places, so nothing is handed out twice.
  have counted : (plan.ownerList.flatMap plan.elements).length = plan.layout.shape.area := by
    rw [← valid.elements_count, ← ownerList_length]
    simp [List.length_flatMap, elements_length, List.map_const']
  refine ((List.subperm_of_subset List.nodup_range covered).perm_of_length_le ?_).symm
  rw [counted, List.length_range]

/-- A unit of the launch owns an element exactly when the policy names it. -/
theorem mem_elements_iff (valid : plan.Valid) (inGrid : plan.InGrid owner) {row col : Nat}
    (rowInside : row < plan.layout.shape.rows) (colInside : col < plan.layout.shape.cols) :
    plan.layout.place row col ∈ plan.elements owner ↔ owner = plan.ownerAt row col := by
  constructor
  · intro owned
    by_contra other
    have distinct := List.nodup_flatMap.mp (valid.elements_perm.nodup_iff.mpr List.nodup_range)
    have symmetric : Std.Symm (Function.onFun List.Disjoint plan.elements) :=
      ⟨fun _ _ apart offset member owned => apart owned member⟩
    have apart := distinct.2.forall (mem_ownerList.mpr inGrid)
      (mem_ownerList.mpr (valid.ownerAt_inGrid rowInside colInside)) other
    exact apart owned (valid.place_mem_elements row col)
  · rintro rfl
    exact valid.place_mem_elements row col

/-! ## The whole launch -/

theorem owners_exact (valid : plan.Valid) : plan.owners = .ok plan.ownerList := by
  simp only [owners, valid.grid_exact, valid.unitsPerTile_exact, bind, Except.bind, pure,
    Except.pure, ownerList]

theorem partitions_exact (valid : plan.Valid) :
    plan.partitions = .ok (plan.ownerList.map fun owner => (owner, plan.exactShare owner)) := by
  have shares : ∀ owner ∈ plan.ownerList,
      (do let partition ← plan.share owner; return (owner, partition) : Checked (Owner × Partition)) =
        .ok (owner, plan.exactShare owner) := by
    intro owner member
    simp only [valid.share_exact (mem_ownerList.mp member), bind, Except.bind, pure, Except.pure]
  have listed := mapM_ok shares
  simp only [partitions, valid.owners_exact, bind, Except.bind, pure, Except.pure] at listed ⊢
  exact listed

theorem chunk_inside (valid : plan.Valid) {partition : Partition}
    (listed : partition ∈ plan.shares) {base : Nat} (member : base ∈ partition.chunks) :
    base + plan.width ≤ plan.layout.shape.area := by
  obtain ⟨owner, inGrid, rfl⟩ := List.mem_map.mp listed
  obtain ⟨repetition, repeated, rfl⟩ := List.mem_map.mp member
  exact valid.chunkPlace_add_width_le (mem_ownerList.mp inGrid) repeated

theorem shares_perm (valid : plan.Valid) :
    ((plan.shares.flatMap Partition.chunks).flatMap fun base => List.range' base plan.width).Perm
      (List.range plan.layout.shape.area) := by
  rw [shares, List.flatMap_map, List.flatMap_assoc]
  exact valid.elements_perm

theorem chunk_covers (valid : plan.Valid) {place : Nat}
    (inside : place < plan.layout.shape.area) :
    ∃ partition ∈ plan.shares, ∃ base ∈ partition.chunks,
      base ≤ place ∧ place < base + plan.width := by
  have owned := valid.shares_perm.mem_iff.mpr (List.mem_range.mpr inside)
  simp only [List.mem_flatMap, List.mem_range'_1] at owned
  obtain ⟨base, ⟨partition, listed, member⟩, covering⟩ := owned
  exact ⟨partition, listed, base, member, covering⟩

theorem chunk_aligned (valid : plan.Valid) {base : Nat}
    (member : base ∈ plan.shares.flatMap Partition.chunks) : plan.width ∣ base := by
  obtain ⟨partition, listed, chunk⟩ := List.mem_flatMap.mp member
  obtain ⟨owner, inGrid, rfl⟩ := List.mem_map.mp listed
  obtain ⟨repetition, repeated, rfl⟩ := List.mem_map.mp chunk
  exact valid.width_dvd_chunkPlace (mem_ownerList.mp inGrid) repeated

/-- The chunks of a launch are the lines of the buffer, each of them once. -/
theorem chunks_perm (valid : plan.Valid) {lines : Nat}
    (whole : plan.layout.shape.area = lines * plan.width) :
    (plan.shares.flatMap Partition.chunks).Perm
      ((List.range lines).map fun line => line * plan.width) := by
  have places := valid.shares_perm
  rw [whole] at places
  have counted : (plan.shares.flatMap Partition.chunks).length = lines := by
    have elements := places.length_eq
    rw [runs_length, List.length_range] at elements
    exact Nat.eq_of_mul_eq_mul_right valid.widthPositive elements
  have distinct : ((List.range lines).map fun line => line * plan.width).Nodup :=
    List.nodup_range.map fun _ _ same => Nat.eq_of_mul_eq_mul_right valid.widthPositive same
  have covered : ((List.range lines).map fun line => line * plan.width) ⊆
      plan.shares.flatMap Partition.chunks := by
    intro place member
    obtain ⟨line, inside, rfl⟩ := List.mem_map.mp member
    have below : line * plan.width < lines * plan.width :=
      Nat.mul_lt_mul_of_pos_right (List.mem_range.mp inside) valid.widthPositive
    obtain ⟨base, chunk, covering⟩ :=
      List.mem_flatMap.mp (places.mem_iff.mpr (List.mem_range.mpr below))
    -- The chunk that covers the start of a line starts at a multiple of the width, so at the line.
    obtain ⟨number, rfl⟩ := valid.chunk_aligned chunk
    rw [Nat.mul_comm plan.width number] at chunk covering
    obtain ⟨before, after⟩ := List.mem_range'_1.mp covering
    rw [← Nat.succ_mul] at after
    have same : number = line :=
      Nat.le_antisymm (Nat.le_of_mul_le_mul_right before valid.widthPositive)
        (Nat.le_of_lt_succ (Nat.lt_of_mul_lt_mul_right after))
    exact same ▸ chunk
  refine ((List.subperm_of_subset distinct covered).perm_of_length_le ?_).symm
  rw [counted, List.length_map, List.length_range]

end Valid

end Plan

end GridCopy
