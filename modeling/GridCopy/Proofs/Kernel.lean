import Mathlib.Data.List.Zip
import GridCopy.Device.Copy
import GridCopy.Proofs.Shares

/-!
# Kernel arithmetic

A launch computes the places of its chunks a second time, on words that wrap. Under a valid plan no
word is cut and no operation wraps, so every unit makes the moves of its share.
-/

namespace GridCopy

/-! ## Words -/

/-- The product of two words is a word. -/
def MulFits (a b : UInt32) : Prop := a.toNat * b.toNat < UInt32.size

/-- The sum of two words is a word. -/
def AddFits (a b : UInt32) : Prop := a.toNat + b.toNat < UInt32.size

theorem MulFits.toNat_mul {a b : UInt32} (fits : MulFits a b) :
    (a * b).toNat = a.toNat * b.toNat := by
  rw [UInt32.toNat_mul]
  exact Nat.mod_eq_of_lt fits

theorem AddFits.toNat_add {a b : UInt32} (fits : AddFits a b) :
    (a + b).toNat = a.toNat + b.toNat := by
  rw [UInt32.toNat_add]
  exact Nat.mod_eq_of_lt fits

theorem word_exact {number : Nat} (small : number ≤ maxElements) :
    (UInt32.ofNat number).toNat = number :=
  UInt32.toNat_ofNat_of_lt' (Nat.lt_of_le_of_lt small (by decide))

/-- No operation on the way to the first place of a chunk in one mode wraps. -/
structure StartFits (cube tile thread vector repetition step : UInt32) : Prop where
  tileFits : MulFits cube tile
  threadFits : MulFits thread vector
  originFits : AddFits (cube * tile) (thread * vector)
  movedFits : MulFits repetition step
  startFits : AddFits (cube * tile + thread * vector) (repetition * step)

/-- The words of one mode lead to the place that the axis gives, when that is small enough. -/
theorem start_words {axis : Axis} {cube tile thread vector repetition step : UInt32} {place : Nat}
    (tileWord : tile.toNat = axis.tile) (vectorWord : vector.toNat = axis.vector)
    (stepWord : step.toNat = axis.step)
    (started : axis.start cube.toNat thread.toNat repetition.toNat = place)
    (inside : place < maxElements) :
    StartFits cube tile thread vector repetition step ∧
      (cube * tile + thread * vector + repetition * step).toNat = place := by
  have small : place < UInt32.size := inside.trans (by decide)
  rw [← started, Axis.start, ← tileWord, ← vectorWord, ← stepWord] at small ⊢
  -- Every partial result is at most the place that it leads to.
  have tileFits : MulFits cube tile := by
    unfold MulFits
    omega
  have threadFits : MulFits thread vector := by
    unfold MulFits
    omega
  have movedFits : MulFits repetition step := by
    unfold MulFits
    omega
  have originFits : AddFits (cube * tile) (thread * vector) := by
    rw [AddFits, tileFits.toNat_mul, threadFits.toNat_mul]
    omega
  have originWord : (cube * tile + thread * vector).toNat =
      cube.toNat * tile.toNat + thread.toNat * vector.toNat := by
    rw [originFits.toNat_add, tileFits.toNat_mul, threadFits.toNat_mul]
  have startFits : AddFits (cube * tile + thread * vector) (repetition * step) := by
    rw [AddFits, originWord, movedFits.toNat_mul]
    omega
  refine ⟨⟨tileFits, threadFits, originFits, movedFits, startFits⟩, ?_⟩
  rw [startFits.toNat_add, originWord, movedFits.toNat_mul, Nat.add_assoc]

/-- The extents of a kernel have products that are words, and no divisor of it is zero. -/
structure Blocking.NoWrap (blocking : Blocking) : Prop where
  stepRows : MulFits blocking.threadRows blocking.vectorRows
  stepCols : MulFits blocking.threadCols blocking.vectorCols
  slots : MulFits blocking.repeatRows blocking.repeatCols
  unitDivisor : blocking.threadRows ≠ 0
  rowDivisor : blocking.stepRows ≠ 0
  colDivisor : blocking.stepCols ≠ 0

/-- Nothing wraps while a unit computes the slot and the line of one repetition. -/
structure Launch.NoWrap (launch : Launch) (place : UnitPlace) (repetition : UInt32 × UInt32) :
    Prop where
  rows : StartFits place.cubeX launch.blocking.tileRows (place.unit % launch.blocking.threadRows)
    launch.blocking.vectorRows repetition.1 launch.blocking.stepRows
  cols : StartFits place.cubeY launch.blocking.tileCols (place.unit / launch.blocking.threadRows)
    launch.blocking.vectorCols repetition.2 launch.blocking.stepCols
  down : MulFits (launch.row place repetition) launch.rowStride
  across : MulFits (launch.col place repetition) launch.colStride
  offset : AddFits (launch.row place repetition * launch.rowStride)
    (launch.col place repetition * launch.colStride)
  slotColumn : MulFits repetition.2 launch.blocking.repeatRows
  slot : AddFits (repetition.2 * launch.blocking.repeatRows) repetition.1
  lineDivisor : launch.input.lineSize ≠ 0

/-- Every quantity of the plan can be read back from the words of the launch. -/
structure Launch.Carries (launch : Launch) (plan : Plan) : Prop where
  grid : plan.grid = .ok ⟨launch.cubeCount.x.toNat, launch.cubeCount.y.toNat⟩
  units : plan.unitsPerTile = .ok launch.cubeDim.x.toNat
  flat : launch.cubeCount.z = 1 ∧ launch.cubeDim.y = 1 ∧ launch.cubeDim.z = 1
  width : plan.policy.width = .ok launch.input.lineSize.toNat
  size : plan.layout.size = .ok (launch.input.lines * launch.input.lineSize.toNat)
  output : launch.output = launch.input
  rowStride : plan.layout.rowStride = launch.rowStride.toNat
  colStride : plan.layout.colStride = launch.colStride.toNat
  tile : plan.tile = ⟨launch.blocking.tileRows.toNat, launch.blocking.tileCols.toNat⟩
  threads : plan.threads.shape =
    ⟨launch.blocking.threadRows.toNat, launch.blocking.threadCols.toNat⟩
  vector : plan.policy.vector =
    ⟨launch.blocking.vectorRows.toNat, launch.blocking.vectorCols.toNat⟩

/-- A unit moves the chunks of a partition, each as one line and through the slot of its number. -/
structure Launch.Follows (launch : Launch) (place : UnitPlace) (partition : Partition) : Prop where
  noWrap : ∀ repetition ∈ launch.blocking.repetitions, launch.NoWrap place repetition
  aligned : ∀ repetition ∈ launch.blocking.repetitions,
    launch.input.lineSize.toNat ∣ (launch.offset place repetition).toNat
  capacity : launch.blocking.slots.toNat = partition.chunks.length
  slots : launch.blocking.repetitions.map (fun repetition =>
    (launch.blocking.slot repetition).toNat) = List.range partition.chunks.length
  lines : launch.blocking.repetitions.map (fun repetition =>
    (launch.line place repetition).toNat) = partition.chunks.map (· / partition.width)
  program : launch.program place = partition.program

/-- The words by which a launch names a unit. -/
def Owner.place (owner : Owner) : UnitPlace :=
  ⟨UInt32.ofNat owner.tileRow, UInt32.ofNat owner.tileCol, UInt32.ofNat owner.unit⟩

/-- The unit that a launch names. -/
def UnitPlace.owner (place : UnitPlace) : Owner :=
  ⟨place.cubeX.toNat, place.cubeY.toNat, place.unit.toNat⟩

/-- The words of a repetition. -/
def Blocking.words (repetition : Nat × Nat) : UInt32 × UInt32 :=
  (UInt32.ofNat repetition.1, UInt32.ofNat repetition.2)

namespace Plan.Valid

variable {plan : Plan}

/-! ## The launch of a valid plan -/

theorem stride_le (valid : plan.Valid) :
    plan.layout.rowStride ≤ maxElements ∧ plan.layout.colStride ≤ maxElements := by
  obtain ⟨rows, cols⟩ := valid.extent_le
  unfold Layout.rowStride Layout.colStride
  cases plan.layout.order with
  | columnMajor => exact ⟨(by decide : 1 ≤ maxElements), rows⟩
  | rowMajor => exact ⟨cols, (by decide : 1 ≤ maxElements)⟩

/-- The buffer is a whole number of lines. -/
theorem width_dvd_size (valid : plan.Valid) : plan.width ∣ plan.layout.shape.area :=
  Nat.mul_dvd_mul valid.rows.vector_dvd_extent valid.cols.vector_dvd_extent

theorem launchOf_exact (valid : plan.Valid) :
    ∃ launch, Device.launchOf plan = .ok launch ∧ launch.Carries plan := by
  obtain ⟨lineSize, lineWord⟩ := valid.lineSize_exact
  have lines : Size.div plan.layout.shape.area (UInt8.ofNat plan.width).toNat =
      .ok (plan.layout.shape.area / plan.width) :=
    lineWord.symm ▸ Size.div_of_pos valid.widthPositive
  have whole := Nat.div_mul_cancel valid.width_dvd_size
  have units : plan.unitCount ≤ maxElements := valid.unitsLimited.trans (by decide)
  obtain ⟨rowExtent, colExtent⟩ := valid.extent_le
  obtain ⟨gridRows, threadRows, vectorRows⟩ := valid.rows.parts_le_extent
  obtain ⟨gridCols, threadCols, vectorCols⟩ := valid.cols.parts_le_extent
  simp only [Device.launchOf, valid.grid_exact, valid.unitsPerTile_exact, lineSize,
    valid.size_exact, lines, bind, Except.bind, pure, Except.pure]
  refine ⟨_, rfl, ?_⟩
  constructor
  · rw [valid.grid_exact]
    exact congrArg Except.ok (congrArg₂ Shape.mk (word_exact (gridRows.trans rowExtent)).symm
      (word_exact (gridCols.trans colExtent)).symm)
  · rw [valid.unitsPerTile_exact]
    exact congrArg Except.ok (word_exact units).symm
  · exact ⟨rfl, rfl, rfl⟩
  · rw [lineWord, valid.width_exact]
  · rw [lineWord, whole, valid.size_exact]
  · rfl
  · exact (word_exact valid.stride_le.1).symm
  · exact (word_exact valid.stride_le.2).symm
  · exact congrArg₂ Shape.mk (word_exact valid.tile_le.1).symm (word_exact valid.tile_le.2).symm
  · exact congrArg₂ Shape.mk (word_exact (threadRows.trans rowExtent)).symm
      (word_exact (threadCols.trans colExtent)).symm
  · exact congrArg₂ Shape.mk (word_exact (vectorRows.trans rowExtent)).symm
      (word_exact (vectorCols.trans colExtent)).symm

end Plan.Valid

namespace Launch.Carries

variable {launch : Launch} {plan : Plan} {owner : Owner} {repetition : Nat × Nat}

/-! ## Words and exact quantities -/

theorem gridShape_eq (carries : launch.Carries plan) (valid : plan.Valid) :
    plan.gridShape = ⟨launch.cubeCount.x.toNat, launch.cubeCount.y.toNat⟩ :=
  Except.ok.inj (valid.grid_exact.symm.trans carries.grid)

theorem unitCount_eq (carries : launch.Carries plan) (valid : plan.Valid) :
    plan.unitCount = launch.cubeDim.x.toNat :=
  Except.ok.inj (valid.unitsPerTile_exact.symm.trans carries.units)

theorem width_eq (carries : launch.Carries plan) (valid : plan.Valid) :
    plan.width = launch.input.lineSize.toNat :=
  Except.ok.inj (valid.width_exact.symm.trans carries.width)

theorem size_eq (carries : launch.Carries plan) (valid : plan.Valid) :
    plan.layout.shape.area = launch.input.lines * plan.width := by
  rw [carries.width_eq valid]
  exact Except.ok.inj (valid.size_exact.symm.trans carries.size)

theorem rowAxis_eq (carries : launch.Carries plan) :
    plan.rowAxis = ⟨plan.layout.shape.rows, launch.blocking.tileRows.toNat,
      launch.blocking.threadRows.toNat, launch.blocking.vectorRows.toNat⟩ := by
  rw [Plan.rowAxis, carries.tile, carries.threads, carries.vector]

theorem colAxis_eq (carries : launch.Carries plan) :
    plan.colAxis = ⟨plan.layout.shape.cols, launch.blocking.tileCols.toNat,
      launch.blocking.threadCols.toNat, launch.blocking.vectorCols.toNat⟩ := by
  rw [Plan.colAxis, carries.tile, carries.threads, carries.vector]

/-- The words of the step of a mode. -/
theorem step_words {axis : Axis} {threads vector : UInt32} (fits : axis.Fits)
    (small : axis.extent ≤ maxElements) (threadWord : axis.threads = threads.toNat)
    (vectorWord : axis.vector = vector.toNat) :
    MulFits threads vector ∧ (threads * vector).toNat = axis.step := by
  have inExtent : threads.toNat * vector.toNat ≤ maxElements := by
    rw [← threadWord, ← vectorWord]
    exact (fits.step_le_tile.trans fits.tile_le_extent).trans small
  have product : MulFits threads vector := Nat.lt_of_le_of_lt inExtent (by decide)
  rw [product.toNat_mul, Axis.step, threadWord, vectorWord]
  exact ⟨product, rfl⟩

theorem stepRows_exact (carries : launch.Carries plan) (valid : plan.Valid) :
    MulFits launch.blocking.threadRows launch.blocking.vectorRows ∧
      launch.blocking.stepRows.toNat = plan.rowAxis.step :=
  step_words valid.rows valid.extent_le.1 (congrArg Axis.threads carries.rowAxis_eq)
    (congrArg Axis.vector carries.rowAxis_eq)

theorem stepCols_exact (carries : launch.Carries plan) (valid : plan.Valid) :
    MulFits launch.blocking.threadCols launch.blocking.vectorCols ∧
      launch.blocking.stepCols.toNat = plan.colAxis.step :=
  step_words valid.cols valid.extent_le.2 (congrArg Axis.threads carries.colAxis_eq)
    (congrArg Axis.vector carries.colAxis_eq)

/-- The kernel's quotients are the repetitions of the plan. -/
theorem repeatShape_eq (carries : launch.Carries plan) (valid : plan.Valid) :
    plan.repeatShape = ⟨launch.blocking.repeatRows.toNat, launch.blocking.repeatCols.toNat⟩ := by
  have rowTile := congrArg Axis.tile carries.rowAxis_eq
  have colTile := congrArg Axis.tile carries.colAxis_eq
  rw [Blocking.repeatRows, Blocking.repeatCols, UInt32.toNat_div, UInt32.toNat_div,
    (carries.stepRows_exact valid).2, (carries.stepCols_exact valid).2]
  exact congrArg₂ Shape.mk (congrArg (· / plan.rowAxis.step) rowTile)
    (congrArg (· / plan.colAxis.step) colTile)

theorem repetitions_exact (carries : launch.Carries plan) (valid : plan.Valid) :
    launch.blocking.repetitions = plan.repeatShape.positions.map Blocking.words := by
  rw [carries.repeatShape_eq valid]
  rfl

theorem slots_exact (carries : launch.Carries plan) (valid : plan.Valid) :
    MulFits launch.blocking.repeatRows launch.blocking.repeatCols ∧
      launch.blocking.slots.toNat = plan.repeatShape.area := by
  have small := valid.repeatShape_area_le.trans valid.small
  rw [carries.repeatShape_eq valid] at small ⊢
  have product : MulFits launch.blocking.repeatRows launch.blocking.repeatCols :=
    Nat.lt_of_le_of_lt small (by decide)
  exact ⟨product, product.toNat_mul⟩

theorem blocking_noWrap (carries : launch.Carries plan) (valid : plan.Valid) :
    launch.blocking.NoWrap where
  stepRows := (carries.stepRows_exact valid).1
  stepCols := (carries.stepCols_exact valid).1
  slots := (carries.slots_exact valid).1
  unitDivisor := by
    rintro zero
    have positive := valid.rows.threadsPositive
    rw [carries.rowAxis_eq, zero] at positive
    contradiction
  rowDivisor := by
    rintro zero
    have positive := valid.rows.stepPositive
    rw [← (carries.stepRows_exact valid).2, zero] at positive
    contradiction
  colDivisor := by
    rintro zero
    have positive := valid.cols.stepPositive
    rw [← (carries.stepCols_exact valid).2, zero] at positive
    contradiction

/-! ## One unit -/

theorem place_words (valid : plan.Valid) (inGrid : plan.InGrid owner) :
    owner.place.cubeX.toNat = owner.tileRow ∧ owner.place.cubeY.toNat = owner.tileCol ∧
      owner.place.unit.toNat = owner.unit := by
  obtain ⟨rowExtent, colExtent⟩ := valid.extent_le
  have row := (inGrid.1.le.trans valid.rows.parts_le_extent.1).trans rowExtent
  have col := (inGrid.2.1.le.trans valid.cols.parts_le_extent.1).trans colExtent
  have unit : owner.unit ≤ maxElements :=
    (inGrid.2.2.le.trans valid.unitsLimited).trans (by decide)
  exact ⟨word_exact row, word_exact col, word_exact unit⟩

theorem repetition_words (valid : plan.Valid)
    (repeated : repetition ∈ plan.repeatShape.positions) :
    (Blocking.words repetition).1.toNat = repetition.1 ∧
      (Blocking.words repetition).2.toNat = repetition.2 := by
  obtain ⟨rowRepeated, colRepeated⟩ := Shape.mem_positions.mp repeated
  have rows := Nat.div_le_self plan.tile.rows plan.rowAxis.step
  have cols := Nat.div_le_self plan.tile.cols plan.colAxis.step
  exact ⟨word_exact ((rowRepeated.le.trans rows).trans valid.tile_le.1),
    word_exact ((colRepeated.le.trans cols).trans valid.tile_le.2)⟩

theorem row_exact (carries : launch.Carries plan) (valid : plan.Valid)
    (inGrid : plan.InGrid owner) (repeated : repetition ∈ plan.repeatShape.positions) :
    StartFits owner.place.cubeX launch.blocking.tileRows
        (owner.place.unit % launch.blocking.threadRows) launch.blocking.vectorRows
        (Blocking.words repetition).1 launch.blocking.stepRows ∧
      (launch.row owner.place (Blocking.words repetition)).toNat =
        (plan.chunkCorner owner repetition).1 := by
  obtain ⟨cube, -, unit⟩ := place_words valid inGrid
  have thread : (owner.place.unit % launch.blocking.threadRows).toNat =
      owner.unit % plan.threads.shape.rows := by
    rw [UInt32.toNat_mod, unit, carries.threads]
  have started : plan.rowAxis.start owner.place.cubeX.toNat
      (owner.place.unit % launch.blocking.threadRows).toNat
      (Blocking.words repetition).1.toNat = (plan.chunkCorner owner repetition).1 := by
    rw [cube, thread, (repetition_words valid repeated).1, Plan.chunkCorner]
  have inside := (valid.chunkCorner_inside inGrid repeated).1
  exact start_words (congrArg Axis.tile carries.rowAxis_eq).symm
    (congrArg Axis.vector carries.rowAxis_eq).symm (carries.stepRows_exact valid).2 started
    (Nat.lt_of_lt_of_le inside valid.extent_le.1)

theorem col_exact (carries : launch.Carries plan) (valid : plan.Valid)
    (inGrid : plan.InGrid owner) (repeated : repetition ∈ plan.repeatShape.positions) :
    StartFits owner.place.cubeY launch.blocking.tileCols
        (owner.place.unit / launch.blocking.threadRows) launch.blocking.vectorCols
        (Blocking.words repetition).2 launch.blocking.stepCols ∧
      (launch.col owner.place (Blocking.words repetition)).toNat =
        (plan.chunkCorner owner repetition).2 := by
  obtain ⟨-, cube, unit⟩ := place_words valid inGrid
  have thread : (owner.place.unit / launch.blocking.threadRows).toNat =
      owner.unit / plan.threads.shape.rows := by
    rw [UInt32.toNat_div, unit, carries.threads]
  have started : plan.colAxis.start owner.place.cubeY.toNat
      (owner.place.unit / launch.blocking.threadRows).toNat
      (Blocking.words repetition).2.toNat = (plan.chunkCorner owner repetition).2 := by
    rw [cube, thread, (repetition_words valid repeated).2, Plan.chunkCorner]
  have inside := (valid.chunkCorner_inside inGrid repeated).2
  exact start_words (congrArg Axis.tile carries.colAxis_eq).symm
    (congrArg Axis.vector carries.colAxis_eq).symm (carries.stepCols_exact valid).2 started
    (Nat.lt_of_lt_of_le inside valid.extent_le.2)

theorem chunkPlace_lt (valid : plan.Valid) (inGrid : plan.InGrid owner)
    (repeated : repetition ∈ plan.repeatShape.positions) :
    plan.chunkPlace owner repetition < UInt32.size := by
  have inside := valid.chunkPlace_add_lt inGrid repeated valid.widthPositive
  exact (Nat.lt_of_lt_of_le inside valid.small).trans (by decide)

/-- The kernel finds the first element of a chunk where the plan puts it. -/
theorem offset_exact (carries : launch.Carries plan) (valid : plan.Valid)
    (inGrid : plan.InGrid owner) (repeated : repetition ∈ plan.repeatShape.positions) :
    MulFits (launch.row owner.place (Blocking.words repetition)) launch.rowStride ∧
      MulFits (launch.col owner.place (Blocking.words repetition)) launch.colStride ∧
      AddFits (launch.row owner.place (Blocking.words repetition) * launch.rowStride)
        (launch.col owner.place (Blocking.words repetition) * launch.colStride) ∧
      (launch.offset owner.place (Blocking.words repetition)).toNat =
        plan.chunkPlace owner repetition := by
  have small := chunkPlace_lt valid inGrid repeated
  rw [Plan.chunkPlace, Layout.place, ← (carries.row_exact valid inGrid repeated).2,
    ← (carries.col_exact valid inGrid repeated).2, carries.rowStride, carries.colStride] at small ⊢
  have down : MulFits (launch.row owner.place (Blocking.words repetition)) launch.rowStride := by
    unfold MulFits
    omega
  have across : MulFits (launch.col owner.place (Blocking.words repetition)) launch.colStride := by
    unfold MulFits
    omega
  rw [← down.toNat_mul, ← across.toNat_mul] at small ⊢
  exact ⟨down, across, small, AddFits.toNat_add small⟩

theorem slot_exact (carries : launch.Carries plan) (valid : plan.Valid)
    (repeated : repetition ∈ plan.repeatShape.positions) :
    MulFits (Blocking.words repetition).2 launch.blocking.repeatRows ∧
      AddFits ((Blocking.words repetition).2 * launch.blocking.repeatRows)
        (Blocking.words repetition).1 ∧
      (launch.blocking.slot (Blocking.words repetition)).toNat =
        repetition.2 * plan.repeatShape.rows + repetition.1 := by
  obtain ⟨rowRepeated, colRepeated⟩ := Shape.mem_positions.mp repeated
  obtain ⟨rowWord, colWord⟩ := repetition_words valid repeated
  have inShare : repetition.2 * plan.repeatShape.rows + repetition.1 <
      plan.repeatShape.cols * plan.repeatShape.rows := Axis.digit_lt colRepeated rowRepeated
  have small := valid.repeatShape_area_le.trans valid.small
  rw [Shape.area, Nat.mul_comm] at small
  have inWord := (Nat.lt_of_lt_of_le inShare small).trans
    (by decide : maxElements < UInt32.size)
  have rows : plan.repeatShape.rows = launch.blocking.repeatRows.toNat :=
    congrArg Shape.rows (carries.repeatShape_eq valid)
  rw [rows, ← rowWord, ← colWord] at inWord ⊢
  have columns : MulFits (Blocking.words repetition).2 launch.blocking.repeatRows := by
    unfold MulFits
    omega
  rw [← columns.toNat_mul] at inWord ⊢
  exact ⟨columns, inWord, AddFits.toNat_add inWord⟩

theorem line_exact (carries : launch.Carries plan) (valid : plan.Valid)
    (inGrid : plan.InGrid owner) (repeated : repetition ∈ plan.repeatShape.positions) :
    (launch.line owner.place (Blocking.words repetition)).toNat =
      plan.chunkPlace owner repetition / plan.width := by
  rw [Launch.line, UInt32.toNat_div, (carries.offset_exact valid inGrid repeated).2.2.2,
    UInt8.toNat_toUInt32, carries.width_eq valid]

/-- A line starts exactly where its chunk does. -/
theorem lineStart_exact (carries : launch.Carries plan) (valid : plan.Valid)
    (inGrid : plan.InGrid owner) (repeated : repetition ∈ plan.repeatShape.positions) :
    launch.lineStart (launch.line owner.place (Blocking.words repetition)) =
      plan.chunkPlace owner repetition := by
  rw [Launch.lineStart, carries.line_exact valid inGrid repeated, ← carries.width_eq valid]
  exact Nat.div_mul_cancel (valid.width_dvd_chunkPlace inGrid repeated)

/-- A unit touches only lines that both buffers have. -/
theorem line_lt (carries : launch.Carries plan) (valid : plan.Valid)
    (inGrid : plan.InGrid owner) (repeated : repetition ∈ plan.repeatShape.positions) :
    (launch.line owner.place (Blocking.words repetition)).toNat < launch.input.lines := by
  have inside := valid.chunkPlace_add_lt inGrid repeated valid.widthPositive
  rw [Nat.add_zero, carries.size_eq valid] at inside
  rw [carries.line_exact valid inGrid repeated]
  exact (Nat.div_lt_iff_lt_mul valid.widthPositive).mpr inside

theorem noWrap (carries : launch.Carries plan) (valid : plan.Valid)
    (inGrid : plan.InGrid owner) (repeated : repetition ∈ plan.repeatShape.positions) :
    launch.NoWrap owner.place (Blocking.words repetition) := by
  obtain ⟨down, across, offset, -⟩ := carries.offset_exact valid inGrid repeated
  obtain ⟨slotColumn, slot, -⟩ := carries.slot_exact valid repeated
  refine ⟨(carries.row_exact valid inGrid repeated).1, (carries.col_exact valid inGrid repeated).1,
    down, across, offset, slotColumn, slot, ?_⟩
  intro zero
  have positive := valid.widthPositive
  rw [carries.width_eq valid, zero] at positive
  contradiction

/-- The slots of a unit are numbered in the order of its repetitions. -/
theorem slots_in_order (carries : launch.Carries plan) (valid : plan.Valid) :
    launch.blocking.repetitions.map (fun repetition =>
      (launch.blocking.slot repetition).toNat) = List.range plan.repeatShape.area := by
  have numbered : ∀ repetition ∈ plan.repeatShape.positions,
      (launch.blocking.slot (Blocking.words repetition)).toNat =
        repetition.2 * plan.repeatShape.rows + repetition.1 :=
    fun repetition repeated => (carries.slot_exact valid repeated).2.2
  rw [carries.repetitions_exact valid, List.map_map]
  refine (List.map_congr_left numbered).trans ?_
  rw [Plan.positions_numbered, List.map_map, Nat.mul_comm]
  exact List.map_id'' (fun number => Nat.div_add_mod' number _) _

/-- A unit makes the moves of its share. -/
theorem program_exact (carries : launch.Carries plan) (valid : plan.Valid)
    (inGrid : plan.InGrid owner) :
    launch.program owner.place = (plan.exactShare owner).program := by
  have bases : launch.blocking.repetitions.map (fun repetition =>
      launch.lineStart (launch.line owner.place repetition)) = (plan.exactShare owner).chunks := by
    rw [carries.repetitions_exact valid, List.map_map]
    exact List.map_congr_left fun repetition repeated =>
      carries.lineStart_exact valid inGrid repeated
  -- Slots and bases run over the same repetitions, so their pairs are the numbered chunks.
  have moves : launch.blocking.repetitions.map (fun repetition =>
      ((launch.blocking.slot repetition).toNat,
        launch.lineStart (launch.line owner.place repetition))) =
      (plan.exactShare owner).chunks.zipIdx.map Prod.swap := by
    rw [← List.zip_map', carries.slots_in_order valid, bases, List.zipIdx_eq_zip_range',
      Plan.chunks_length, List.range_eq_range', List.zip_swap]
  simp only [Launch.program, moves, Partition.program, List.map_map]
  rfl

theorem follows (carries : launch.Carries plan) (valid : plan.Valid) (inGrid : plan.InGrid owner) :
    launch.Follows owner.place (plan.exactShare owner) := by
  constructor
  · intro words member
    rw [carries.repetitions_exact valid] at member
    obtain ⟨repetition, repeated, rfl⟩ := List.mem_map.mp member
    exact carries.noWrap valid inGrid repeated
  · intro words member
    rw [carries.repetitions_exact valid] at member
    obtain ⟨repetition, repeated, rfl⟩ := List.mem_map.mp member
    rw [(carries.offset_exact valid inGrid repeated).2.2.2, ← carries.width_eq valid]
    exact valid.width_dvd_chunkPlace inGrid repeated
  · rw [(carries.slots_exact valid).2, Plan.chunks_length]
  · rw [carries.slots_in_order valid, Plan.chunks_length]
  · rw [carries.repetitions_exact valid, List.map_map, Plan.exactShare, List.map_map]
    exact List.map_congr_left fun repetition repeated => carries.line_exact valid inGrid repeated
  · exact carries.program_exact valid inGrid

/-! ## The whole launch -/

theorem places_exact (carries : launch.Carries plan) (valid : plan.Valid) :
    launch.places = plan.ownerList.map Owner.place := by
  rw [Plan.ownerList, carries.gridShape_eq valid, carries.unitCount_eq valid, List.map_flatMap]
  simp only [List.map_map]
  rfl

/-- The units of a launch run the programs of the shares, in their order. -/
theorem programs_exact (carries : launch.Carries plan) (valid : plan.Valid) :
    launch.programs = plan.shares.map Partition.program := by
  rw [Launch.programs, carries.places_exact valid, Plan.shares, List.map_map, List.map_map]
  exact List.map_congr_left fun owner member =>
    carries.program_exact valid (Plan.mem_ownerList.mp member)

end Launch.Carries

namespace Device

/-- The launch of an accepted plan. No word of it is cut and nothing wraps, its lines fill the
buffer exactly, and every unit of every cube moves the chunks of its partition, each as one line and
in their order. -/
theorem launchOf_follows_partitions {layout : Layout} {tile : Shape} {threads : Arrangement}
    {policy : Policy} {plan : Plan} (accepted : Plan.make layout tile threads policy = .ok plan) :
    ∃ grid units launch, plan.grid = .ok grid ∧ plan.unitsPerTile = .ok units ∧
      launchOf plan = .ok launch ∧ launch.Carries plan ∧ launch.blocking.NoWrap ∧
      plan.repeats = .ok ⟨launch.blocking.repeatRows.toNat, launch.blocking.repeatCols.toNat⟩ ∧
      ∀ owner : Owner, owner.tileRow < grid.rows → owner.tileCol < grid.cols →
        owner.unit < units →
          owner.place ∈ launch.places ∧ owner.place.owner = owner ∧
            ∃ partition, plan.partition owner = .ok partition ∧
              launch.Follows owner.place partition := by
  obtain ⟨-, valid⟩ := Plan.make_eq_ok_iff.mp accepted
  obtain ⟨launch, launched, carries⟩ := valid.launchOf_exact
  have repeats := carries.repeatShape_eq valid ▸ valid.repeats_exact
  refine ⟨_, _, launch, valid.grid_exact, valid.unitsPerTile_exact, launched, carries,
    carries.blocking_noWrap valid, repeats, ?_⟩
  intro owner rowInside colInside unitInside
  have inGrid : plan.InGrid owner := ⟨rowInside, colInside, unitInside⟩
  refine ⟨?_, ?_, _, valid.partition_exact inGrid, carries.follows valid inGrid⟩
  · rw [carries.places_exact valid]
    exact List.mem_map_of_mem (Plan.mem_ownerList.mpr inGrid)
  · obtain ⟨row, col, unit⟩ := Launch.Carries.place_words valid inGrid
    rw [UnitPlace.owner, row, col, unit]

/-- The last unit of a launch over the largest buffer. -/
theorem launchOf_follows_partitions_largest :
    ∃ plan launch,
      Plan.make (.columnMajor ⟨65537, 65535⟩) ⟨1, 51⟩ ⟨⟨1, 17⟩⟩ .striped = .ok plan ∧
        launchOf plan = .ok launch ∧
        launch.Follows ⟨65536, 1284, 16⟩ ⟨[4292739036, 4293853165, 4294967294], 1⟩ := by
  have accepted : Plan.make (.columnMajor ⟨65537, 65535⟩) ⟨1, 51⟩ ⟨⟨1, 17⟩⟩ .striped =
      .ok ⟨⟨.columnMajor ⟨65537, 65535⟩, ⟨1, 51⟩⟩, ⟨⟨1, 17⟩⟩, .striped⟩ := rfl
  obtain ⟨grid, units, launch, gridded, counted, launched, -, -, -, followed⟩ :=
    launchOf_follows_partitions accepted
  cases gridded
  cases counted
  obtain ⟨-, -, partition, shared, follows⟩ :=
    followed ⟨65536, 1284, 16⟩ (by decide) (by decide) (by decide)
  cases shared
  exact ⟨_, launch, accepted, launched, follows⟩

end Device

end GridCopy
