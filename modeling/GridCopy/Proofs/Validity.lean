import Mathlib.Tactic.Ring
import GridCopy.Proofs.Axis
import GridCopy.Proofs.Placement

/-!
# Valid plans

What acceptance guarantees. `Plan.make_eq_ok_iff` turns the chain of checks into one statement, and
under it every quantity derived from a plan is computed without a fault and has its exact value.
-/

namespace GridCopy

theorem maxElements_lt_bound : maxElements < Size.bound := by decide

namespace Shape

theorem size_of_small {shape : Shape} (small : shape.area ≤ maxElements) :
    shape.size = .ok shape.area :=
  Size.mul_of_lt (Nat.lt_of_le_of_lt small maxElements_lt_bound)

theorem size_eq_ok_iff {shape : Shape} {size : Nat} :
    shape.size = .ok size ↔ shape.area < Size.bound ∧ shape.area = size := by
  simp only [Shape.size, Size.mul, area]
  split <;> simp_all

/-- A product that is no size counts as too large. -/
theorem size?_all_eq_false_iff {shape : Shape} :
    shape.size?.all (maxElements < ·) = false ↔ shape.area ≤ maxElements := by
  by_cases sized : shape.area < Size.bound
  · have known : shape.size? = some shape.area := Size.mul?_of_lt sized
    simp [known]
  · have unknown : shape.size? = none := Size.mul?_of_ge (Nat.not_lt.mp sized)
    have large := maxElements_lt_bound
    simp [unknown]
    omega

end Shape

namespace Tiling

/-- A buffer that is not empty and not too large, in whole tiles. -/
structure Valid (tiling : Tiling) : Prop where
  shapePositive : 0 < tiling.layout.shape.rows ∧ 0 < tiling.layout.shape.cols
  tilePositive : 0 < tiling.tile.rows ∧ 0 < tiling.tile.cols
  small : tiling.layout.shape.area ≤ maxElements
  tileDivides : tiling.tile.rows ∣ tiling.layout.shape.rows ∧
    tiling.tile.cols ∣ tiling.layout.shape.cols

theorem make_eq_ok_iff {layout : Layout} {tile : Shape} {tiling : Tiling} :
    make layout tile = .ok tiling ↔ tiling = ⟨layout, tile⟩ ∧ tiling.Valid := by
  constructor
  · intro made
    unfold make at made
    split at made
    · contradiction
    · next shapeFull =>
        split at made
        · contradiction
        · next tileFull =>
            split at made
            · contradiction
            · next small =>
                split at made
                · contradiction
                · next whole =>
                    cases made
                    simp only [Bool.not_eq_true] at shapeFull tileFull small
                    simp only [Bool.not_eq_true', Bool.not_eq_false] at whole
                    exact ⟨rfl, Shape.isEmpty_eq_false_iff.mp shapeFull,
                      Shape.isEmpty_eq_false_iff.mp tileFull,
                      Shape.size?_all_eq_false_iff.mp small, (Shape.isMultipleOf_iff.mp whole).2⟩
  · rintro ⟨rfl, valid⟩
    simp [make, Shape.isEmpty_eq_false_iff.mpr valid.shapePositive,
      Shape.isEmpty_eq_false_iff.mpr valid.tilePositive,
      Shape.size?_all_eq_false_iff.mpr valid.small,
      Shape.isMultipleOf_iff.mpr ⟨valid.tilePositive, valid.tileDivides⟩]

/-- The exact number of tiles along each mode. -/
def count (tiling : Tiling) : Shape :=
  ⟨tiling.layout.shape.rows / tiling.tile.rows, tiling.layout.shape.cols / tiling.tile.cols⟩

namespace Valid

variable {tiling : Tiling}

theorem area_lt_bound (valid : tiling.Valid) : tiling.layout.shape.area < Size.bound :=
  Nat.lt_of_le_of_lt valid.small maxElements_lt_bound

theorem extent_lt_bound (valid : tiling.Valid) :
    tiling.layout.shape.rows < Size.bound ∧ tiling.layout.shape.cols < Size.bound := by
  have rows := Nat.le_mul_of_pos_right tiling.layout.shape.rows valid.shapePositive.2
  have cols := Nat.le_mul_of_pos_left tiling.layout.shape.cols valid.shapePositive.1
  exact ⟨Nat.lt_of_le_of_lt rows valid.area_lt_bound, Nat.lt_of_le_of_lt cols valid.area_lt_bound⟩

theorem tile_lt_bound (valid : tiling.Valid) :
    tiling.tile.rows < Size.bound ∧ tiling.tile.cols < Size.bound := by
  have rows := Nat.le_of_dvd valid.shapePositive.1 valid.tileDivides.1
  have cols := Nat.le_of_dvd valid.shapePositive.2 valid.tileDivides.2
  exact ⟨Nat.lt_of_le_of_lt rows valid.extent_lt_bound.1,
    Nat.lt_of_le_of_lt cols valid.extent_lt_bound.2⟩

theorem tileCount_exact (valid : tiling.Valid) : tiling.tileCount = .ok tiling.count := by
  have rows := Size.divUp_of_dvd valid.tilePositive.1 valid.tileDivides.1
  have cols := Size.divUp_of_dvd valid.tilePositive.2 valid.tileDivides.2
  simp only [tileCount, Shape.divUp, rows, cols, bind, Except.bind, pure, Except.pure, count]

end Valid

end Tiling

namespace Plan

def rowAxis (plan : Plan) : Axis :=
  ⟨plan.layout.shape.rows, plan.tile.rows, plan.threads.shape.rows, plan.policy.vector.rows⟩

def colAxis (plan : Plan) : Axis :=
  ⟨plan.layout.shape.cols, plan.tile.cols, plan.threads.shape.cols, plan.policy.vector.cols⟩

/-- What an accepted plan satisfies: both modes divide evenly, the buffer and the cube are not too
large, and a vector is one supported piece of memory. -/
structure Valid (plan : Plan) : Prop where
  rows : plan.rowAxis.Fits
  cols : plan.colAxis.Fits
  small : plan.layout.shape.area ≤ maxElements
  unitsLimited : plan.threads.shape.area ≤ maxUnits
  alongMemory : plan.policy.vector.area = 1 ∨
    alongContiguousMode plan.layout plan.policy.vector = true
  widthSupported : plan.policy.vector.area ∈ lineSizes

namespace Valid

variable {plan : Plan}

theorem tiling (valid : plan.Valid) : plan.tiling.Valid where
  shapePositive := ⟨valid.rows.extentPositive, valid.cols.extentPositive⟩
  tilePositive := ⟨valid.rows.tilePositive, valid.cols.tilePositive⟩
  small := valid.small
  tileDivides := ⟨valid.rows.tileDivides, valid.cols.tileDivides⟩

theorem threads_isEmpty (valid : plan.Valid) : plan.threads.shape.isEmpty = false :=
  Shape.isEmpty_eq_false_iff.mpr ⟨valid.rows.threadsPositive, valid.cols.threadsPositive⟩

theorem vector_isEmpty (valid : plan.Valid) : plan.policy.vector.isEmpty = false :=
  Shape.isEmpty_eq_false_iff.mpr ⟨valid.rows.vectorPositive, valid.cols.vectorPositive⟩

theorem width_le (valid : plan.Valid) : plan.policy.vector.area ≤ 16 := by
  have supported := valid.widthSupported
  simp only [lineSizes, List.mem_cons, List.not_mem_nil, or_false] at supported
  omega

theorem vector_size (valid : plan.Valid) : plan.policy.vector.size = .ok plan.policy.vector.area :=
  Size.mul_of_lt (Nat.lt_of_le_of_lt valid.width_le (by decide))

end Valid

/-- A request that is no size is larger than any cube. -/
theorem requested_le_iff {shape : Shape} :
    shape.size?.getD Size.largest ≤ maxUnits ↔ shape.area ≤ maxUnits := by
  by_cases sized : shape.area < Size.bound
  · have known : shape.size? = some shape.area := Size.mul?_of_lt sized
    simp [known]
  · have unknown : shape.size? = none := Size.mul?_of_ge (Nat.not_lt.mp sized)
    have largest : maxUnits < Size.largest := by decide
    have beyond : maxUnits < Size.bound := by decide
    simp only [unknown, Option.getD_none]
    omega

theorem arrangementFits_iff {tile threads vector : Shape}
    (tilePositive : 0 < tile.rows ∧ 0 < tile.cols)
    (sized : tile.rows < Size.bound ∧ tile.cols < Size.bound) :
    arrangementFits tile threads vector = true ↔
      threads.rows * vector.rows ∣ tile.rows ∧ threads.cols * vector.cols ∣ tile.cols := by
  constructor
  · intro fits
    simp only [arrangementFits, Option.any_eq_true, Shape.scale?, Size.mul?] at fits
    obtain ⟨step, scaled, whole⟩ := fits
    have divides := (Shape.isMultipleOf_iff.mp whole).2
    split at scaled
    · split at scaled
      · cases scaled
        exact divides
      · contradiction
    · contradiction
  · rintro ⟨rowsDivide, colsDivide⟩
    have rowsSmall := Nat.le_of_dvd tilePositive.1 rowsDivide
    have colsSmall := Nat.le_of_dvd tilePositive.2 colsDivide
    have scaled : threads.scale? vector =
        some ⟨threads.rows * vector.rows, threads.cols * vector.cols⟩ := by
      simp [Shape.scale?, Size.mul?_of_lt (Nat.lt_of_le_of_lt rowsSmall sized.1),
        Size.mul?_of_lt (Nat.lt_of_le_of_lt colsSmall sized.2)]
    simp only [arrangementFits, scaled, Option.any_some]
    exact Shape.isMultipleOf_iff.mpr
      ⟨⟨Nat.pos_of_dvd_of_pos rowsDivide tilePositive.1,
        Nat.pos_of_dvd_of_pos colsDivide tilePositive.2⟩, rowsDivide, colsDivide⟩

/-- The checks of `make`, as one statement about the plan. -/
theorem make_eq_ok_iff {layout : Layout} {tile : Shape} {threads : Arrangement} {policy : Policy}
    {plan : Plan} :
    make layout tile threads policy = .ok plan ↔
      plan = ⟨⟨layout, tile⟩, threads, policy⟩ ∧ plan.Valid := by
  constructor
  · intro accepted
    unfold make at accepted
    -- One split for each check, in the order in which they are made.
    split at accepted
    · contradiction
    · next tiling tiled =>
      obtain ⟨rfl, valid⟩ := Tiling.make_eq_ok_iff.mp tiled
      simp only at accepted
      split at accepted
      · contradiction
      · next threadsFull =>
      split at accepted
      · contradiction
      · next vectorFull =>
      split at accepted
      · contradiction
      · next units =>
      split at accepted
      · contradiction
      · next arranged =>
      split at accepted
      · contradiction
      · next width sized =>
      split at accepted
      · contradiction
      · next coalesced =>
      split at accepted
      · contradiction
      · next supported =>
      cases accepted
      simp only [Bool.not_eq_true] at threadsFull vectorFull
      simp only [Bool.not_eq_true', Bool.not_eq_false] at arranged supported
      have threadsPositive := Shape.isEmpty_eq_false_iff.mp threadsFull
      have vectorPositive := Shape.isEmpty_eq_false_iff.mp vectorFull
      have steps := (arrangementFits_iff valid.tilePositive valid.tile_lt_bound).mp arranged
      obtain ⟨-, rfl⟩ := Shape.size_eq_ok_iff.mp sized
      refine ⟨rfl, ?_, ?_, valid.small, requested_le_iff.mp (Nat.not_lt.mp units), ?_,
        List.contains_iff_mem.mp supported⟩
      · exact ⟨valid.shapePositive.1, threadsPositive.1, vectorPositive.1, steps.1,
          valid.tileDivides.1⟩
      · exact ⟨valid.shapePositive.2, threadsPositive.2, vectorPositive.2, steps.2,
          valid.tileDivides.2⟩
      · have positive : 0 < policy.vector.area := Nat.mul_pos vectorPositive.1 vectorPositive.2
        by_cases single : policy.vector.area = 1
        · exact .inl single
        · have wide : 1 < policy.vector.area := by omega
          have along : alongContiguousMode layout policy.vector = true := by
            simpa [wide] using coalesced
          exact .inr along
  · rintro ⟨rfl, valid⟩
    have tiled := Tiling.make_eq_ok_iff.mpr ⟨rfl, valid.tiling⟩
    have arranged := (arrangementFits_iff valid.tiling.tilePositive valid.tiling.tile_lt_bound).mpr
      ⟨valid.rows.stepDivides, valid.cols.stepDivides⟩
    have units := Nat.not_lt.mpr (requested_le_iff.mpr valid.unitsLimited)
    have sized := valid.vector_size
    have coalesced :
        ¬ (1 < policy.vector.area ∧ alongContiguousMode layout policy.vector = false) := by
      rintro ⟨wide, across⟩
      rcases valid.alongMemory with single | along
      · exact Nat.ne_of_gt wide single
      · exact Bool.noConfusion (across.symm.trans along)
    have supported : policy.vector.area ∈ lineSizes := valid.widthSupported
    simp [make, tiled, valid.threads_isEmpty, valid.vector_isEmpty, units, arranged, sized,
      coalesced, supported]

/-! ## Derived quantities -/

/-- The number of elements of a chunk. -/
def width (plan : Plan) : Nat := plan.policy.vector.area

/-- The number of units of a cube. -/
def unitCount (plan : Plan) : Nat := plan.threads.shape.area

def gridShape (plan : Plan) : Shape := ⟨plan.rowAxis.tiles, plan.colAxis.tiles⟩

def stepShape (plan : Plan) : Shape := ⟨plan.rowAxis.step, plan.colAxis.step⟩

def repeatShape (plan : Plan) : Shape := ⟨plan.rowAxis.repeats, plan.colAxis.repeats⟩

namespace Valid

variable {plan : Plan}

/-- No extent of a mode is larger than the whole buffer. -/
theorem extent_le (valid : plan.Valid) :
    plan.rowAxis.extent ≤ maxElements ∧ plan.colAxis.extent ≤ maxElements := by
  have rows := Nat.le_mul_of_pos_right plan.rowAxis.extent valid.cols.extentPositive
  have cols := Nat.le_mul_of_pos_left plan.colAxis.extent valid.rows.extentPositive
  exact ⟨rows.trans valid.small, cols.trans valid.small⟩

theorem tile_le (valid : plan.Valid) :
    plan.tile.rows ≤ maxElements ∧ plan.tile.cols ≤ maxElements :=
  ⟨valid.rows.tile_le_extent.trans valid.extent_le.1,
    valid.cols.tile_le_extent.trans valid.extent_le.2⟩

theorem step_le (valid : plan.Valid) :
    plan.stepShape.rows ≤ maxElements ∧ plan.stepShape.cols ≤ maxElements :=
  ⟨valid.rows.step_le_tile.trans valid.tile_le.1, valid.cols.step_le_tile.trans valid.tile_le.2⟩

theorem repeatShape_area_le (valid : plan.Valid) :
    plan.repeatShape.area ≤ plan.layout.shape.area := by
  have rows := (Nat.div_le_self plan.tile.rows plan.rowAxis.step).trans valid.rows.tile_le_extent
  have cols := (Nat.div_le_self plan.tile.cols plan.colAxis.step).trans valid.cols.tile_le_extent
  exact Nat.mul_le_mul rows cols

theorem size_exact (valid : plan.Valid) : plan.layout.size = .ok plan.layout.shape.area :=
  Shape.size_of_small valid.small

theorem width_exact (valid : plan.Valid) : plan.policy.width = .ok plan.width :=
  valid.vector_size

theorem widthPositive (valid : plan.Valid) : 0 < plan.width :=
  Nat.mul_pos valid.rows.vectorPositive valid.cols.vectorPositive

theorem unitCountPositive (valid : plan.Valid) : 0 < plan.unitCount :=
  Nat.mul_pos valid.rows.threadsPositive valid.cols.threadsPositive

theorem unitsPerTile_exact (valid : plan.Valid) : plan.unitsPerTile = .ok plan.unitCount :=
  Size.mul_of_lt (Nat.lt_of_le_of_lt valid.unitsLimited (by decide))

theorem grid_exact (valid : plan.Valid) : plan.grid = .ok plan.gridShape :=
  valid.tiling.tileCount_exact

theorem step_exact (valid : plan.Valid) : plan.step = .ok plan.stepShape := by
  have rows := Size.mul_of_lt (Nat.lt_of_le_of_lt valid.step_le.1 maxElements_lt_bound)
  have cols := Size.mul_of_lt (Nat.lt_of_le_of_lt valid.step_le.2 maxElements_lt_bound)
  simp only [rowAxis, colAxis] at rows cols
  simp [step, Shape.scale, rows, cols, bind, Except.bind, pure, Except.pure, stepShape, Axis.step,
    rowAxis, colAxis]

theorem repeats_exact (valid : plan.Valid) : plan.repeats = .ok plan.repeatShape := by
  have rows := Size.divUp_of_dvd valid.rows.stepPositive valid.rows.stepDivides
  have cols := Size.divUp_of_dvd valid.cols.stepPositive valid.cols.stepDivides
  simp only [rowAxis, colAxis] at rows cols
  simp [repeats, valid.step_exact, Shape.divUp, stepShape, rowAxis, colAxis, rows, cols, bind,
    Except.bind, pure, Except.pure, repeatShape, Axis.repeats]

theorem repeatShape_size (valid : plan.Valid) :
    plan.repeatShape.size = .ok plan.repeatShape.area :=
  Shape.size_of_small (valid.repeatShape_area_le.trans valid.small)

theorem lineSize_exact (valid : plan.Valid) :
    plan.lineSize = .ok (UInt8.ofNat plan.width) ∧ (UInt8.ofNat plan.width).toNat = plan.width := by
  constructor
  · simp [lineSize, valid.width_exact, bind, Except.bind, pure, Except.pure]
  · exact UInt8.toNat_ofNat_of_lt' (Nat.lt_of_le_of_lt valid.width_le (by decide))

/-- The tiles, units, chunks and lanes multiply to the elements of the buffer. -/
theorem elements_count (valid : plan.Valid) :
    plan.gridShape.area * plan.unitCount * (plan.repeatShape.area * plan.width) =
      plan.layout.shape.area := by
  have rows := valid.rows.tiles_mul_repeats_mul_threads_mul_vector
  have cols := valid.cols.tiles_mul_repeats_mul_threads_mul_vector
  simp only [Shape.area, gridShape, unitCount, repeatShape, width]
  calc
    _ = plan.rowAxis.tiles * (plan.rowAxis.repeats *
          (plan.threads.shape.rows * plan.policy.vector.rows)) *
        (plan.colAxis.tiles * (plan.colAxis.repeats *
          (plan.threads.shape.cols * plan.policy.vector.cols))) := by ring
    _ = plan.layout.shape.rows * plan.layout.shape.cols := congrArg₂ (· * ·) rows cols

theorem launchPositive (valid : plan.Valid) : 0 < plan.gridShape.area * plan.unitCount :=
  Nat.mul_pos (Nat.mul_pos valid.rows.tilesPositive valid.cols.tilesPositive)
    valid.unitCountPositive

theorem sharePositive (valid : plan.Valid) : 0 < plan.repeatShape.area * plan.width :=
  Nat.mul_pos (Nat.mul_pos valid.rows.repeatsPositive valid.cols.repeatsPositive)
    valid.widthPositive

/-- There are no more units in a launch than elements. -/
theorem launch_le (valid : plan.Valid) :
    plan.gridShape.area * plan.unitCount ≤ plan.layout.shape.area := by
  rw [← valid.elements_count]
  exact Nat.le_mul_of_pos_right _ valid.sharePositive

theorem share_le (valid : plan.Valid) :
    plan.repeatShape.area * plan.width ≤ plan.layout.shape.area := by
  rw [← valid.elements_count]
  exact Nat.le_mul_of_pos_left _ valid.launchPositive

theorem gridShape_area_le (valid : plan.Valid) :
    plan.gridShape.area ≤ plan.layout.shape.area :=
  (Nat.le_mul_of_pos_right _ valid.unitCountPositive).trans valid.launch_le

theorem gridShape_size (valid : plan.Valid) : plan.gridShape.size = .ok plan.gridShape.area :=
  Shape.size_of_small (valid.gridShape_area_le.trans valid.small)

/-- The units of all tiles can be counted. -/
theorem launch_exact (valid : plan.Valid) :
    Size.mul plan.gridShape.area plan.unitCount = .ok (plan.gridShape.area * plan.unitCount) :=
  Size.mul_of_lt (Nat.lt_of_le_of_lt (valid.launch_le.trans valid.small) maxElements_lt_bound)

end Valid

end Plan

end GridCopy
