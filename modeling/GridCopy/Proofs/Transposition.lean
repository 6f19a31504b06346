import Mathlib.Data.List.Forall2
import GridCopy.Proofs.Blocks
import GridCopy.Proofs.Ownership
import GridCopy.Proofs.Preconditions

/-!
# Transposition

Exchanging the two modes of everything leaves the memory of a buffer as it is: a row-major buffer
is the transposed column-major one. Plans respect this, although units are numbered column by column
in both orders and the test on the walked mode prefers one of them when both strides are one.

Results:
1. `Plan.preconditions_transpose`: the conditions of transposed plans mirror each other, one by one
   and with their reasons.
2. `Plan.Valid.transpose`, `Plan.make_transpose_refused`: whether a transposed plan is accepted.
3. `Plan.Valid.ownershipMaps_mirror`, `Plan.Valid.partitions_mirror`: their owners and chunks.
4. `Plan.transposed_plans_mirror`: all of this for a row-major and a column-major buffer.
-/

namespace GridCopy

def MajorOrder.transpose : MajorOrder → MajorOrder
  | .columnMajor => .rowMajor
  | .rowMajor => .columnMajor

namespace Layout

/-- The same memory with the two modes exchanged. -/
def transpose (layout : Layout) : Layout := ⟨layout.shape.transpose, layout.order.transpose⟩

@[simp] theorem transpose_rowStride (layout : Layout) :
    layout.transpose.rowStride = layout.colStride := by
  obtain ⟨shape, order⟩ := layout
  cases order with
  | columnMajor => rfl
  | rowMajor => rfl

@[simp] theorem transpose_colStride (layout : Layout) :
    layout.transpose.colStride = layout.rowStride := by
  obtain ⟨shape, order⟩ := layout
  cases order with
  | columnMajor => rfl
  | rowMajor => rfl

theorem transpose_place (layout : Layout) (row col : Nat) :
    layout.transpose.place col row = layout.place row col := by
  rw [place, place, transpose_rowStride, transpose_colStride, Nat.add_comm]

theorem transpose_coords (layout : Layout) (place : Nat) :
    layout.transpose.coords place = (layout.coords place).swap := by
  obtain ⟨shape, order⟩ := layout
  cases order with
  | columnMajor => rfl
  | rowMajor => rfl

end Layout

theorem Shape.transpose_area (shape : Shape) : shape.transpose.area = shape.area :=
  Nat.mul_comm shape.cols shape.rows

def Arrangement.transpose (threads : Arrangement) : Arrangement := ⟨threads.shape.transpose⟩

namespace Policy

def transpose : Policy → Policy
  | .striped => .striped
  | .vectorized vector => .vectorized vector.transpose

@[simp] theorem transpose_vector (policy : Policy) :
    policy.transpose.vector = policy.vector.transpose := by
  cases policy with
  | striped => rfl
  | vectorized vector => rfl

end Policy

/-- The same reason with its shapes transposed and its numbers kept. -/
def CopyError.transpose : CopyError → CopyError
  | .notDivisible shape tile => .notDivisible shape.transpose tile.transpose
  | .zeroExtent what shape => .zeroExtent what shape.transpose
  | .arrangementMismatch tile threads vector =>
      .arrangementMismatch tile.transpose threads.transpose vector.transpose
  | .tooLarge shape max => .tooLarge shape.transpose max
  | .uncoalescedVector vector => .uncoalescedVector vector.transpose
  | error => error

/-! ## Conditions -/

/-- Two conditions that hold together and whose reasons are transposed. -/
structure Precondition.Mirrors (condition mirrored : Precondition) : Prop where
  together : condition.holds ↔ mirrored.holds
  reason : mirrored.reason = condition.reason.transpose

theorem FirstFailing.mirrored {conditions mirrored : List Precondition} {error : CopyError}
    (mirror : List.Forall₂ Precondition.Mirrors conditions mirrored)
    (failing : FirstFailing conditions error) : FirstFailing mirrored error.transpose := by
  induction failing generalizing mirrored with
  | here fails =>
      cases mirror with
      | @cons _ condition _ _ first =>
          obtain ⟨holds, reason⟩ := condition
          cases first.reason
          exact .here (mt first.together.mpr fails)
  | later holds _ ih =>
      cases mirror with
      | @cons _ condition _ _ first rest =>
          obtain ⟨_, reason⟩ := condition
          exact .later (first.together.mp holds) (ih rest)

theorem forall_holds_mirrored {conditions mirrored : List Precondition}
    (mirror : List.Forall₂ Precondition.Mirrors conditions mirrored)
    (all : ∀ condition ∈ conditions, condition.holds) :
    ∀ condition ∈ mirrored, condition.holds := by
  induction mirror with
  | nil => exact all
  | cons first _ ih =>
      obtain ⟨holds, others⟩ := List.forall_mem_cons.mp all
      exact List.forall_mem_cons.mpr ⟨first.together.mp holds, ih others⟩

theorem Tiling.preconditions_transpose (layout : Layout) (tile : Shape) :
    List.Forall₂ Precondition.Mirrors (preconditions layout tile)
      (preconditions layout.transpose tile.transpose) := by
  have area := Nat.mul_comm layout.shape.rows layout.shape.cols
  exact .cons ⟨and_comm, rfl⟩ <| .cons ⟨and_comm, rfl⟩ <|
    .cons ⟨iff_of_eq (congrArg (· ≤ 2 ^ 32 - 1) area), rfl⟩ <| .cons ⟨and_comm, rfl⟩ .nil

namespace Plan

variable {layout : Layout} {tile : Shape} {threads : Arrangement} {policy : Policy}

theorem liesInMemory_transpose (layout : Layout) (vector : Shape) :
    LiesInMemory layout vector ↔ LiesInMemory layout.transpose vector.transpose := by
  -- The condition is about strides alone, so a tie between them does not show.
  unfold LiesInMemory
  rw [Layout.transpose_rowStride, Layout.transpose_colStride,
    Nat.mul_comm vector.rows vector.cols]
  exact or_congr_right or_comm

theorem preconditions_transpose (layout : Layout) (tile : Shape) (threads : Arrangement)
    (policy : Policy) :
    List.Forall₂ Precondition.Mirrors (preconditions layout tile threads policy)
      (preconditions layout.transpose tile.transpose threads.transpose policy.transpose) := by
  have units := Nat.mul_comm threads.shape.rows threads.shape.cols
  have width := Nat.mul_comm policy.vector.rows policy.vector.cols
  simp only [preconditions, Policy.transpose_vector]
  refine List.rel_append (Tiling.preconditions_transpose layout tile) ?_
  refine .cons ⟨and_comm, rfl⟩ <| .cons ⟨and_comm, rfl⟩ <| .cons ?units <|
    .cons ⟨and_comm, rfl⟩ <| .cons ⟨liesInMemory_transpose layout _, rfl⟩ <| .cons ?width .nil
  case units =>
    rw [units]
    exact ⟨Iff.rfl, rfl⟩
  case width =>
    rw [width]
    exact ⟨Iff.rfl, rfl⟩

/-! ## Plans -/

/-- The plan with the two modes exchanged. -/
def transpose (plan : Plan) : Plan :=
  ⟨⟨plan.layout.transpose, plan.tile.transpose⟩, plan.threads.transpose, plan.policy.transpose⟩

theorem Valid.transpose {plan : Plan} (valid : plan.Valid) : plan.transpose.Valid :=
  valid_iff_preconditions.mpr
    (forall_holds_mirrored (preconditions_transpose plan.layout plan.tile plan.threads plan.policy)
      (valid_iff_preconditions.mp valid))

theorem make_transpose_refused {error : CopyError}
    (failing : FirstFailing (preconditions layout tile threads policy) error) :
    make layout.transpose tile.transpose threads.transpose policy.transpose =
      refuse error.transpose :=
  make_of_firstFailing (failing.mirrored (preconditions_transpose layout tile threads policy))

variable {plan : Plan}

@[simp] theorem transpose_rowAxis (plan : Plan) : plan.transpose.rowAxis = plan.colAxis := by
  simp only [rowAxis, transpose, Policy.transpose_vector]
  rfl

@[simp] theorem transpose_colAxis (plan : Plan) : plan.transpose.colAxis = plan.rowAxis := by
  simp only [colAxis, transpose, Policy.transpose_vector]
  rfl

theorem transpose_gridShape (plan : Plan) :
    plan.transpose.gridShape = plan.gridShape.transpose := by
  rw [gridShape, transpose_rowAxis, transpose_colAxis]
  rfl

theorem transpose_repeatShape (plan : Plan) :
    plan.transpose.repeatShape = plan.repeatShape.transpose := by
  rw [repeatShape, transpose_rowAxis, transpose_colAxis]
  rfl

theorem transpose_width (plan : Plan) : plan.transpose.width = plan.width := by
  simp only [width, transpose, Policy.transpose_vector, Shape.transpose_area]

/-- Two units of mirrored tiles at mirrored places of their arrangements. -/
structure Mirrors (threads : Arrangement) (owner mirrored : Owner) : Prop where
  tileRow : mirrored.tileRow = owner.tileCol
  tileCol : mirrored.tileCol = owner.tileRow
  unit : ∃ row col, threads.coords owner.unit = .ok (row, col) ∧
    threads.transpose.coords mirrored.unit = .ok (col, row)

/-! ## Owners and chunks -/

attribute [ext] Owner

/-- The unit of the mirrored tile whose place in the transposed arrangement is the mirrored one. -/
def mirrorOf (plan : Plan) (owner : Owner) : Owner where
  tileRow := owner.tileCol
  tileCol := owner.tileRow
  unit := owner.unit / plan.threads.shape.rows +
    plan.threads.shape.cols * (owner.unit % plan.threads.shape.rows)

/-- The chunk of one repetition along each mode, at its place in the list. -/
theorem chunk_listed (plan : Plan) (owner : Owner) {row col : Nat}
    (rowInside : row < plan.repeatShape.rows) (colInside : col < plan.repeatShape.cols) :
    (plan.exactShare owner).chunks[row + plan.repeatShape.rows * col]? =
      some (plan.chunkPlace owner (row, col)) := by
  rw [chunks_getElem? plan owner (Axis.pair_lt rowInside colInside), Axis.pair_mod rowInside,
    Axis.pair_div rowInside]

namespace Valid

variable {owner mirrored : Owner}

theorem mirrorOf_mod (valid : plan.Valid) (inGrid : plan.InGrid owner) :
    (plan.mirrorOf owner).unit % plan.threads.shape.cols =
      owner.unit / plan.threads.shape.rows :=
  Axis.pair_mod (valid.coords_inside inGrid).2 _

theorem mirrorOf_div (valid : plan.Valid) (inGrid : plan.InGrid owner) :
    (plan.mirrorOf owner).unit / plan.threads.shape.cols =
      owner.unit % plan.threads.shape.rows :=
  Axis.pair_div (valid.coords_inside inGrid).2 _

theorem mirrorOf_inGrid (valid : plan.Valid) (inGrid : plan.InGrid owner) :
    plan.transpose.InGrid (plan.mirrorOf owner) := by
  obtain ⟨threadRow, threadCol⟩ := valid.coords_inside inGrid
  rw [InGrid, transpose_gridShape]
  exact ⟨inGrid.2.1, inGrid.1, Axis.pair_lt threadCol threadRow⟩

theorem mirrors_mirrorOf (valid : plan.Valid) (inGrid : plan.InGrid owner) :
    Mirrors plan.threads owner (plan.mirrorOf owner) := by
  have place := valid.transpose.coords_exact (plan.mirrorOf owner).unit
  refine ⟨rfl, rfl, _, _, valid.coords_exact owner.unit, place.trans ?_⟩
  exact congrArg Except.ok (Prod.ext (valid.mirrorOf_mod inGrid) (valid.mirrorOf_div inGrid))

theorem eq_mirrorOf (valid : plan.Valid) (mirrors : Mirrors plan.threads owner mirrored) :
    mirrored = plan.mirrorOf owner := by
  obtain ⟨tileRow, tileCol, row, col, placed, exchanged⟩ := mirrors
  obtain ⟨rfl, rfl⟩ := Prod.mk.inj (Except.ok.inj ((valid.coords_exact _).symm.trans placed))
  obtain ⟨low, high⟩ := Prod.mk.inj
    (Except.ok.inj ((valid.transpose.coords_exact mirrored.unit).symm.trans exchanged))
  have unit : mirrored.unit = (plan.mirrorOf owner).unit := by
    rw [← Nat.mod_add_div mirrored.unit plan.threads.shape.cols]
    exact congrArg₂ (fun low high => low + plan.threads.shape.cols * high) low high
  exact Owner.ext tileRow tileCol unit

/-- The element at an offset goes to mirrored units. -/
theorem ownerOf_transpose (valid : plan.Valid) (offset : Nat) :
    plan.transpose.ownerOf offset = plan.mirrorOf (plan.ownerOf offset) := by
  have low := Axis.pair_mod (valid.rows.threadOf_lt (plan.layout.coords offset).1)
    (plan.colAxis.threadOf (plan.layout.coords offset).2)
  have high := Axis.pair_div (valid.rows.threadOf_lt (plan.layout.coords offset).1)
    (plan.colAxis.threadOf (plan.layout.coords offset).2)
  rw [ownerOf, show plan.transpose.layout = plan.layout.transpose from rfl,
    Layout.transpose_coords, ownerAt, transpose_rowAxis, transpose_colAxis]
  refine Owner.ext rfl rfl ?_
  exact congrArg₂ (fun col row => col + plan.threads.shape.cols * row) high.symm low.symm

/-- A chunk of a unit is the mirrored chunk of the mirrored unit. -/
theorem chunkPlace_transpose (valid : plan.Valid) (inGrid : plan.InGrid owner) (row col : Nat) :
    plan.transpose.chunkPlace (plan.mirrorOf owner) (col, row) =
      plan.chunkPlace owner (row, col) := by
  have corner : plan.transpose.chunkCorner (plan.mirrorOf owner) (col, row) =
      (plan.chunkCorner owner (row, col)).swap := by
    rw [chunkCorner, transpose_rowAxis, transpose_colAxis,
      show plan.transpose.threads.shape.rows = plan.threads.shape.cols from rfl,
      valid.mirrorOf_mod inGrid, valid.mirrorOf_div inGrid]
    rfl
  rw [chunkPlace, corner]
  exact plan.layout.transpose_place _ _

theorem chunk_mirrored (valid : plan.Valid) (inGrid : plan.InGrid owner) {row col : Nat}
    (rowInside : row < plan.repeatShape.rows) (colInside : col < plan.repeatShape.cols) :
    (plan.transpose.exactShare (plan.mirrorOf owner)).chunks[col + plan.repeatShape.cols * row]? =
      some (plan.chunkPlace owner (row, col)) := by
  have listed := @chunk_listed plan.transpose (plan.mirrorOf owner) col row
  rw [transpose_repeatShape, valid.chunkPlace_transpose inGrid] at listed
  exact listed colInside rowInside

/-- The ownership maps give every element to mirrored units. -/
theorem ownershipMaps_mirror (valid : plan.Valid) :
    ∃ owners others, plan.ownershipMap = .ok owners ∧
      plan.transpose.ownershipMap = .ok others ∧
      owners.length = plan.layout.shape.area ∧ others.length = plan.layout.shape.area ∧
      ∀ offset < plan.layout.shape.area, ∃ owner other, owners[offset]? = some owner ∧
        others[offset]? = some other ∧ Mirrors plan.threads owner other := by
  have area : plan.transpose.layout.shape.area = plan.layout.shape.area :=
    plan.layout.shape.transpose_area
  have others := valid.transpose.ownershipMap_exact
  rw [area] at others
  refine ⟨_, _, valid.ownershipMap_exact, others, by simp, by simp, fun offset inside => ?_⟩
  have inGrid := mem_ownerList.mp (valid.mem_elements_ownerOf inside).1
  simp only [List.getElem?_map, List.getElem?_range inside, Option.map_some]
  refine ⟨_, _, rfl, rfl, ?_⟩
  rw [valid.ownerOf_transpose]
  exact valid.mirrors_mirrorOf inGrid

/-- The partition of a unit and that of the mirrored one. -/
theorem partitions_mirror (valid : plan.Valid) (inGrid : plan.InGrid owner) :
    ∃ mine others, plan.partition owner = .ok mine ∧
      plan.transpose.partition (plan.mirrorOf owner) = .ok others ∧ mine.width = others.width ∧
      mine.chunks.length = plan.repeatShape.area ∧
      others.chunks.length = plan.repeatShape.area ∧
      ∀ row < plan.repeatShape.rows, ∀ col < plan.repeatShape.cols, ∃ base,
        mine.chunks[row + plan.repeatShape.rows * col]? = some base ∧
        others.chunks[col + plan.repeatShape.cols * row]? = some base := by
  refine ⟨_, _, valid.partition_exact inGrid,
    valid.transpose.partition_exact (valid.mirrorOf_inGrid inGrid), plan.transpose_width.symm,
    chunks_length _ _, ?_, ?_⟩
  · rw [chunks_length, transpose_repeatShape, Shape.transpose_area]
  · intro row rowInside col colInside
    exact ⟨_, plan.chunk_listed owner rowInside colInside,
      valid.chunk_mirrored inGrid rowInside colInside⟩

end Valid

/-- Transposing a row-major plan gives a column-major one that is refused for the transposed reason
or does the same. An element goes to mirrored units, and mirrored units own the same chunks, though
in another order. -/
theorem transposed_plans_mirror (shape tile threads : Shape) (policy : Policy) :
    let first := make (.rowMajor shape) tile ⟨threads⟩ policy
    let second := make (.columnMajor shape.transpose) tile.transpose ⟨threads.transpose⟩
      policy.transpose
    (∃ error, first = refuse error ∧ second = refuse error.transpose) ∨
      ∃ plan twin size grid units repeats, first = .ok plan ∧ second = .ok twin ∧
        plan.layout.size = .ok size ∧ plan.grid = .ok grid ∧ plan.unitsPerTile = .ok units ∧
        plan.repeats = .ok repeats ∧ twin.repeats = .ok repeats.transpose ∧
        (∃ owners others, plan.ownershipMap = .ok owners ∧ twin.ownershipMap = .ok others ∧
          owners.length = size ∧ others.length = size ∧
          ∀ offset < size, ∃ owner other, owners[offset]? = some owner ∧
            others[offset]? = some other ∧ Mirrors ⟨threads⟩ owner other) ∧
        ∀ tileRow < grid.rows, ∀ tileCol < grid.cols, ∀ unit < units,
          (∃! other, Mirrors ⟨threads⟩ ⟨tileRow, tileCol, unit⟩ other) ∧
          ∀ other, Mirrors ⟨threads⟩ ⟨tileRow, tileCol, unit⟩ other →
            ∃ mine others, plan.partition ⟨tileRow, tileCol, unit⟩ = .ok mine ∧
              twin.partition other = .ok others ∧ mine.width = others.width ∧
              mine.chunks.length = repeats.area ∧ others.chunks.length = repeats.area ∧
              ∀ row < repeats.rows, ∀ col < repeats.cols, ∃ base,
                mine.chunks[row + repeats.rows * col]? = some base ∧
                others.chunks[col + repeats.cols * row]? = some base := by
  intro first second
  rcases make_cases (.rowMajor shape) tile ⟨threads⟩ policy with
    accepted | ⟨error, failing, refused⟩
  · refine .inr ?_
    have valid := (make_eq_ok_iff.mp accepted).2
    let plan : Plan := ⟨⟨.rowMajor shape, tile⟩, ⟨threads⟩, policy⟩
    have turned : second = .ok plan.transpose := make_eq_ok_iff.mpr ⟨rfl, valid.transpose⟩
    have repeated := valid.transpose.repeats_exact
    rw [transpose_repeatShape] at repeated
    refine ⟨plan, plan.transpose, _, _, _, _, accepted, turned, valid.size_exact, valid.grid_exact,
      valid.unitsPerTile_exact, valid.repeats_exact, repeated, valid.ownershipMaps_mirror, ?_⟩
    intro tileRow rowInside tileCol colInside unit unitInside
    have inGrid : plan.InGrid ⟨tileRow, tileCol, unit⟩ := ⟨rowInside, colInside, unitInside⟩
    refine ⟨⟨_, valid.mirrors_mirrorOf inGrid, fun _ mirrors => valid.eq_mirrorOf mirrors⟩, ?_⟩
    intro other mirrors
    rw [valid.eq_mirrorOf mirrors]
    exact valid.partitions_mirror inGrid
  · exact .inl ⟨error, refused, make_transpose_refused failing⟩

/-- In a buffer of one column both strides are one, and vectors run along the rows. -/
example : make (.rowMajor ⟨8, 1⟩) ⟨8, 1⟩ ⟨⟨2, 1⟩⟩ (.vectorized ⟨4, 1⟩) =
    .ok ⟨⟨.rowMajor ⟨8, 1⟩, ⟨8, 1⟩⟩, ⟨⟨2, 1⟩⟩, .vectorized ⟨4, 1⟩⟩ := rfl

end Plan

end GridCopy
