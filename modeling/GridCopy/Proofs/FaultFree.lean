import GridCopy.Proofs.Blocks
import GridCopy.Proofs.HostCopy
import GridCopy.Proofs.Ownership

/-!
# Arithmetic without faults

Acceptance bounds every product that is later formed from the extents of a plan. So nothing that is
derived from an accepted plan meets a fault, whatever unit is asked for, every quotient is exact,
and the parts of the plan multiply to its wholes.

Results:
1. `Plan.Valid.partition_refused_iff`: a partition is refused outside the launch grid, and only there.
2. `Plan.Valid.exactShare_counts`: the length and the offsets of a share are computed.
3. `Plan.accepted_plan_is_exact`: all derived quantities together, with their products.
-/

namespace GridCopy

/-- The length of the partition and its offsets are computed, and both count the same elements. -/
def Partition.Counts (partition : Partition) (elements : Nat) : Prop :=
  partition.size = .ok elements ∧
    ∃ offsets, partition.offsets = .ok offsets ∧ offsets.length = elements

namespace Plan

variable {plan : Plan} {owner : Owner}

theorem not_inGrid_iff :
    ¬ plan.InGrid owner ↔
      plan.gridShape.rows ≤ owner.tileRow ∨ plan.gridShape.cols ≤ owner.tileCol ∨
        plan.unitCount ≤ owner.unit := by
  rw [InGrid, not_and_or, not_and_or, Nat.not_lt, Nat.not_lt, Nat.not_lt]

namespace Valid

/-! ## Partitions of any unit -/

theorem partition_refused (valid : plan.Valid) (outside : ¬ plan.InGrid owner) :
    plan.partition owner =
      refuse (.outOfBounds owner.tileRow owner.tileCol owner.unit) := by
  have beyond := not_inGrid_iff.mp outside
  simp only [partition, valid.grid_exact, valid.unitsPerTile_exact, lift_ok, bind, Except.bind]
  rw [if_pos]
  simpa [or_assoc] using beyond

theorem partition_refused_iff (valid : plan.Valid) :
    plan.partition owner = refuse (.outOfBounds owner.tileRow owner.tileCol owner.unit) ↔
      ¬ plan.InGrid owner := by
  constructor
  · intro refused inGrid
    rw [valid.partition_exact inGrid] at refused
    cases refused
  · exact valid.partition_refused

theorem exactShare_counts (valid : plan.Valid) (inGrid : plan.InGrid owner) :
    (plan.exactShare owner).Counts (plan.repeatShape.area * plan.width) :=
  ⟨valid.share_size owner, _, valid.offsets_exact inGrid, elements_length plan owner⟩

/-! ## Products of the parts -/

/-- Whole tiles make the buffer. -/
theorem grid_mul_tile (valid : plan.Valid) :
    plan.gridShape.rows * plan.tile.rows = plan.layout.shape.rows ∧
      plan.gridShape.cols * plan.tile.cols = plan.layout.shape.cols :=
  ⟨valid.rows.tiles_mul_tile, valid.cols.tiles_mul_tile⟩

/-- Whole steps make a tile. -/
theorem step_mul_repeats (valid : plan.Valid) :
    plan.stepShape.rows * plan.repeatShape.rows = plan.tile.rows ∧
      plan.stepShape.cols * plan.repeatShape.cols = plan.tile.cols := by
  constructor
  · rw [Nat.mul_comm]
    exact valid.rows.repeats_mul_step
  · rw [Nat.mul_comm]
    exact valid.cols.repeats_mul_step

end Valid

/-- Nothing that is derived from an accepted plan meets a fault. The grid counts whole tiles and the
repetitions count whole steps, in each mode; tiles, units, chunks and the width multiply to the size
of the buffer; and the width fits into the byte that the line size is. Any unit whatsoever may be
asked for: its partition is refused exactly outside the launch grid. The partitions of the launch,
their lengths and offsets, the ownership map and the unit of every task of a copy on the host are
computed. -/
theorem accepted_plan_is_exact {layout : Layout} {tile : Shape} {threads : Arrangement}
    {policy : Policy} {plan : Plan} (accepted : make layout tile threads policy = .ok plan) :
    ∃ size width grid units step repeats count line tiles total,
      (layout.size = .ok size ∧ policy.width = .ok width ∧ plan.grid = .ok grid ∧
        plan.unitsPerTile = .ok units ∧ plan.step = .ok step ∧ plan.repeats = .ok repeats ∧
        plan.chunksPerUnit = .ok count ∧ plan.lineSize = .ok line ∧ grid.size = .ok tiles ∧
        Size.mul tiles units = .ok total) ∧
      (grid.rows * tile.rows = layout.shape.rows ∧ grid.cols * tile.cols = layout.shape.cols) ∧
      (step.rows * repeats.rows = tile.rows ∧ step.cols * repeats.cols = tile.cols) ∧
      tiles * units * count * width = size ∧ line.toNat = width ∧
      (∀ tileRow tileCol unit,
        (plan.partition ⟨tileRow, tileCol, unit⟩ = refuse (.outOfBounds tileRow tileCol unit) ↔
          grid.rows ≤ tileRow ∨ grid.cols ≤ tileCol ∨ units ≤ unit) ∧
        (tileRow < grid.rows → tileCol < grid.cols → unit < units → ∃ partition,
          plan.partition ⟨tileRow, tileCol, unit⟩ = .ok partition ∧
            partition.Counts (count * width))) ∧
      (∃ shares, plan.partitions = .ok shares ∧ shares.length = total ∧
        ∀ share ∈ shares, share.2.Counts (count * width)) ∧
      (∃ owners, plan.ownershipMap = .ok owners ∧ owners.length = size) ∧
      (∃ programs, Host.programs plan = .ok programs ∧ programs.length = total) ∧
      ∀ task < total, ∃ owner partition, Host.taskOwner grid units task = .ok owner ∧
        plan.share owner = .ok partition ∧ partition.Counts (count * width) := by
  obtain ⟨rfl, valid⟩ := make_eq_ok_iff.mp accepted
  let plan : Plan := ⟨⟨layout, tile⟩, threads, policy⟩
  obtain ⟨lined, fits⟩ := valid.lineSize_exact
  have whole := valid.elements_count
  rw [← Nat.mul_assoc] at whole
  refine ⟨_, _, _, _, _, _, _, _, _, _,
    ⟨valid.size_exact, valid.width_exact, valid.grid_exact, valid.unitsPerTile_exact,
      valid.step_exact, valid.repeats_exact, valid.chunksPerUnit_exact, lined,
      valid.gridShape_size, valid.launch_exact⟩,
    valid.grid_mul_tile, valid.step_mul_repeats, whole, fits, ?_,
    ⟨_, valid.partitions_exact, ?_, ?_⟩, ⟨_, valid.ownershipMap_exact, by simp⟩,
    ⟨_, Host.programs_exact valid, ?_⟩, ?_⟩
  · intro tileRow tileCol unit
    refine ⟨valid.partition_refused_iff.trans not_inGrid_iff, ?_⟩
    intro rowInside colInside unitInside
    have inGrid : plan.InGrid ⟨tileRow, tileCol, unit⟩ := ⟨rowInside, colInside, unitInside⟩
    exact ⟨_, valid.partition_exact inGrid, valid.exactShare_counts inGrid⟩
  · rw [List.length_map, ownerList_length]
  · intro share member
    obtain ⟨owner, listed, rfl⟩ := List.mem_map.mp member
    exact valid.exactShare_counts (mem_ownerList.mp listed)
  · rw [List.length_map, shares, List.length_map, ownerList_length]
  · intro task inside
    have inGrid := Host.taskUnit_inGrid inside
    exact ⟨_, _, Host.taskOwner_exact valid task, valid.share_exact inGrid,
      valid.exactShare_counts inGrid⟩

/-- A buffer of almost as many elements as there may be. The largest sizes are no unit, and the
last unit of the last tile is one. -/
theorem accepted_plan_is_exact_near_limit :
    ∃ plan, make (.columnMajor ⟨16, 268435455⟩) ⟨16, 5⟩ ⟨⟨1, 5⟩⟩ (.vectorized ⟨16, 1⟩) = .ok plan ∧
      plan.partition ⟨2 ^ 64 - 1, 2 ^ 64 - 1, 2 ^ 64 - 1⟩ =
        refuse (.outOfBounds (2 ^ 64 - 1) (2 ^ 64 - 1) (2 ^ 64 - 1)) ∧
      (∃ partition, plan.partition ⟨0, 53687090, 4⟩ = .ok partition ∧ partition.Counts 16) ∧
      ∃ owners, plan.ownershipMap = .ok owners ∧ owners.length = 2 ^ 32 - 16 := by
  have accepted : make (.columnMajor ⟨16, 268435455⟩) ⟨16, 5⟩ ⟨⟨1, 5⟩⟩ (.vectorized ⟨16, 1⟩) =
      .ok ⟨⟨.columnMajor ⟨16, 268435455⟩, ⟨16, 5⟩⟩, ⟨⟨1, 5⟩⟩, .vectorized ⟨16, 1⟩⟩ := rfl
  obtain ⟨size, width, grid, units, step, repeats, count, line, tiles, total,
    ⟨sized, wide, gridded, counted, -, -, chunked, -, -, -⟩, -, -, -, -, asked, -, owned, -⟩ :=
    accepted_plan_is_exact accepted
  cases sized
  cases wide
  cases gridded
  cases counted
  cases chunked
  obtain ⟨beyond, -⟩ := asked (2 ^ 64 - 1) (2 ^ 64 - 1) (2 ^ 64 - 1)
  obtain ⟨-, inside⟩ := asked 0 53687090 4
  exact ⟨_, accepted, beyond.mpr (.inl (by decide)),
    inside (by decide) (by decide) (by decide), owned⟩

end Plan

end GridCopy
