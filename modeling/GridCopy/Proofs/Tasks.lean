import GridCopy.Proofs.HostCopy

/-!
# Tasks and partitions

The units of a launch are listed in nested order: tile columns, tile rows, units. The tasks of a
copy count them with one number instead, which they take apart again. Both orders are the same, so
what is checked for the list holds for the tasks that run.

Results:
1. `Host.taskUnit_taskOf`, `Host.taskOf_taskUnit`: each unit of the launch has one task.
2. `Plan.partitions_getElem?`: the place of a unit in the list is the number of its task.
3. `Plan.partitions_follow_tasks`: both of these for an accepted plan.
-/

namespace GridCopy

namespace Host

variable {plan : Plan} {owner : Owner}

/-- The number of the task that works for a unit. -/
def taskOf (plan : Plan) (owner : Owner) : Nat :=
  owner.unit + plan.unitCount * (owner.tileRow + plan.gridShape.rows * owner.tileCol)

theorem taskOf_lt (inGrid : plan.InGrid owner) :
    taskOf plan owner < plan.gridShape.area * plan.unitCount := by
  rw [Nat.mul_comm]
  exact Axis.pair_lt inGrid.2.2 (Axis.pair_lt inGrid.1 inGrid.2.1)

theorem taskUnit_taskOf (inGrid : plan.InGrid owner) :
    taskUnit plan (taskOf plan owner) = owner := by
  obtain ⟨tileRow, tileCol, unit⟩ := owner
  obtain ⟨rowInside, -, unitInside⟩ := inGrid
  simp only [taskUnit, taskOf, Axis.pair_div unitInside, Axis.pair_mod unitInside,
    Axis.pair_div rowInside, Axis.pair_mod rowInside]

theorem taskOf_taskUnit (task : Nat) : taskOf plan (taskUnit plan task) = task := by
  simp only [taskOf, taskUnit, Nat.mod_add_div]

end Host

namespace Plan

variable {plan : Plan}

/-- In the list of partitions, the unit of each task has the number of this task. -/
theorem partitions_getElem? {task : Nat}
    (inside : task < plan.gridShape.area * plan.unitCount) :
    (plan.ownerList.map fun owner => (owner, plan.exactShare owner))[task]? =
      some (Host.taskUnit plan task, plan.exactShare (Host.taskUnit plan task)) := by
  rw [ownerList_numbered, List.map_map, List.getElem?_map, List.getElem?_range inside]
  rfl

/-- The list of partitions of an accepted plan has one item for each task of a copy. Item number `k`
is the unit that task `k` works for, taken apart in the same way, with the partition of this unit,
which is the one that the task copies. Every unit of the launch occurs once. -/
theorem partitions_follow_tasks {layout : Layout} {tile : Shape} {threads : Arrangement}
    {policy : Policy} {plan : Plan} (accepted : make layout tile threads policy = .ok plan) :
    ∃ (grid : Shape) (tiles units : Nat) (listed : List (Owner × Partition))
      (tasks : List (List Move)), plan.grid = .ok grid ∧ grid.size = .ok tiles ∧
      plan.unitsPerTile = .ok units ∧ plan.partitions = .ok listed ∧
      Host.programs plan = .ok tasks ∧ listed.length = tiles * units ∧
      tasks.length = tiles * units ∧
      (∀ k < tiles * units, ∃ partition,
        let owner : Owner := ⟨k / units % grid.rows, k / units / grid.rows, k % units⟩
        listed[k]? = some (owner, partition) ∧ plan.partition owner = .ok partition ∧
          Host.taskOwner grid units k = .ok owner ∧ tasks[k]? = some partition.program) ∧
      ∀ tileRow < grid.rows, ∀ tileCol < grid.cols, ∀ unit < units,
        ∃! k : Nat, ∃ partition, listed[k]? = some (⟨tileRow, tileCol, unit⟩, partition) := by
  obtain ⟨-, valid⟩ := make_eq_ok_iff.mp accepted
  refine ⟨_, _, _, _, _, valid.grid_exact, valid.gridShape_size, valid.unitsPerTile_exact,
    valid.partitions_exact, Host.programs_exact valid, ?_, ?_, ?_, ?_⟩
  · rw [List.length_map, ownerList_length]
  · rw [List.length_map, shares, List.length_map, ownerList_length]
  · intro k inside
    have item := partitions_getElem? inside
    refine ⟨_, item, valid.partition_exact (Host.taskUnit_inGrid inside),
      Host.taskOwner_exact valid k, ?_⟩
    -- The programs are those of the partitions, without their units.
    have program := congrArg (Option.map fun share => share.2.program) item
    rw [← List.getElem?_map, List.map_map] at program
    rw [shares, List.map_map]
    exact program
  · intro tileRow rowInside tileCol colInside unit unitInside
    have inGrid : plan.InGrid ⟨tileRow, tileCol, unit⟩ := ⟨rowInside, colInside, unitInside⟩
    refine ⟨Host.taskOf plan ⟨tileRow, tileCol, unit⟩, ?_, ?_⟩
    · refine ⟨plan.exactShare ⟨tileRow, tileCol, unit⟩, ?_⟩
      simp only [partitions_getElem? (Host.taskOf_lt inGrid), Host.taskUnit_taskOf inGrid]
    · rintro k ⟨partition, found⟩
      obtain ⟨inside, -⟩ := List.getElem?_eq_some_iff.mp found
      rw [List.length_map, ownerList_length] at inside
      rw [partitions_getElem? inside] at found
      rw [← (Prod.mk.inj (Option.some.inj found)).1, Host.taskOf_taskUnit]

/-- Task 9 of a launch of three by two tiles with two units each. -/
theorem partitions_follow_tasks_second_column :
    ∃ (plan : Plan) (listed : List (Owner × Partition)),
      make (.columnMajor ⟨6, 4⟩) ⟨2, 2⟩ ⟨⟨2, 1⟩⟩ .striped = .ok plan ∧
      plan.partitions = .ok listed ∧ listed.length = 12 ∧
      listed[9]? = some (⟨1, 1, 1⟩, ⟨[15, 21], 1⟩) ∧
      plan.partition ⟨1, 1, 1⟩ = .ok ⟨[15, 21], 1⟩ ∧
      Host.taskOwner ⟨3, 2⟩ 2 9 = .ok ⟨1, 1, 1⟩ ∧
      ∃! k : Nat, ∃ partition, listed[k]? = some (⟨1, 1, 1⟩, partition) := by
  have accepted : make (.columnMajor ⟨6, 4⟩) ⟨2, 2⟩ ⟨⟨2, 1⟩⟩ .striped =
      .ok ⟨⟨.columnMajor ⟨6, 4⟩, ⟨2, 2⟩⟩, ⟨⟨2, 1⟩⟩, .striped⟩ := rfl
  obtain ⟨grid, tiles, units, listed, tasks, gridded, tiled, counted, found, -, long, -, numbered,
    once⟩ := partitions_follow_tasks accepted
  cases gridded
  cases tiled
  cases counted
  obtain ⟨partition, item, owned, worked, -⟩ := numbered 9 (by decide)
  cases owned
  exact ⟨_, listed, accepted, found, long, item, rfl, worked,
    once 1 (by decide) 1 (by decide) 1 (by decide)⟩

end Plan

end GridCopy
