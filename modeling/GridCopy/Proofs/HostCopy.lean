import GridCopy.Host.Copy
import GridCopy.Proofs.Interleaving
import GridCopy.Proofs.Shares

/-!
# Copies on the host

The tasks of a valid plan are the units of its launch, each with the moves of its share. So a copy
succeeds whatever turns the tasks take, and writes every place of the destination once.
-/

namespace GridCopy

/-- Workers that run the programs of the shares copy the whole buffer, however they take turns. -/
theorem Plan.Valid.run_exact {α : Type} {plan : Plan} {source destination : Array α}
    (valid : plan.Valid) (sized : source.size = plan.layout.shape.area)
    (fits : destination.size = plan.layout.shape.area) {schedule : Schedule}
    (interleaves : (schedule (plan.shares.map Partition.program)).Interleaves
      (plan.shares.map Partition.program)) :
    let ran := Staging.runWorkers schedule plan.width (plan.shares.map Partition.program) source
      destination
    ran.1 = .ok () ∧ ran.2.source = source ∧ ran.2.destination = source ∧
      ran.2.writes.toList.Perm
        ((plan.shares.flatMap Partition.chunks).map fun base => (base, plan.width)) :=
  Staging.copies_under_every_interleaving valid.widthPositive
    (fun _ listed _ member => sized ▸ valid.chunk_inside listed member)
    (fun _ inside => valid.chunk_covers (sized ▸ inside))
    (sized ▸ Nat.lt_of_le_of_lt valid.small maxElements_lt_bound) (fits.trans sized.symm) interleaves

namespace Host

variable {plan : Plan}

/-- The unit that a task works for. -/
def taskUnit (plan : Plan) (task : Nat) : Owner :=
  ⟨task / plan.unitCount % plan.gridShape.rows, task / plan.unitCount / plan.gridShape.rows,
    task % plan.unitCount⟩

/-- A task has the number of its unit in the list of owners. -/
theorem taskUnit_inGrid {task : Nat} (inside : task < plan.gridShape.area * plan.unitCount) :
    plan.InGrid (taskUnit plan task) := by
  rw [← Plan.mem_ownerList, Plan.ownerList_numbered]
  exact List.mem_map_of_mem (List.mem_range.mpr inside)

theorem taskOwner_exact (valid : plan.Valid) (task : Nat) :
    taskOwner plan.gridShape plan.unitCount task = .ok (taskUnit plan task) := by
  have unitsPositive := valid.unitCountPositive
  have rowsPositive : 0 < plan.gridShape.rows := valid.rows.tilesPositive
  simp only [taskOwner, Size.rem_of_pos unitsPositive, Size.div_of_pos unitsPositive,
    Size.rem_of_pos rowsPositive, Size.div_of_pos rowsPositive, bind, Except.bind, pure,
    Except.pure, taskUnit]

theorem taskProgram_exact (valid : plan.Valid) {task : Nat}
    (inside : task < plan.gridShape.area * plan.unitCount) :
    taskProgram plan plan.gridShape plan.unitCount task =
      .ok (plan.exactShare (taskUnit plan task)).program := by
  have inGrid := taskUnit_inGrid inside
  simp only [taskProgram, taskOwner_exact valid, valid.share_exact inGrid, valid.share_size, bind,
    Except.bind, pure, Except.pure]

/-- The tasks are the units of the launch, in their order. -/
theorem programs_exact (valid : plan.Valid) :
    programs plan = .ok (plan.shares.map Partition.program) := by
  have listed := mapM_ok fun task
      (member : task ∈ List.range (plan.gridShape.area * plan.unitCount)) =>
    taskProgram_exact valid (List.mem_range.mp member)
  simp only [programs, valid.grid_exact, valid.unitsPerTile_exact, valid.gridShape_size,
    valid.launch_exact, listed, bind, Except.bind, Plan.shares, Plan.ownerList_numbered,
    List.map_map]
  rfl

variable {α : Type} {source destination : Array α}

theorem prepare_short_source (valid : plan.Valid) (short : source.size ≠ plan.layout.shape.area) :
    prepare plan source destination =
      ⟨[], refuse (.bufferSize plan.layout.shape.area source.size)⟩ := by
  simp only [prepare, valid.size_exact, Recorded.lift_ok, pure_bind, if_pos short,
    Recorded.lift_refuse]

theorem prepare_short_destination (valid : plan.Valid)
    (sized : source.size = plan.layout.shape.area)
    (short : destination.size ≠ plan.layout.shape.area) :
    prepare plan source destination =
      ⟨[], refuse (.bufferSize plan.layout.shape.area destination.size)⟩ := by
  simp only [prepare, valid.size_exact, Recorded.lift_ok, pure_bind, sized, ne_eq,
    not_true_eq_false, if_false, short, not_false_eq_true, if_true, Recorded.lift_refuse]

theorem prepare_exact (valid : plan.Valid) (sized : source.size = plan.layout.shape.area)
    (fits : destination.size = plan.layout.shape.area) :
    prepare plan source destination =
      ⟨[.log .debug (announcement plan plan.gridShape plan.unitCount)],
        .ok (plan.width, plan.shares.map Partition.program)⟩ := by
  simp only [prepare, valid.size_exact, Recorded.lift_ok, pure_bind, sized, fits, ne_eq,
    not_true_eq_false, if_false, valid.grid_exact, valid.unitsPerTile_exact, valid.width_exact,
    programs_exact valid]
  rfl

/-- Once both buffers have been found to fit, a call is the run of its tasks. -/
theorem copyInto_runs (valid : plan.Valid) (sized : source.size = plan.layout.shape.area)
    (fits : destination.size = plan.layout.shape.area) (schedule : Schedule) :
    let ran := Staging.runWorkers schedule plan.width (plan.shares.map Partition.program) source
      destination
    copyInto schedule plan source destination =
      (⟨[.log .debug (announcement plan plan.gridShape plan.unitCount)], ran.1.mapError .fault⟩,
        ran.2.destination) := by
  simp only [copyInto, prepare_exact valid sized fits]

theorem copyInto_exact (valid : plan.Valid) (sized : source.size = plan.layout.shape.area)
    (fits : destination.size = plan.layout.shape.area) {schedule : Schedule}
    (interleaves : (schedule (plan.shares.map Partition.program)).Interleaves
      (plan.shares.map Partition.program)) :
    copyInto schedule plan source destination =
      (⟨[.log .debug (announcement plan plan.gridShape plan.unitCount)], .ok ()⟩, source) := by
  obtain ⟨ended, -, copied, -⟩ := valid.run_exact sized fits interleaves
  simp only [copyInto_runs valid sized fits, ended, copied]
  rfl

theorem copyUnder_exact [Inhabited α] (valid : plan.Valid)
    (sized : source.size = plan.layout.shape.area) {schedule : Schedule}
    (interleaves : (schedule (plan.shares.map Partition.program)).Interleaves
      (plan.shares.map Partition.program)) :
    copyUnder schedule plan source =
      ⟨[.log .debug (announcement plan plan.gridShape plan.unitCount)], .ok source⟩ := by
  have filled : (Array.replicate source.size (default : α)).size = plan.layout.shape.area :=
    Array.size_replicate.trans sized
  simp only [copyUnder, copyOver, copyInto_exact valid sized filled interleaves]
  rfl

theorem copy_exact [Inhabited α] (valid : plan.Valid)
    (sized : source.size = plan.layout.shape.area) :
    copy plan source =
      ⟨[.log .debug (announcement plan plan.gridShape plan.unitCount)], .ok source⟩ :=
  copyUnder_exact valid sized (Trace.oneByOne_interleaves _)

/-- A copy under an accepted plan, whatever turns the tasks take. A buffer of the wrong length is
refused, the source first, and the destination stays as it is. Otherwise the call is the run of its
tasks: it succeeds, no access leaves a buffer, the source is unchanged, the destination equals it in
the end, and each of its places has been written exactly once. So a copy to a fresh buffer gives the
source. -/
theorem copyInto_every_schedule {α : Type} {layout : Layout} {tile : Shape} {threads : Arrangement}
    {policy : Policy} {plan : Plan} (accepted : Plan.make layout tile threads policy = .ok plan)
    (source destination : Array α) :
    ∃ size width tasks, layout.size = .ok size ∧ policy.width = .ok width ∧
      programs plan = .ok tasks ∧
      (source.size ≠ size → ∀ schedule, copyInto schedule plan source destination =
        (⟨[], refuse (.bufferSize size source.size)⟩, destination)) ∧
      (source.size = size → destination.size ≠ size → ∀ schedule,
        copyInto schedule plan source destination =
          (⟨[], refuse (.bufferSize size destination.size)⟩, destination)) ∧
      (source.size = size → destination.size = size → ∀ schedule : Schedule,
        let call := copyInto schedule plan source destination
        let ran := Staging.runWorkers schedule width tasks source destination
        call.1.result = ran.1.mapError .fault ∧ call.2 = ran.2.destination ∧
          ((schedule tasks).Interleaves tasks →
            call.1.result = .ok () ∧ call.2 = source ∧ ran.1 = .ok () ∧ ran.2.source = source ∧
              ran.2.destination = source ∧
              (ran.2.writes.toList.flatMap fun run => List.range' run.1 run.2).Perm
                (List.range size))) ∧
      ∀ [Inhabited α], source.size = size → (copy plan source).result = .ok source ∧
        ∀ schedule : Schedule, (schedule tasks).Interleaves tasks →
          (copyUnder schedule plan source).result = .ok source := by
  obtain ⟨rfl, valid⟩ := Plan.make_eq_ok_iff.mp accepted
  refine ⟨_, _, _, valid.size_exact, valid.width_exact, programs_exact valid, ?_, ?_, ?_, ?_⟩
  · intro short schedule
    simp only [copyInto, prepare_short_source valid short, refuse]
  · intro sized short schedule
    simp only [copyInto, prepare_short_destination valid sized short, refuse]
  · intro sized fits schedule call ran
    have called : call = (_, ran.2.destination) := copyInto_runs valid sized fits schedule
    refine ⟨congrArg (·.1.result) called, congrArg Prod.snd called, fun interleaves => ?_⟩
    obtain ⟨ended, kept, copied, written⟩ := valid.run_exact sized fits interleaves
    rw [show call = _ from copyInto_exact valid sized fits interleaves]
    refine ⟨rfl, rfl, ended, kept, copied, ?_⟩
    have places := written.flatMap_right fun run => List.range' run.1 run.2
    rw [List.flatMap_map] at places
    exact places.trans valid.shares_perm
  · intro _ sized
    refine ⟨by rw [copy_exact valid sized], fun schedule interleaves => ?_⟩
    rw [copyUnder_exact valid sized interleaves]

/-- Two tasks that fetch and put in turns; the second one starts and ends. -/
def crossedTurns : Trace :=
  [(1, .fetch 0 1), (0, .fetch 0 0), (1, .fetch 1 3), (1, .put 0 1), (0, .fetch 1 2), (0, .put 0 0),
    (0, .put 1 2), (1, .put 1 3)]

theorem copyInto_every_schedule_crossed :
    ∃ plan, Plan.make (.columnMajor ⟨2, 2⟩) ⟨2, 2⟩ ⟨⟨2, 1⟩⟩ .striped = .ok plan ∧
      (copyInto (fun _ => crossedTurns) plan #[5, 6, 7, 8] #[0, 0, 0, 0]).1.result = .ok () ∧
      (copyInto (fun _ => crossedTurns) plan #[5, 6, 7, 8] #[0, 0, 0, 0]).2 = #[5, 6, 7, 8] ∧
      copyInto (fun _ => crossedTurns) plan #[5, 6, 7, 8] #[0, 0, 0] =
        (⟨[], refuse (.bufferSize 4 3)⟩, #[0, 0, 0]) := by
  have accepted : Plan.make (.columnMajor ⟨2, 2⟩) ⟨2, 2⟩ ⟨⟨2, 1⟩⟩ .striped =
      .ok ⟨⟨.columnMajor ⟨2, 2⟩, ⟨2, 2⟩⟩, ⟨⟨2, 1⟩⟩, .striped⟩ := rfl
  obtain ⟨size, width, tasks, sized, -, listed, -, -, copied, -⟩ :=
    copyInto_every_schedule accepted #[5, 6, 7, 8] #[0, 0, 0, 0]
  obtain ⟨_, _, _, resized, -, -, -, refused, -, -⟩ :=
    copyInto_every_schedule accepted #[5, 6, 7, 8] #[0, 0, 0]
  cases sized
  cases resized
  cases listed
  have interleaves : crossedTurns.Interleaves
      [[.fetch 0 0, .fetch 1 2, .put 0 0, .put 1 2], [.fetch 0 1, .fetch 1 3, .put 0 1, .put 1 3]] := by
    intro worker
    match worker with
    | 0 => rfl
    | 1 => rfl
    | _ + 2 => rfl
  obtain ⟨ended, final, -⟩ := (copied rfl rfl fun _ => crossedTurns).2.2 interleaves
  exact ⟨_, accepted, ended, final, refused rfl (by decide) _⟩

end Host

end GridCopy
