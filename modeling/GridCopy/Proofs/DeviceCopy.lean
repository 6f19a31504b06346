import GridCopy.Proofs.HostCopy
import GridCopy.Proofs.Kernel

/-!
# Copies on a device

The units of a launch make the moves of the tasks on the host, so a copy on a device ends like one
on the host, whatever turns the units take and whatever the fresh memory of the output holds.
-/

namespace GridCopy

namespace Device

variable {α : Type} {plan : Plan} {launch : Launch} {input output : Array α}

/-- The run of the units of a launch, however they take their turns. -/
theorem runUnits_exact (carries : launch.Carries plan) (valid : plan.Valid)
    (sized : input.size = plan.layout.shape.area) (fits : output.size = plan.layout.shape.area)
    {schedule : Schedule} (interleaves : (schedule launch.programs).Interleaves launch.programs) :
    let ran := runUnits schedule launch input output
    let width := launch.input.lineSize.toNat
    ran.1 = .ok () ∧ ran.2.source = input ∧ ran.2.destination = input ∧
      ran.2.writes.toList.Perm
        ((List.range launch.output.lines).map fun line => (line * width, width)) := by
  rw [carries.programs_exact valid] at interleaves
  obtain ⟨ended, kept, copied, written⟩ := valid.run_exact sized fits interleaves
  have lines := (valid.chunks_perm (carries.size_eq valid)).map fun base => (base, plan.width)
  rw [List.map_map] at lines
  rw [runUnits, carries.programs_exact valid, ← carries.width_eq valid, carries.output]
  exact ⟨ended, kept, copied, written.trans lines⟩

theorem copyUnder_short (valid : plan.Valid) (short : input.size ≠ plan.layout.shape.area)
    (schedule : Schedule) (device : Device α) (read : Nat) :
    device.copyUnder schedule read plan input =
      ⟨[], refuse (.bufferSize plan.layout.shape.area input.size)⟩ := by
  simp only [copyUnder, valid.size_exact, Recorded.lift_ok, pure_bind, if_pos short,
    Recorded.lift_refuse]

/-- Once the input has been found to fit, a copy logs one line, starts one launch and delivers the
read of what the units have left. -/
theorem copyUnder_runs (valid : plan.Valid) (launched : launchOf plan = .ok launch)
    (sized : input.size = plan.layout.shape.area) (schedule : Schedule) (device : Device α)
    (read : Nat) :
    let output := Array.ofFn fun place : Fin plan.layout.shape.area => device.fresh place
    let ran := runUnits schedule launch input output
    device.copyUnder schedule read plan input =
      ⟨[.log .debug (announcement plan plan.gridShape plan.unitCount (UInt8.ofNat plan.width)),
        .launch launch],
        (ran.1.mapError .fault).map fun _ => device.readBack read ran.2.destination⟩ := by
  intro output ran
  simp only [copyUnder, valid.size_exact, Recorded.lift_ok, pure_bind, sized, ne_eq,
    not_true_eq_false, if_false, valid.grid_exact, valid.unitsPerTile_exact,
    valid.lineSize_exact.1, launched]
  change Recorded.log _ _ >>= (fun _ => Recorded.start launch >>= fun _ =>
    liftM ran.1 >>= fun _ => pure (device.readBack read ran.2.destination)) = _
  cases ran.1 with
  | error fault => rfl
  | ok => rfl

/-- A copy through any device: what it logs and starts, and the read that it delivers. -/
theorem copyUnder_exact (carries : launch.Carries plan) (valid : plan.Valid)
    (launched : launchOf plan = .ok launch) (sized : input.size = plan.layout.shape.area)
    {schedule : Schedule} (interleaves : (schedule launch.programs).Interleaves launch.programs)
    (device : Device α) (read : Nat) :
    device.copyUnder schedule read plan input =
      ⟨[.log .debug (announcement plan plan.gridShape plan.unitCount (UInt8.ofNat plan.width)),
        .launch launch], .ok (device.readBack read input)⟩ := by
  let output := Array.ofFn fun place : Fin plan.layout.shape.area => device.fresh place
  have fits : output.size = plan.layout.shape.area := Array.size_ofFn
  obtain ⟨ended, -, copied, -⟩ := runUnits_exact carries valid sized fits interleaves
  rw [copyUnder_runs valid launched sized, ended, copied]
  rfl

/-- A launch that checks no access makes none outside its buffers. -/
theorem lines_inside (carries : launch.Carries plan) (valid : plan.Valid) {place : UnitPlace}
    (listed : place ∈ launch.places) {repetition : UInt32 × UInt32}
    (repeated : repetition ∈ launch.blocking.repetitions) :
    (launch.line place repetition).toNat < launch.input.lines ∧
      (launch.line place repetition).toNat < launch.output.lines := by
  rw [carries.places_exact valid] at listed
  rw [carries.repetitions_exact valid] at repeated
  obtain ⟨owner, member, rfl⟩ := List.mem_map.mp listed
  obtain ⟨repetition, inShare, rfl⟩ := List.mem_map.mp repeated
  have inside := carries.line_lt valid (Plan.mem_ownerList.mp member) inShare
  exact ⟨inside, carries.output ▸ inside⟩

/-- A copy on a device under an accepted plan, whatever turns the units take and whatever the fresh
output memory holds. An input of the wrong length is refused and nothing is launched. Otherwise there
is one launch, and what is delivered is what the run of its units leaves. When every unit makes its
own moves, this is the input, as for the copy on the host: the units touch only lines of the two
buffers, leave the input as it is and write every line of the output exactly once. -/
theorem copyUnder_every_schedule {α : Type} {layout : Layout} {tile : Shape}
    {threads : Arrangement} {policy : Policy} {plan : Plan}
    (accepted : Plan.make layout tile threads policy = .ok plan) (input : Array α) (read : Nat) :
    ∃ size launch, layout.size = .ok size ∧ launchOf plan = .ok launch ∧
      (∀ place ∈ launch.places, ∀ repetition ∈ launch.blocking.repetitions,
        (launch.line place repetition).toNat < launch.input.lines ∧
          (launch.line place repetition).toNat < launch.output.lines) ∧
      (input.size ≠ size → ∀ schedule (device : Device α),
        device.copyUnder schedule read plan input =
          ⟨[], refuse (.bufferSize size input.size)⟩) ∧
      (input.size = size → ∀ (schedule : Schedule) (fresh : Nat → α),
        let copied := (faithful fresh).copyUnder schedule read plan input
        let output := Array.ofFn fun place : Fin size => fresh place
        let width := launch.input.lineSize.toNat
        let ran := Staging.runWorkers schedule width launch.programs input output
        copied.launches = [launch] ∧
          copied.result = (ran.1.mapError .fault).map (fun _ => ran.2.destination) ∧
          ((schedule launch.programs).Interleaves launch.programs →
            copied.result = .ok input ∧
              (∀ [Inhabited α], copied.result = (Host.copy plan input).result) ∧
              ran.1 = .ok () ∧ ran.2.source = input ∧ ran.2.destination = input ∧
              ran.2.writes.toList.Perm
                ((List.range launch.output.lines).map fun line => (line * width, width)))) := by
  obtain ⟨rfl, valid⟩ := Plan.make_eq_ok_iff.mp accepted
  obtain ⟨launch, launched, carries⟩ := valid.launchOf_exact
  refine ⟨_, launch, valid.size_exact, launched, ?_, ?_, ?_⟩
  · intro place listed repetition repeated
    exact lines_inside carries valid listed repeated
  · intro short schedule device
    exact copyUnder_short valid short schedule device read
  · intro sized schedule fresh copied output width ran
    have started : copied = _ :=
      copyUnder_runs valid launched sized schedule (faithful fresh) read
    refine ⟨congrArg Recorded.launches started, congrArg Recorded.result started, ?_⟩
    intro interleaves
    have delivered : copied = _ :=
      copyUnder_exact carries valid launched sized interleaves (faithful fresh) read
    refine ⟨congrArg Recorded.result delivered, ?_,
      runUnits_exact carries valid sized Array.size_ofFn interleaves⟩
    intro _
    rw [delivered, Host.copy_exact valid sized]
    rfl

/-- Two units whose reads and writes cross. -/
def crossedUnits : Trace :=
  [(1, .fetch 0 2), (1, .fetch 1 6), (0, .fetch 0 0), (1, .put 0 2), (0, .fetch 1 4), (0, .put 0 0),
    (1, .put 1 6), (0, .put 1 4)]

theorem copyUnder_every_schedule_crossed :
    ∃ plan, Plan.make (.columnMajor ⟨4, 2⟩) ⟨4, 2⟩ ⟨⟨2, 1⟩⟩ (.vectorized ⟨2, 1⟩) = .ok plan ∧
      ((faithful fun place => 90 + place).copyUnder (fun _ => crossedUnits) 0 plan
        #[1, 2, 3, 4, 5, 6, 7, 8]).result = .ok #[1, 2, 3, 4, 5, 6, 7, 8] ∧
      (faithful fun place => 90 + place).copyUnder (fun _ => crossedUnits) 0 plan #[1, 2, 3] =
        ⟨[], refuse (.bufferSize 8 3)⟩ := by
  have accepted : Plan.make (.columnMajor ⟨4, 2⟩) ⟨4, 2⟩ ⟨⟨2, 1⟩⟩ (.vectorized ⟨2, 1⟩) =
      .ok ⟨⟨.columnMajor ⟨4, 2⟩, ⟨4, 2⟩⟩, ⟨⟨2, 1⟩⟩, .vectorized ⟨2, 1⟩⟩ := rfl
  obtain ⟨size, launch, sized, launched, -, -, copied⟩ :=
    copyUnder_every_schedule accepted #[1, 2, 3, 4, 5, 6, 7, 8] 0
  obtain ⟨_, _, resized, -, -, refused, -⟩ := copyUnder_every_schedule accepted #[1, 2, 3] 0
  cases sized
  cases resized
  cases launched
  have interleaves : crossedUnits.Interleaves
      [[.fetch 0 0, .fetch 1 4, .put 0 0, .put 1 4],
        [.fetch 0 2, .fetch 1 6, .put 0 2, .put 1 6]] := by
    intro worker
    match worker with
    | 0 => rfl
    | 1 => rfl
    | _ + 2 => rfl
  obtain ⟨-, -, ended⟩ := copied rfl (fun _ => crossedUnits) fun place => 90 + place
  obtain ⟨delivered, -⟩ := ended interleaves
  exact ⟨_, accepted, delivered, refused (by decide) _ _⟩

end Device

end GridCopy
