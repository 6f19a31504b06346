import GridCopy.Proofs.Comparison
import GridCopy.Proofs.DeviceCopy
import GridCopy.Proofs.Outcomes
import GridCopy.Proofs.Ownership
import GridCopy.Proofs.SelectedPlans

/-!
# Trials

A trial of settings that have plans copies the numbered buffer once for each plan, and its outcome
is a function of the buffers that the copies deliver. The comparison of numbers and that of bits
pass together exactly when every buffer is the numbered one, up to the sign of its first zero.

Results:
1. `NumberedFrom.verified_iff`: which buffers the verification passes.
2. `Trial.runPlans_exact`, `Trial.runPlans_refused`: the runs of plans when all buffers that are
   delivered have the right length, and when one has not.
3. `Trial.run_on_host_and_device`: trials on the host and on a faithful device.
4. `Trial.runOnDevice_passes_iff`: what a device must deliver to pass.
-/

namespace GridCopy

/-! ## Comparison with the numbered buffer -/

/-- The bits of the numbered buffer, but for the first element. -/
structure NumberedFrom (first : Binary32) (size : Nat) (buffer : Array Binary32) : Prop where
  sized : buffer.size = size
  start : buffer[0]? = some first
  others : ∀ i, 1 ≤ i → i < size → buffer[i]? = (iota size)[i]?

namespace NumberedFrom

variable {first : Binary32} {size : Nat} {buffer : Array Binary32}

/-- Its first element determines the whole buffer. -/
theorem unique {other : Array Binary32} (numbered : NumberedFrom first size buffer)
    (again : NumberedFrom first size other) : buffer = other := by
  refine Array.ext_getElem? fun i => ?_
  cases i with
  | zero => exact numbered.start.trans again.start.symm
  | succ i =>
      by_cases inside : i + 1 < size
      · exact (numbered.others _ i.succ_pos inside).trans (again.others _ i.succ_pos inside).symm
      · rw [Array.getElem?_eq_none (by rw [numbered.sized]; exact Nat.not_lt.mp inside),
          Array.getElem?_eq_none (by rw [again.sized]; exact Nat.not_lt.mp inside)]

theorem iota (full : 0 < size) : NumberedFrom (.ofNat 0) size (iota size) :=
  ⟨iota_size size, iota_getElem? full, fun _ _ _ => rfl⟩

/-- A buffer of the right length is verified if and only if it is numbered from a zero on. -/
theorem verified_iff (full : 0 < size) (sized : buffer.size = size) :
    mismatches 0 ((GridCopy.iota size).toList.zip buffer.toList) = [] ↔
      ∃ zero : Binary32, zero.IsZero ∧ NumberedFrom zero size buffer := by
  rw [mismatches_zip_eq_nil_iff]
  constructor
  · intro equal
    have held : ∀ i < size, ∃ actual, buffer[i]? = some actual ∧
        (Binary32.ofNat i == actual) = true := by
      intro i inside
      have found := Array.getElem?_eq_getElem (sized.symm ▸ inside)
      exact ⟨_, found, equal i _ _ (iota_getElem? inside) found⟩
    obtain ⟨zero, start, isZero⟩ := held 0 full
    refine ⟨zero, Binary32.ofNat_zero_beq_iff.mp isZero, sized, start, fun i positive inside => ?_⟩
    obtain ⟨actual, found, same⟩ := held i inside
    rw [found, iota_getElem? inside, (Binary32.ofNat_beq_iff positive).mp same]
  · rintro ⟨zero, isZero, numbered⟩ i expected actual held copied
    obtain ⟨inside, rfl⟩ := of_iota_getElem? held
    cases i with
    | zero =>
        rw [numbered.start, Option.some.injEq] at copied
        exact Binary32.ofNat_zero_beq_iff.mpr (copied ▸ isZero)
    | succ i =>
        rw [numbered.others _ i.succ_pos inside, held, Option.some.injEq] at copied
        exact (Binary32.ofNat_beq_iff i.succ_pos).mpr copied.symm

end NumberedFrom

namespace Trial

/-! ## Runs of plans -/

section Runs

variable {copier : Copier} {source : Array Binary32} {plans : List Plan}
  {delivered : Nat → Array Binary32}

/-- The run of a plan whose copy delivers a buffer of the right length. -/
def runOf (source : Array Binary32) (limit : Nat) (plan : Plan) (destination : Array Binary32) :
    PolicyRun where
  policy := plan.policy
  verification := .ofMismatches (max limit 1)
    (mismatches 0 (source.toList.zip destination.toList))
  destination := destination

/-- The runs of plans whose copies deliver one buffer each, numbered from `number` on. -/
def runsOf (source : Array Binary32) (limit : Nat) (delivered : Nat → Array Binary32)
    (number : Nat) (plans : List Plan) : List PolicyRun :=
  (plans.zipIdx number).map fun run => runOf source limit run.1 (delivered run.2)

theorem runPlan_exact (limit : Nat) {plan : Plan} {number : Nat} {destination : Array Binary32}
    (copied : (copier number plan source).result = .ok destination)
    (sized : destination.size = source.size) :
    (runPlan copier source limit number plan).result =
      .ok (runOf source limit plan destination) := by
  rw [runPlan, Recorded.result_bind_ok rfl, Recorded.result_bind_ok copied, verify_exact sized]
  rfl

theorem runPlan_refused (limit : Nat) {plan : Plan} {number : Nat} {destination : Array Binary32}
    (copied : (copier number plan source).result = .ok destination)
    (apart : destination.size ≠ source.size) :
    (runPlan copier source limit number plan).result =
      refuse (.bufferSize source.size destination.size) := by
  rw [runPlan, Recorded.result_bind_ok rfl, Recorded.result_bind_ok copied, verify_refused apart]
  rfl

theorem runPlans_exact (limit number : Nat)
    (copied : ∀ plan ∈ plans, ∀ read, (copier read plan source).result = .ok (delivered read))
    (sized : ∀ read, number ≤ read → read < number + plans.length →
      (delivered read).size = source.size) :
    (runPlans copier source limit number plans).result =
      .ok (runsOf source limit delivered number plans) := by
  induction plans generalizing number with
  | nil => rfl
  | cons plan rest ih =>
      rw [List.length_cons] at sized
      have first := runPlan_exact limit (copied plan List.mem_cons_self number)
        (sized number (Nat.le_refl _) (by omega))
      have others := ih (number + 1)
        (fun other member => copied other (List.mem_cons_of_mem _ member))
        fun read after before => sized read (by omega) (by omega)
      rw [runPlans, Recorded.result_bind_ok first, Recorded.result_bind_ok others]
      rfl

/-- The first buffer of a wrong length ends the trial. -/
theorem runPlans_refused (limit number : Nat)
    (copied : ∀ plan ∈ plans, ∀ read, (copier read plan source).result = .ok (delivered read))
    {short : Nat} (after : number ≤ short) (before : short < number + plans.length)
    (apart : (delivered short).size ≠ source.size)
    (earlier : ∀ read, number ≤ read → read < short → (delivered read).size = source.size) :
    (runPlans copier source limit number plans).result =
      refuse (.bufferSize source.size (delivered short).size) := by
  induction plans generalizing number with
  | nil => exact absurd before (by simpa using after)
  | cons plan rest ih =>
      have ranPlan := copied plan List.mem_cons_self number
      by_cases here : number = short
      · subst here
        exact Recorded.result_bind_error (runPlan_refused limit ranPlan apart)
      · rw [List.length_cons] at before
        have first := runPlan_exact limit ranPlan (earlier number (Nat.le_refl _) (by omega))
        have others := ih (number + 1)
          (fun other member => copied other (List.mem_cons_of_mem _ member)) (by omega) (by omega)
          fun read later sooner => earlier read (by omega) sooner
        rw [runPlans, Recorded.result_bind_ok first]
        exact Recorded.result_bind_error others

/-- Trials with copiers that do the same do the same. -/
theorem runPlans_congr {other : Copier} (limit number : Nat)
    (same : ∀ plan ∈ plans, ∀ read, copier read plan source = other read plan source) :
    runPlans copier source limit number plans = runPlans other source limit number plans := by
  induction plans generalizing number with
  | nil => rfl
  | cons plan rest ih =>
      have first := same plan List.mem_cons_self number
      have others := ih (number + 1) fun plan member => same plan (List.mem_cons_of_mem _ member)
      simp only [runPlans, runPlan, first, others]

end Runs

/-! ## Trials of settings that have plans -/

section Planned

variable {settings : Settings} {plans : List Plan}

theorem checkOwnership_exact (valid : ∀ plan ∈ plans, plan.Valid) :
    checkOwnership plans = .ok () := by
  induction plans with
  | nil => rfl
  | cons plan rest ih =>
      obtain ⟨first, others⟩ := List.forall_mem_cons.mp valid
      simp only [checkOwnership, first.ownershipMap_exact, ih others, bind, Except.bind]

theorem run_unplanned {error : CopyError} (unplanned : settings.plans = refuse error)
    (copier : Copier) : run copier settings = ⟨[], refuse error⟩ := by
  simp only [run, unplanned]
  rfl

theorem run_planned (planned : settings.plans = .ok plans) (copier : Copier) :
    run copier settings = do
      let runs ← runPlans copier (iota settings.shape.area) (max settings.errorLimit 1) 0 plans
      return ⟨runs, max settings.errorLimit 1⟩ := by
  have checked := checkOwnership_exact fun plan member =>
    (Settings.valid_of_mem_plans planned member).1
  simp only [run, planned, Recorded.lift_answer, pure_bind, checked,
    (Settings.shape_of_planned planned).1, Recorded.lift_ok]

/-- A trial whose copies all deliver the numbered buffer. -/
theorem run_faithful (planned : settings.plans = .ok plans) {copier : Copier}
    (copied : ∀ plan ∈ plans, ∀ read, (copier read plan (iota settings.shape.area)).result =
      .ok (iota settings.shape.area)) :
    (run copier settings).result =
      .ok ⟨plans.map fun plan => ⟨plan.policy, .success, iota settings.shape.area⟩,
        max settings.errorLimit 1⟩ := by
  obtain ⟨-, full⟩ := Settings.shape_of_planned planned
  have equal := (NumberedFrom.verified_iff full (iota_size _)).mpr
    ⟨.ofNat 0, .inl rfl, .iota full⟩
  have ran := runPlans_exact (max settings.errorLimit 1) 0 copied fun _ _ _ => rfl
  rw [run_planned planned, Recorded.result_bind_ok ran]
  simp only [runsOf, runOf, equal]
  conv_rhs => rw [← List.zipIdx_map_fst 0 plans, List.map_map]
  rfl

/-- The copies of a faithful trial agree with the numbered buffer and with one another. -/
theorem faithful_succeeds (plans : List Plan) (buffer : Array Binary32) (errorLimit : Nat) :
    (Outcome.mk (plans.map fun plan => ⟨plan.policy, .success, buffer⟩) errorLimit).exitCode =
      0 := by
  have same : ∀ run ∈ plans.map fun plan => PolicyRun.mk plan.policy .success buffer,
      run.verification = .success ∧ run.destination = buffer := by
    intro run member
    obtain ⟨plan, -, rfl⟩ := List.mem_map.mp member
    exact ⟨rfl, rfl⟩
  refine Outcome.exitCode_eq_zero_iff.mpr ⟨fun run member => ?_, fun run member other listed => ?_⟩
  · rw [(same run member).1]
    rfl
  · exact (same run member).2.trans (same other listed).2.symm

end Planned

/-! ## Trials on the host and on a device -/

/-- A way in which workers take their turns: each makes the moves of its own program, in order and
to the end. -/
structure Turns where
  order : Schedule
  interleaves : ∀ programs, (order programs).Interleaves programs

/-- Copies on the host whose tasks take their turns, in the n-th copy, as the n-th way says. -/
def hostUnder (turns : Nat → Turns) : Copier := fun number =>
  Host.copyUnder (turns number).order

/-- Copies through a device whose units take their turns, in the n-th copy, as the n-th way says. -/
def deviceUnder (turns : Nat → Turns) (device : Device Binary32) : Copier := fun number =>
  device.copyUnder (turns number).order number

section Copiers

variable {plan : Plan} {source : Array Binary32} {settings : Settings} {plans : List Plan}

theorem hostUnder_eq (valid : plan.Valid) (sized : source.size = plan.layout.shape.area)
    (turns : Nat → Turns) (number : Nat) :
    hostUnder turns number plan source = Host.copy plan source := by
  rw [hostUnder, Host.copyUnder_exact valid sized ((turns number).interleaves _),
    Host.copy_exact valid sized]

theorem deviceUnder_eq (valid : plan.Valid) (sized : source.size = plan.layout.shape.area)
    (turns : Nat → Turns) (device : Device Binary32) (number : Nat) :
    deviceUnder turns device number plan source = device.copy number plan source := by
  obtain ⟨launch, launched, carries⟩ := valid.launchOf_exact
  rw [deviceUnder, Device.copy, Device.copyUnder_exact carries valid launched sized
    ((turns number).interleaves _), Device.copyUnder_exact carries valid launched sized
    (Trace.oneByOne_interleaves _)]

theorem device_delivers (valid : plan.Valid) (sized : source.size = plan.layout.shape.area)
    (device : Device Binary32) (read : Nat) :
    (device.copy read plan source).result = .ok (device.readBack read source) := by
  obtain ⟨launch, launched, carries⟩ := valid.launchOf_exact
  rw [Device.copy, Device.copyUnder_exact carries valid launched sized
    (Trace.oneByOne_interleaves _)]

/-- The numbered buffer of a trial fits all of its plans. -/
theorem source_sized (planned : settings.plans = .ok plans) (member : plan ∈ plans) :
    plan.Valid ∧ (iota settings.shape.area).size = plan.layout.shape.area := by
  obtain ⟨valid, described⟩ := Settings.valid_of_mem_plans planned member
  rw [described]
  exact ⟨valid, iota_size _⟩

theorem runOnHost_exact (planned : settings.plans = .ok plans) :
    (runOnHost settings).result =
      .ok ⟨plans.map fun plan => ⟨plan.policy, .success, iota settings.shape.area⟩,
        max settings.errorLimit 1⟩ := by
  refine run_faithful planned fun plan member read => ?_
  obtain ⟨valid, sized⟩ := source_sized planned member
  rw [Host.copy_exact valid sized]

theorem runOnFaithfulDevice_exact (planned : settings.plans = .ok plans) (fresh : Nat → Binary32) :
    (runOnDevice (.faithful fresh) settings).result =
      .ok ⟨plans.map fun plan => ⟨plan.policy, .success, iota settings.shape.area⟩,
        max settings.errorLimit 1⟩ := by
  refine run_faithful planned fun plan member read => ?_
  obtain ⟨valid, sized⟩ := source_sized planned member
  exact device_delivers valid sized _ read

/-- The order of the turns shows neither in the outcome nor in the journal of a trial. -/
theorem run_turns (settings : Settings) (turns : Nat → Turns) (device : Device Binary32) :
    run (hostUnder turns) settings = runOnHost settings ∧
      run (deviceUnder turns device) settings = runOnDevice device settings := by
  rcases settings.plans_cases with ⟨plans, planned⟩ | ⟨error, unplanned⟩
  · rw [runOnHost, runOnDevice, run_planned planned, run_planned planned, run_planned planned,
      run_planned planned]
    constructor
    · rw [runPlans_congr _ _ fun plan member read => ?_]
      obtain ⟨valid, sized⟩ := source_sized planned member
      exact hostUnder_eq valid sized turns read
    · rw [runPlans_congr _ _ fun plan member read => ?_]
      obtain ⟨valid, sized⟩ := source_sized planned member
      exact deviceUnder_eq valid sized turns device read
  · simp only [runOnHost, runOnDevice, run_unplanned unplanned, and_self]

end Copiers

/-! ## Trials on any device -/

section Delivered

variable {settings : Settings} {plans : List Plan}

theorem device_delivers_all (planned : settings.plans = .ok plans) (device : Device Binary32) :
    ∀ plan ∈ plans, ∀ read, (device.copy read plan (iota settings.shape.area)).result =
      .ok (device.readBack read (iota settings.shape.area)) := by
  intro plan member read
  obtain ⟨valid, sized⟩ := source_sized planned member
  exact device_delivers valid sized device read

/-- The outcome of a trial on a device all of whose reads have the right length. -/
theorem runOnDevice_exact (planned : settings.plans = .ok plans) (device : Device Binary32)
    (sized : ∀ read < plans.length,
      (device.readBack read (iota settings.shape.area)).size = settings.shape.area) :
    (runOnDevice device settings).result =
      .ok ⟨runsOf (iota settings.shape.area) (max settings.errorLimit 1)
          (fun read => device.readBack read (iota settings.shape.area)) 0 plans,
        max settings.errorLimit 1⟩ := by
  have ran := runPlans_exact (max settings.errorLimit 1) 0 (device_delivers_all planned device)
    fun read _ before => (sized read (by omega)).trans (iota_size _).symm
  rw [runOnDevice, run_planned planned, Recorded.result_bind_ok ran]
  rfl

/-- All reads have the right length, or one of them is the first that has not. -/
theorem lengths_cases (delivered : Nat → Array Binary32) (size reads : Nat) :
    (∀ read < reads, (delivered read).size = size) ∨
      ∃ read < reads, (delivered read).size ≠ size ∧
        ∀ earlier < read, (delivered earlier).size = size := by
  induction reads with
  | zero => exact .inl fun _ inside => absurd inside (Nat.not_lt_zero _)
  | succ reads ih =>
      rcases ih with sized | ⟨read, inside, wrong⟩
      · by_cases last : (delivered reads).size = size
        · exact .inl (Nat.forall_lt_succ_right.mpr ⟨sized, last⟩)
        · exact .inr ⟨reads, reads.lt_succ_self, last, sized⟩
      · exact .inr ⟨read, inside.trans reads.lt_succ_self, wrong⟩

/-- A read of a wrong length ends the trial, and the first one is reported. -/
theorem runOnDevice_refused (planned : settings.plans = .ok plans) (device : Device Binary32)
    {read : Nat} (inside : read < plans.length)
    (apart : (device.readBack read (iota settings.shape.area)).size ≠ settings.shape.area)
    (earlier : ∀ other < read,
      (device.readBack other (iota settings.shape.area)).size = settings.shape.area) :
    (runOnDevice device settings).result = refuse (.bufferSize settings.shape.area
      (device.readBack read (iota settings.shape.area)).size) := by
  have refused := runPlans_refused (max settings.errorLimit 1) 0
    (device_delivers_all planned device) (Nat.zero_le read) (by omega) (by rwa [iota_size])
    fun other _ before => (earlier other before).trans (iota_size _).symm
  rw [iota_size] at refused
  rw [runOnDevice, run_planned planned]
  exact Recorded.result_bind_error refused

variable {source : Array Binary32} {limit : Nat} {delivered : Nat → Array Binary32}

theorem forall_runsOf_iff {property : PolicyRun → Prop} :
    (∀ run ∈ runsOf source limit delivered 0 plans, property run) ↔
      ∀ (read : Nat) (inside : read < plans.length),
        property (runOf source limit plans[read] (delivered read)) := by
  rw [runsOf, List.forall_mem_map]
  constructor
  · intro all read inside
    exact all (plans[read], read)
      (List.mem_zipIdx_iff_getElem?.mpr (List.getElem?_eq_getElem inside))
  · rintro all ⟨plan, read⟩ member
    obtain ⟨inside, found⟩ := List.getElem?_eq_some_iff.mp (List.mem_zipIdx_iff_getElem?.mp member)
    have property := all read inside
    rwa [found] at property

/-- What the reads of a trial must deliver: each the numbered buffer, from the same zero on. -/
def Passes (size reads : Nat) (delivered : Nat → Array Binary32) : Prop :=
  ∃ zero : Binary32, zero.IsZero ∧ ∀ read < reads, NumberedFrom zero size (delivered read)

theorem exitCode_zero_iff_passes {size : Nat} (full : 0 < size) (selected : plans ≠ [])
    (sized : ∀ read < plans.length, (delivered read).size = size) (limit : Nat) :
    (Outcome.mk (runsOf (iota size) limit delivered 0 plans) limit).exitCode = 0 ↔
      Passes size plans.length delivered := by
  rw [Outcome.exitCode_eq_zero_iff]
  simp only [forall_runsOf_iff, runOf, Verification.isSuccess_ofMismatches]
  constructor
  · rintro ⟨verified, same⟩
    have first : 0 < plans.length := List.length_pos_iff.mpr selected
    obtain ⟨zero, isZero, numbered⟩ :=
      (NumberedFrom.verified_iff full (sized 0 first)).mp (verified 0 first)
    exact ⟨zero, isZero, fun read inside => same 0 first read inside ▸ numbered⟩
  · rintro ⟨zero, isZero, numbered⟩
    constructor
    · intro read inside
      exact (NumberedFrom.verified_iff full (sized read inside)).mpr
        ⟨zero, isZero, numbered read inside⟩
    · intro read inside other within
      exact (numbered read inside).unique (numbered other within)

end Delivered

/-- A trial on the host and one on a device that delivers what it holds. However tasks and units
take their turns, both are refused for the same reason, before anything is launched or logged, or
both give the same outcome: one verified run for each plan, in order, all with the bits of the
numbered buffer. -/
theorem run_on_host_and_device (settings : Settings) (fresh : Nat → Binary32)
    (taskTurns unitTurns : Nat → Turns) :
    let device := Device.faithful fresh
    run (hostUnder taskTurns) settings = runOnHost settings ∧
      run (deviceUnder unitTurns device) settings = runOnDevice device settings ∧
      (runOnDevice device settings).result = (runOnHost settings).result ∧
      ((∃ error, settings.plans = refuse error ∧ runOnHost settings = ⟨[], refuse error⟩ ∧
          runOnDevice device settings = ⟨[], refuse error⟩) ∨
        ∃ plans size outcome, settings.plans = .ok plans ∧ settings.shape.size = .ok size ∧
          (runOnHost settings).result = .ok outcome ∧
          outcome.errorLimit = max settings.errorLimit 1 ∧
          outcome.runs = plans.map (fun plan => ⟨plan.policy, .success, iota size⟩) ∧
          outcome.policiesAgree = true ∧ outcome.exitCode = 0 ∧
          outcome.report .working = (.ok (), ⟨"Success.\n", "", 1⟩)) := by
  refine ⟨(run_turns settings taskTurns (.faithful fresh)).1,
    (run_turns settings unitTurns (.faithful fresh)).2, ?_⟩
  rcases settings.plans_cases with ⟨plans, planned⟩ | ⟨error, unplanned⟩
  · have onHost := runOnHost_exact planned
    have succeeded := faithful_succeeds plans (iota settings.shape.area) (max settings.errorLimit 1)
    refine ⟨(runOnFaithfulDevice_exact planned fresh).trans onHost.symm, .inr ⟨plans, _, _, planned,
      (Settings.shape_of_planned planned).1, onHost, rfl, rfl, ?_, succeeded,
      Outcome.report_of_exitCode_zero succeeded⟩⟩
    exact Outcome.policiesAgree_iff.mpr (Outcome.exitCode_eq_zero_iff.mp succeeded).2
  · have onHost : runOnHost settings = ⟨[], refuse error⟩ := run_unplanned unplanned _
    have onDevice : runOnDevice (.faithful fresh) settings = ⟨[], refuse error⟩ :=
      run_unplanned unplanned _
    exact ⟨by rw [onHost, onDevice], .inl ⟨error, unplanned, onHost, onDevice⟩⟩

/-- A trial on a device whose reads deliver anything. It ends well if and only if each read delivers
the bits of the numbered buffer, where the first element may be either zero but is the same in all
of them. Otherwise the first read of a wrong length is refused, and without one the exit code is
`-1`. -/
theorem runOnDevice_passes_iff {settings : Settings} {plans : List Plan}
    (planned : settings.plans = .ok plans) (device : Device Binary32) :
    ∃ size, settings.shape.size = .ok size ∧
      let delivered read := device.readBack read (iota size)
      ((∃ outcome, (runOnDevice device settings).result = .ok outcome ∧ outcome.exitCode = 0) ↔
          Passes size plans.length delivered) ∧
        (¬ Passes size plans.length delivered →
          (∃ read < plans.length, (delivered read).size ≠ size ∧
              (∀ earlier < read, (delivered earlier).size = size) ∧
              (runOnDevice device settings).result =
                refuse (.bufferSize size (delivered read).size)) ∨
            (∀ read < plans.length, (delivered read).size = size) ∧
              ∃ outcome, (runOnDevice device settings).result = .ok outcome ∧
                outcome.exitCode = -1) := by
  obtain ⟨known, full⟩ := Settings.shape_of_planned planned
  refine ⟨_, known, ?_⟩
  intro delivered
  rcases lengths_cases delivered settings.shape.area plans.length with
    sized | ⟨read, inside, apart, earlier⟩
  · have ran := runOnDevice_exact planned device sized
    have passes := exitCode_zero_iff_passes full (Settings.plans_ne_nil planned) sized
      (max settings.errorLimit 1)
    refine ⟨⟨?_, fun passed => ⟨_, ran, passes.mpr passed⟩⟩, fun failed => ?_⟩
    · rintro ⟨outcome, result, succeeded⟩
      rw [ran] at result
      cases result
      exact passes.mp succeeded
    · exact .inr ⟨sized, _, ran, (Outcome.exitCode_cases _).resolve_left (mt passes.mp failed)⟩
  · have refused := runOnDevice_refused planned device inside apart earlier
    refine ⟨⟨?_, ?_⟩, fun _ => .inl ⟨_, inside, apart, earlier, refused⟩⟩
    · rintro ⟨outcome, result, -⟩
      rw [refused] at result
      cases result
    · rintro ⟨zero, -, numbered⟩
      exact absurd (numbered read inside).sized apart

/-- A device whose first read delivers one buffer and whose later reads deliver another. -/
def delivering (first later : Array Binary32) : Device Binary32 :=
  ⟨fun _ => default, fun read _ => if read = 0 then first else later⟩

/-- Settings of a trial that copies the numbers zero and one twice. -/
def twoNumbers : Settings := ⟨⟨1, 2⟩, ⟨1, 2⟩, ⟨1, 1⟩, ⟨1, 2⟩, .columnMajor, .both, 10⟩

/-- Both copies from the negative zero on, from different zeros on, and the second one too short. -/
theorem runOnDevice_passes_iff_negative_zero :
    let negative : Array Binary32 := #[⟨0x80000000⟩, ⟨0x3f800000⟩]
    let positive : Array Binary32 := #[⟨0⟩, ⟨0x3f800000⟩]
    (∃ outcome, (runOnDevice (delivering negative negative) twoNumbers).result = .ok outcome ∧
        outcome.exitCode = 0) ∧
      (∃ outcome, (runOnDevice (delivering negative positive) twoNumbers).result = .ok outcome ∧
        outcome.exitCode = -1) ∧
      (runOnDevice (delivering negative #[⟨0⟩]) twoNumbers).result = refuse (.bufferSize 2 1) := by
  intro negative positive
  have planned : twoNumbers.plans = .ok (twoNumbers.policies.map twoNumbers.planUnder) := rfl
  refine ⟨?_, ?_, ?_⟩
  · obtain ⟨size, sized, passes, -⟩ :=
      runOnDevice_passes_iff planned (delivering negative negative)
    cases sized
    refine passes.mpr ⟨⟨0x80000000⟩, .inr rfl, fun read inside => ?_⟩
    have numbered : NumberedFrom ⟨0x80000000⟩ 2 negative := by
      refine ⟨rfl, rfl, fun i after before => ?_⟩
      obtain rfl : i = 1 := by omega
      rw [iota_getElem? before]
      rfl
    match read with
    | 0 => exact numbered
    | 1 => exact numbered
  · obtain ⟨size, sized, -, fails⟩ :=
      runOnDevice_passes_iff planned (delivering negative positive)
    cases sized
    have apart :
        ¬ Passes 2 2 fun read => (delivering negative positive).readBack read (iota 2) := by
      rintro ⟨zero, -, numbered⟩
      have first := (numbered 0 (by decide)).start
      have second := (numbered 1 (by decide)).start
      cases first
      cases second
    rcases fails apart with ⟨read, inside, short, -⟩ | ⟨-, failed⟩
    · match read with
      | 0 => exact absurd rfl short
      | 1 => exact absurd rfl short
    · exact failed
  · obtain ⟨size, sized, -, fails⟩ :=
      runOnDevice_passes_iff planned (delivering negative #[⟨0⟩])
    cases sized
    have short : ¬ Passes 2 2 fun read => (delivering negative #[⟨0⟩]).readBack read (iota 2) := by
      rintro ⟨zero, -, numbered⟩
      exact absurd (numbered 1 (by decide)).sized (by decide)
    rcases fails short with ⟨read, inside, wrong, -, refused⟩ | ⟨sized, -⟩
    · match read with
      | 0 => exact absurd rfl wrong
      | 1 => exact refused
    · exact absurd (sized 1 (by decide)) (by decide)

end Trial

end GridCopy
