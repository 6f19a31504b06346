import GridCopy.Proofs.Trials

/-!
# What a trial makes of what a device delivers

A trial starts one launch for each of its plans, in order, and takes what the device delivers as it
comes. The first buffer of a wrong length ends the trial, so the launches are those of the plans up
to that one, and without such a buffer every plan has a run.

Results:
1. `Trial.runPlans_launches`: the launches of plans up to the first buffer of a wrong length.
2. `Trial.exists_run`, `Trial.failed_of_mem_runsOf`: the run of each plan.
3. `Trial.runOnDevice_takes_deliveries`: the whole trial, whatever the device delivers.
-/

namespace GridCopy

theorem verify_launches {α : Type} [BEq α] (source destination : Array α) (limit : Nat) :
    (verify source destination limit).launches = [] := by
  by_cases sized : destination.size = source.size
  · rw [verify_exact sized, Recorded.launches, List.filterMap_map]
    exact List.filterMap_eq_nil_iff.mpr fun _ _ => rfl
  · rw [verify_refused sized]
    rfl

namespace Trial

section Launches

variable {copier : Copier} {source : Array Binary32} {plans : List Plan}
  {delivered : Nat → Array Binary32} {launchFor : Plan → Launch}

/-- A run launches what its copy launches, also if the buffer that it gets is refused. -/
theorem runPlan_launches (limit : Nat) {plan : Plan} {number : Nat} {destination : Array Binary32}
    (copied : (copier number plan source).result = .ok destination) :
    (runPlan copier source limit number plan).launches =
      (copier number plan source).launches := by
  rw [runPlan, Recorded.launches_bind_ok rfl, Recorded.launches_bind_ok copied]
  cases compared : (verify source destination limit).result with
  | error failure =>
      rw [Recorded.launches_bind_error compared, verify_launches]
      exact List.append_nil _
  | ok verdict =>
      rw [Recorded.launches_bind_ok compared, verify_launches]
      exact List.append_nil _

/-- Plans are launched in order, once each, up to the first one whose buffer has a wrong length. -/
theorem runPlans_launches (limit number passed : Nat)
    (copied : ∀ plan ∈ plans, ∀ read, (copier read plan source).result = .ok (delivered read))
    (launched : ∀ plan ∈ plans, ∀ read, (copier read plan source).launches = [launchFor plan])
    (sized : ∀ read, number ≤ read → read < number + passed →
      (delivered read).size = source.size)
    (stops : passed < plans.length → (delivered (number + passed)).size ≠ source.size) :
    (runPlans copier source limit number plans).launches =
      (plans.map launchFor).take (passed + 1) := by
  -- On the plans: `passed` counts those still to come before the buffer of a wrong length.
  induction plans generalizing number passed with
  | nil => rfl
  | cons plan rest ih =>
      obtain ⟨copiedHere, copiedLater⟩ := List.forall_mem_cons.mp copied
      obtain ⟨launchedHere, launchedLater⟩ := List.forall_mem_cons.mp launched
      have first := runPlan_launches limit (copiedHere number)
      rw [launchedHere] at first
      cases passed with
      | zero =>
          have refused := runPlan_refused limit (copiedHere number)
            (stops (Nat.zero_lt_succ _))
          rw [runPlans, Recorded.launches_bind_error refused, first]
          rfl
      | succ passed =>
          have ran := runPlan_exact limit (copiedHere number)
            (sized number (Nat.le_refl _) (by omega))
          have next : number + 1 + passed = number + (passed + 1) := Nat.add_right_comm _ _ _
          have others := ih (number + 1) passed copiedLater launchedLater
            (fun read after before => sized read (by omega) (by omega))
            fun inside => next ▸ stops (Nat.succ_lt_succ inside)
          rw [runPlans, Recorded.launches_bind_ok ran, first, Recorded.launches_bind_pure, others]
          rfl

end Launches

section Runs

variable {source : Array Binary32} {plans : List Plan} {delivered : Nat → Array Binary32}

theorem runsOf_getElem? (source : Array Binary32) (limit : Nat)
    (delivered : Nat → Array Binary32) (plans : List Plan) (read : Nat) :
    (runsOf source limit delivered 0 plans)[read]? =
      plans[read]?.map fun plan => runOf source limit plan (delivered read) := by
  simp only [runsOf, List.getElem?_map, List.getElem?_zipIdx, Nat.zero_add, Option.map_map]
  rfl

/-- The run of a plan holds what was delivered, and what a comparison with it finds. -/
theorem exists_run (sized : ∀ read < plans.length, (delivered read).size = source.size)
    (limit : Nat) {read : Nat} {plan : Plan} (listed : plans[read]? = some plan) :
    ∃ run, (runsOf source limit delivered 0 plans)[read]? = some run ∧
      run.policy = plan.policy ∧ run.destination = delivered read ∧
      (verify source (delivered read) limit).result = .ok run.verification := by
  obtain ⟨inside, -⟩ := List.getElem?_eq_some_iff.mp listed
  have ran : (runsOf source limit delivered 0 plans)[read]? =
      some (runOf source limit plan (delivered read)) := by
    rw [runsOf_getElem?, listed]
    rfl
  exact ⟨_, ran, rfl, rfl, congrArg Recorded.result (verify_exact (sized read inside) limit)⟩

/-- A run whose comparison failed has mismatches, and as many as the limit if it was given up. -/
theorem failed_of_mem_runsOf {limit : Nat} {run : PolicyRun} {found : List (Mismatch Binary32)}
    {aborted : Bool} (sized : ∀ read < plans.length, (delivered read).size = source.size)
    (member : run ∈ runsOf source limit delivered 0 plans)
    (failed : run.verification = .failed found aborted) :
    1 ≤ found.length ∧ found.length ≤ max limit 1 ∧
      (aborted = true → found.length = max limit 1) := by
  obtain ⟨read, held⟩ := List.mem_iff_getElem?.mp member
  obtain ⟨plan, listed, -⟩ := Option.map_eq_some_iff.mp ((runsOf_getElem? ..).symm.trans held)
  obtain ⟨ran, same, -, -, compared⟩ := exists_run sized limit listed
  obtain rfl : ran = run := Option.some.inj (same.symm.trans held)
  rw [failed] at compared
  obtain ⟨present, most, full, -⟩ := verify_failed compared
  exact ⟨present, most, full⟩

end Runs

section Device

variable {settings : Settings} {plans : List Plan}

/-- Every plan of a trial has a launch, and its copy starts no other one. -/
theorem exists_launches (planned : settings.plans = .ok plans) (device : Device Binary32) :
    ∃ launchFor : Plan → Launch, plans.mapM Device.launchOf = .ok (plans.map launchFor) ∧
      ∀ plan ∈ plans, ∀ read,
        (device.copy read plan (iota settings.shape.area)).launches = [launchFor plan] := by
  have launched : ∀ plan ∈ plans, ∃ launch, Device.launchOf plan = .ok launch ∧ ∀ read,
      (device.copy read plan (iota settings.shape.area)).launches = [launch] := by
    intro plan member
    obtain ⟨valid, sized⟩ := source_sized planned member
    obtain ⟨launch, launched, carries⟩ := valid.launchOf_exact
    refine ⟨launch, launched, fun read => ?_⟩
    rw [Device.copy, Device.copyUnder_exact carries valid launched sized
      (Trace.oneByOne_interleaves _)]
    rfl
  obtain ⟨first, member⟩ := List.exists_mem_of_ne_nil plans (Settings.plans_ne_nil planned)
  have : Nonempty Launch := (launched first member).nonempty
  choose! launchFor known started using launched
  exact ⟨launchFor, mapM_ok known, started⟩

theorem runOnDevice_launches (planned : settings.plans = .ok plans) (device : Device Binary32)
    {launches : List Launch} (known : plans.mapM Device.launchOf = .ok launches) {passed : Nat}
    (sized : ∀ read < passed,
      (device.readBack read (iota settings.shape.area)).size = settings.shape.area)
    (stops : passed < plans.length →
      (device.readBack passed (iota settings.shape.area)).size ≠ settings.shape.area) :
    (runOnDevice device settings).launches = launches.take (passed + 1) := by
  obtain ⟨launchFor, all, started⟩ := exists_launches planned device
  obtain rfl := Except.ok.inj (known.symm.trans all)
  rw [runOnDevice, run_planned planned, Recorded.launches_bind_pure]
  refine runPlans_launches _ 0 passed (device_delivers_all planned device) started ?_ ?_
  · intro read _ before
    exact (sized read (by omega)).trans (iota_size _).symm
  · rwa [iota_size, Nat.zero_add]

end Device

/-- A trial on a device that delivers anything. Settings that have no plan are refused, and nothing
is launched or logged. Otherwise the plans are launched in order, once each, until the device
delivers a buffer of a wrong length: it is refused, and the later plans are not launched. Without
such a buffer there is one run for each plan, with the buffer delivered and what a comparison with
the numbered one finds; a comparison that fails has found a mismatch, no more than the limit, and
as many as that if it was given up. -/
theorem runOnDevice_takes_deliveries (settings : Settings) (device : Device Binary32) :
    let trial := runOnDevice device settings
    let limit := max settings.errorLimit 1
    (∃ error, settings.plans = refuse error ∧ trial = ⟨[], refuse error⟩) ∨
      ∃ plans launches size, settings.plans = .ok plans ∧
        plans.mapM Device.launchOf = .ok launches ∧ launches.length = plans.length ∧
        settings.shape.size = .ok size ∧
        let delivered read := device.readBack read (iota size)
        ((∃ read < plans.length, (delivered read).size ≠ size ∧
            (∀ earlier < read, (delivered earlier).size = size) ∧
            trial.launches = launches.take (read + 1) ∧
            trial.result = refuse (.bufferSize size (delivered read).size)) ∨
          (∀ read < plans.length, (delivered read).size = size) ∧ trial.launches = launches ∧
            ∃ outcome, trial.result = .ok outcome ∧ outcome.errorLimit = limit ∧
              outcome.runs.length = plans.length ∧
              (∀ (read : Nat) (plan : Plan), plans[read]? = some plan →
                ∃ run, outcome.runs[read]? = some run ∧ run.policy = plan.policy ∧
                  run.destination = delivered read ∧
                  (verify (iota size) (delivered read) limit).result = .ok run.verification) ∧
              ∀ run ∈ outcome.runs, ∀ found aborted, run.verification = .failed found aborted →
                1 ≤ found.length ∧ found.length ≤ limit ∧
                  (aborted = true → found.length = limit)) := by
  intro trial limit
  rcases settings.plans_cases with ⟨plans, planned⟩ | ⟨error, unplanned⟩
  · obtain ⟨launchFor, known, -⟩ := exists_launches planned device
    refine .inr ⟨plans, plans.map launchFor, settings.shape.area, planned, known, List.length_map _,
      (Settings.shape_of_planned planned).1, ?_⟩
    intro delivered
    rcases lengths_cases delivered settings.shape.area plans.length with
      sized | ⟨read, inside, apart, earlier⟩
    · have launched := runOnDevice_launches planned device known sized
        fun inside => absurd inside (Nat.lt_irrefl _)
      rw [List.take_of_length_le (by rw [List.length_map]; exact Nat.le_succ _)] at launched
      have whole : ∀ read < plans.length, (delivered read).size = (iota settings.shape.area).size :=
        fun read inside => (sized read inside).trans (iota_size _).symm
      refine .inr ⟨sized, launched, _, runOnDevice_exact planned device sized, rfl, ?_,
        fun read plan listed => exists_run whole limit listed,
        fun run member found aborted failed => ?_⟩
      · rw [runsOf, List.length_map, List.length_zipIdx]
      · have bounds := failed_of_mem_runsOf whole member failed
        rwa [Nat.max_eq_left (Nat.le_max_right _ _)] at bounds
    · refine .inl ⟨read, inside, apart, earlier, ?_, ?_⟩
      · exact runOnDevice_launches planned device known earlier fun _ => apart
      · exact runOnDevice_refused planned device inside apart earlier
  · exact .inl ⟨error, unplanned, run_unplanned unplanned _⟩

end Trial

end GridCopy
