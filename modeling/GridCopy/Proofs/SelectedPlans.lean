import GridCopy.Proofs.Preconditions
import GridCopy.Settings.Basic

/-!
# The plans that settings select

Selecting plans either gives one valid plan for each selected policy, in order, or is refused.

Results:
1. `Settings.plans_eq_ok_iff`: the plans that are given, and when.
2. `Settings.plans_cases`: selection meets no fault.
-/

namespace GridCopy

namespace Settings

variable {settings : Settings} {plans : List Plan} {plan : Plan}

/-- The plan of the settings under a policy, whether or not it is valid. -/
def planUnder (settings : Settings) (policy : Policy) : Plan :=
  ⟨⟨⟨settings.shape, settings.layout⟩, settings.tile⟩, ⟨settings.threads⟩, policy⟩

theorem plans_eq_ok_iff :
    settings.plans = .ok plans ↔ plans = settings.policies.map settings.planUnder ∧
      ∀ policy ∈ settings.policies, (settings.planUnder policy).Valid := by
  refine mapM_eq_ok_iff fun policy plan => ?_
  rw [Plan.make_eq_ok_iff]
  constructor
  · rintro ⟨rfl, valid⟩
    exact ⟨rfl, valid⟩
  · rintro ⟨rfl, valid⟩
    exact ⟨rfl, valid⟩

theorem plans_cases (settings : Settings) :
    (∃ plans, settings.plans = .ok plans) ∨ ∃ error, settings.plans = refuse error := by
  cases selected : settings.plans with
  | ok plans => exact .inl ⟨plans, rfl⟩
  | error failure =>
      obtain ⟨policy, -, failed⟩ := mapM_error selected
      rcases Plan.make_cases ⟨settings.shape, settings.layout⟩ settings.tile ⟨settings.threads⟩
        policy with accepted | ⟨error, -, refused⟩
      · rw [accepted] at failed
        contradiction
      · rw [refused] at failed
        cases failed
        exact .inr ⟨error, rfl⟩

theorem policies_ne_nil (settings : Settings) : settings.policies ≠ [] := by
  unfold policies
  split <;> simp

/-- Every selected plan is valid and describes the buffer of the settings. -/
theorem valid_of_mem_plans (planned : settings.plans = .ok plans) (member : plan ∈ plans) :
    plan.Valid ∧ plan.layout = ⟨settings.shape, settings.layout⟩ := by
  obtain ⟨rfl, valid⟩ := plans_eq_ok_iff.mp planned
  obtain ⟨policy, selected, rfl⟩ := List.mem_map.mp member
  exact ⟨valid policy selected, rfl⟩

theorem plans_ne_nil (planned : settings.plans = .ok plans) : plans ≠ [] := by
  obtain ⟨rfl, -⟩ := plans_eq_ok_iff.mp planned
  simpa using settings.policies_ne_nil

/-- A buffer that has a plan is not empty and not too large. -/
theorem shape_of_planned (planned : settings.plans = .ok plans) :
    settings.shape.size = .ok settings.shape.area ∧ 0 < settings.shape.area := by
  obtain ⟨plan, member⟩ := List.exists_mem_of_ne_nil plans (plans_ne_nil planned)
  obtain ⟨valid, described⟩ := valid_of_mem_plans planned member
  have sized := valid.size_exact
  have full : 0 < plan.layout.shape.area :=
    Nat.mul_pos valid.rows.extentPositive valid.cols.extentPositive
  rw [described] at sized full
  exact ⟨sized, full⟩

end Settings

end GridCopy
