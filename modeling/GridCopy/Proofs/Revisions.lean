import Mathlib.Data.List.Induction
import GridCopy.Proofs.Blocks
import GridCopy.Proofs.SelectedPlans

/-!
# Revised plans

A plan can be revised to copy the same tiles under another policy. Revising looks only at the
geometry, which no revision changes, so a sequence of revisions, of which some may be refused, leads
to the plan that validation gives for the policy accepted last. A policy whose vector divides that
of an accepted one is always accepted.

Results:
1. `Plan.Valid.under`, `Plan.Valid.sameGeometry`: a finer policy is as good as the one it refines,
   and every policy leaves the units as many elements.
2. `Plan.withPolicy_revise`, `Plan.withPolicy_reviseAll`: one revision, and any number of them, do
   not change what is accepted later.
3. `Plan.LastAccepted.exact`: the plan after a sequence of revisions.
4. `Settings.plans_both_iff`: settings that select both policies.
5. `Plan.revisions_keep_geometry`: all of this.
-/

namespace GridCopy

/-- A mode that divides evenly still does so for a vector that divides the old one. -/
theorem Axis.Fits.divided {axis : Axis} (fits : axis.Fits) {vector : Nat}
    (divides : vector ∣ axis.vector) :
    (Axis.mk axis.extent axis.tile axis.threads vector).Fits where
  extentPositive := fits.extentPositive
  threadsPositive := fits.threadsPositive
  vectorPositive := Nat.pos_of_dvd_of_pos divides fits.vectorPositive
  stepDivides := (Nat.mul_dvd_mul_left axis.threads divides).trans fits.stepDivides
  tileDivides := fits.tileDivides

theorem mem_lineSizes_of_dvd {width part : Nat} (supported : width ∈ lineSizes)
    (divides : part ∣ width) : part ∈ lineSizes := by
  -- No width is more than 16, so that all its parts can be tried.
  have bounds : ∀ width ∈ lineSizes, 0 < width ∧ width < 17 := by decide
  have closed : ∀ width ∈ lineSizes, ∀ part < 17, part ∣ width → part ∈ lineSizes := by decide
  obtain ⟨positive, small⟩ := bounds width supported
  exact closed width supported part ((Nat.le_of_dvd positive divides).trans_lt small) divides

/-- The vector of the first policy divides that of the second one in both modes. -/
structure Policy.Refines (finer policy : Policy) : Prop where
  rows : finer.vector.rows ∣ policy.vector.rows
  cols : finer.vector.cols ∣ policy.vector.cols

theorem Policy.striped_refines (policy : Policy) : striped.Refines policy :=
  ⟨Nat.one_dvd _, Nat.one_dvd _⟩

namespace Plan

variable {plan next start : Plan} {finer policy last : Policy} {policies : List Policy}

/-- The copy of the same tiles under a policy, whether or not it is valid. -/
def under (plan : Plan) (policy : Policy) : Plan := { plan with policy }

theorem withPolicy_eq_ok_iff :
    plan.withPolicy policy = .ok next ↔ next = plan.under policy ∧ next.Valid := make_eq_ok_iff

/-- The second plan copies the same tiles by the same units, and a unit owns as many elements. -/
structure SameGeometry (plan next : Plan) : Prop where
  layout : next.layout = plan.layout
  tile : next.tile = plan.tile
  threads : next.threads = plan.threads
  grid : ∃ grid, plan.grid = .ok grid ∧ next.grid = .ok grid
  unitsPerTile : ∃ units, plan.unitsPerTile = .ok units ∧ next.unitsPerTile = .ok units
  share : ∃ chunks width otherChunks otherWidth,
    plan.chunksPerUnit = .ok chunks ∧ plan.policy.width = .ok width ∧
    next.chunksPerUnit = .ok otherChunks ∧ next.policy.width = .ok otherWidth ∧
    otherChunks * otherWidth = chunks * width

/-! ## Finer policies -/

theorem alongContiguousMode_of_refines {layout : Layout} (refines : finer.Refines policy)
    (along : alongContiguousMode layout policy.vector = true) :
    alongContiguousMode layout finer.vector = true := by
  unfold alongContiguousMode at along ⊢
  cases walked : layout.contiguousMode with
  | rows =>
      simp only [walked, beq_iff_eq] at along ⊢
      exact Nat.eq_one_of_dvd_one (along ▸ refines.cols)
  | cols =>
      simp only [walked, beq_iff_eq] at along ⊢
      exact Nat.eq_one_of_dvd_one (along ▸ refines.rows)

namespace Valid

/-- A finer policy is valid wherever the policy is that it refines. -/
theorem under (valid : plan.Valid) (refines : finer.Refines plan.policy) :
    (plan.under finer).Valid where
  rows := valid.rows.divided refines.rows
  cols := valid.cols.divided refines.cols
  small := valid.small
  unitsLimited := valid.unitsLimited
  alongMemory := by
    have divides : finer.vector.area ∣ plan.policy.vector.area :=
      Nat.mul_dvd_mul refines.rows refines.cols
    rcases valid.alongMemory with single | along
    · exact .inl (Nat.eq_one_of_dvd_one (single ▸ divides))
    · exact .inr (alongContiguousMode_of_refines refines along)
  widthSupported :=
    mem_lineSizes_of_dvd valid.widthSupported (Nat.mul_dvd_mul refines.rows refines.cols)

/-- Under every valid policy a unit owns the same number of elements. -/
theorem share_under (valid : plan.Valid) (revised : (plan.under policy).Valid) :
    (plan.under policy).repeatShape.area * (plan.under policy).width =
      plan.repeatShape.area * plan.width :=
  Nat.eq_of_mul_eq_mul_left valid.launchPositive
    (revised.elements_count.trans valid.elements_count.symm)

theorem sameGeometry (valid : plan.Valid) (revised : (plan.under policy).Valid) :
    plan.SameGeometry (plan.under policy) where
  layout := rfl
  tile := rfl
  threads := rfl
  grid := ⟨_, valid.grid_exact, revised.grid_exact⟩
  unitsPerTile := ⟨_, valid.unitsPerTile_exact, revised.unitsPerTile_exact⟩
  share := ⟨_, _, _, _, valid.chunksPerUnit_exact, valid.width_exact,
    revised.chunksPerUnit_exact, revised.width_exact, valid.share_under revised⟩

theorem withPolicy_of_refines (valid : plan.Valid) (refines : finer.Refines plan.policy) :
    ∃ next, plan.withPolicy finer = .ok next ∧ next.policy = finer ∧ plan.SameGeometry next := by
  have revised := valid.under refines
  exact ⟨plan.under finer, withPolicy_eq_ok_iff.mpr ⟨rfl, revised⟩, rfl, valid.sameGeometry revised⟩

end Valid

/-! ## Sequences of revisions -/

/-- The plan under a policy that is accepted; one that is refused changes nothing. -/
def revise (plan : Plan) (policy : Policy) : Plan :=
  match plan.withPolicy policy with
  | .ok next => next
  | .error _ => plan

def reviseAll (plan : Plan) (policies : List Policy) : Plan := policies.foldl revise plan

/-- The policy accepted last in a sequence of revisions; before the first of them it is that of the
plan they start from. -/
inductive LastAccepted (start : Plan) : List Policy → Policy → Prop
  | start : LastAccepted start [] start.policy
  | accepted {policies : List Policy} {policy : Policy} {next : Plan} :
      (start.reviseAll policies).withPolicy policy = .ok next →
      LastAccepted start (policies ++ [policy]) policy
  | refused {policies : List Policy} {policy last : Policy} {failure : Failure} :
      LastAccepted start policies last →
      (start.reviseAll policies).withPolicy policy = .error failure →
      LastAccepted start (policies ++ [policy]) last

/-- A revision does not change what is accepted after it. -/
theorem withPolicy_revise (plan : Plan) (first second : Policy) :
    (plan.revise first).withPolicy second = plan.withPolicy second := by
  unfold revise
  split
  · next accepted =>
      obtain ⟨rfl, -⟩ := withPolicy_eq_ok_iff.mp accepted
      rfl
  · rfl

theorem withPolicy_reviseAll (plan : Plan) (policies : List Policy) (policy : Policy) :
    (plan.reviseAll policies).withPolicy policy = plan.withPolicy policy := by
  induction policies generalizing plan with
  | nil => rfl
  | cons first rest ih => exact (ih (plan.revise first)).trans (plan.withPolicy_revise first policy)

theorem reviseAll_concat (plan : Plan) (policies : List Policy) (policy : Policy) :
    plan.reviseAll (policies ++ [policy]) = (plan.reviseAll policies).revise policy := by
  rw [reviseAll, List.foldl_append]
  rfl

theorem exists_lastAccepted (start : Plan) (policies : List Policy) :
    ∃ last, LastAccepted start policies last := by
  induction policies using List.reverseRecOn with
  | nil => exact ⟨_, .start⟩
  | append_singleton policies policy ih =>
      cases revised : (start.reviseAll policies).withPolicy policy with
      | ok next => exact ⟨policy, .accepted revised⟩
      | error failure =>
          obtain ⟨last, accepted⟩ := ih
          exact ⟨last, .refused accepted revised⟩

/-- A sequence of revisions leads to the plan under the policy accepted last. -/
theorem LastAccepted.exact (valid : start.Valid) (accepted : LastAccepted start policies last) :
    start.withPolicy last = .ok (start.reviseAll policies) := by
  induction accepted with
  | start => exact withPolicy_eq_ok_iff.mpr ⟨rfl, valid⟩
  | @accepted policies policy next revised =>
      -- What the revised plan accepts is what the first plan would have accepted.
      rw [reviseAll_concat, revise, revised]
      rwa [withPolicy_reviseAll] at revised
  | refused _ revised ih =>
      rw [reviseAll_concat, revise, revised]
      exact ih

/-- Going back to a policy accepted earlier gives the earlier plan, whatever was tried since. -/
theorem LastAccepted.back (valid : start.Valid) (accepted : LastAccepted start policies last)
    (later : List Policy) :
    (start.reviseAll (policies ++ later)).withPolicy last = .ok (start.reviseAll policies) := by
  rw [withPolicy_reviseAll]
  exact accepted.exact valid

end Plan

/-! ## Settings that select both policies -/

namespace Settings

variable {settings : Settings} {plans : List Plan}

theorem plans_vectorized_iff :
    { settings with policy := .vectorized }.plans = .ok plans ↔
      plans = [settings.planUnder (.vectorized settings.vector)] ∧
        (settings.planUnder (.vectorized settings.vector)).Valid := by
  rw [plans_eq_ok_iff]
  exact and_congr_right' List.forall_mem_singleton

/-- Wherever the vectorized plan is valid the striped one is too, so the former alone decides
whether both are given. -/
theorem plans_both_iff :
    { settings with policy := .both }.plans = .ok plans ↔
      plans = [settings.planUnder .striped, settings.planUnder (.vectorized settings.vector)] ∧
        (settings.planUnder (.vectorized settings.vector)).Valid := by
  rw [plans_eq_ok_iff]
  refine and_congr_right' ⟨fun valid => valid _ (by simp [policies]), fun valid policy member => ?_⟩
  have striped : (settings.planUnder .striped).Valid := valid.under (Policy.striped_refines _)
  rcases List.mem_pair.mp member with rfl | rfl
  · exact striped
  · exact valid

end Settings

/-! ## Revisions keep the geometry -/

namespace Plan

/-- Revisions keep the geometry of an accepted plan:
1. every policy whose vector divides the plan's in both modes is accepted, the striped one
   included, and the geometry stays;
2. after any sequence of revisions, refused ones included, the plan is the one that validation
   gives for the policy accepted last, and that policy leads back to it at any later time;
3. settings that select both policies have plans just when the vectorized one has, and they are
   that plan and, before it, its striped revision. -/
theorem revisions_keep_geometry :
    (∀ layout tile threads policy plan, make layout tile threads policy = .ok plan →
      (∀ finer : Policy, finer.vector.rows ∣ policy.vector.rows →
        finer.vector.cols ∣ policy.vector.cols →
        ∃ next, plan.withPolicy finer = .ok next ∧ next.policy = finer ∧
          plan.SameGeometry next) ∧
      (∃ next, plan.withPolicy .striped = .ok next ∧ plan.SameGeometry next) ∧
      ∀ policies, (∃ last, LastAccepted plan policies last) ∧
        ∀ last, LastAccepted plan policies last →
          make layout tile threads last = .ok (plan.reviseAll policies) ∧
          ∀ later, (plan.reviseAll (policies ++ later)).withPolicy last =
            .ok (plan.reviseAll policies)) ∧
    ∀ settings : Settings,
      ((∃ plans, { settings with policy := .both }.plans = .ok plans) ↔
        ∃ plans, { settings with policy := .vectorized }.plans = .ok plans) ∧
      ∀ plans, { settings with policy := .both }.plans = .ok plans →
        ∃ striped vectorized, plans = [striped, vectorized] ∧
          { settings with policy := .vectorized }.plans = .ok [vectorized] ∧
          vectorized.withPolicy .striped = .ok striped := by
  constructor
  · intro layout tile threads policy plan made
    obtain ⟨rfl, valid⟩ := make_eq_ok_iff.mp made
    refine ⟨fun finer rows cols => valid.withPolicy_of_refines ⟨rows, cols⟩, ?_,
      fun policies => ⟨exists_lastAccepted _ policies, fun last accepted =>
        ⟨accepted.exact valid, accepted.back valid⟩⟩⟩
    obtain ⟨next, revised, -, same⟩ := valid.withPolicy_of_refines (Policy.striped_refines _)
    exact ⟨next, revised, same⟩
  · refine fun settings => ⟨⟨?_, ?_⟩, fun plans selected => ?_⟩
    · rintro ⟨plans, selected⟩
      exact ⟨_, Settings.plans_vectorized_iff.mpr ⟨rfl, (Settings.plans_both_iff.mp selected).2⟩⟩
    · rintro ⟨plans, selected⟩
      exact ⟨_, Settings.plans_both_iff.mpr ⟨rfl, (Settings.plans_vectorized_iff.mp selected).2⟩⟩
    · obtain ⟨rfl, valid⟩ := Settings.plans_both_iff.mp selected
      exact ⟨_, _, rfl, Settings.plans_vectorized_iff.mpr ⟨rfl, valid⟩,
        withPolicy_eq_ok_iff.mpr ⟨rfl, valid.under (Policy.striped_refines _)⟩⟩

/-- A plan with vectors of four elements goes on to pairs, refuses vectors of three, and comes back
to its own. -/
theorem revisions_keep_geometry_there_and_back :
    ∃ plan pairs, make (.columnMajor ⟨16, 8⟩) ⟨8, 4⟩ ⟨⟨2, 2⟩⟩ (.vectorized ⟨4, 1⟩) = .ok plan ∧
      plan.withPolicy (.vectorized ⟨2, 1⟩) = .ok pairs ∧ plan.SameGeometry pairs ∧
      plan.reviseAll [.vectorized ⟨2, 1⟩, .vectorized ⟨3, 1⟩] = pairs ∧
      pairs.withPolicy (.vectorized ⟨4, 1⟩) = .ok plan := by
  obtain ⟨refined, -, revised⟩ := revisions_keep_geometry.1 _ _ _ _ _
    (rfl : make (.columnMajor ⟨16, 8⟩) ⟨8, 4⟩ ⟨⟨2, 2⟩⟩ (.vectorized ⟨4, 1⟩) = .ok _)
  obtain ⟨pairs, accepted, -, same⟩ := refined (.vectorized ⟨2, 1⟩) (by decide) (by decide)
  have back := ((revised []).2 _ .start).2 [.vectorized ⟨2, 1⟩, .vectorized ⟨3, 1⟩]
  cases accepted
  exact ⟨_, _, rfl, rfl, same, rfl, back⟩

end Plan

end GridCopy
