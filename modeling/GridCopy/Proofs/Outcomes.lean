import GridCopy.Proofs.Numbers
import GridCopy.Trial

/-!
# Success of an outcome

An outcome is a success when every run is verified and all runs delivered the same bits.

Results:
1. `Outcome.policiesAgree_iff`: agreement is equality of every two destinations.
2. `Outcome.exitCode_eq_zero_iff`, `Outcome.exitCode_cases`: the two exit codes.
3. `Outcome.lines_of_exitCode_zero`: what a success reports.
-/

namespace GridCopy

theorem sameBits_iff {left right : Array Binary32} : sameBits left right = true ↔ left = right := by
  rw [sameBits, Bool.and_eq_true, beq_iff_eq]
  constructor
  · rintro ⟨sized, same⟩
    refine Array.ext sized fun i inLeft inRight => ?_
    have inZip : i < (left.zip right).size := by
      rw [Array.size_zip]
      exact Nat.lt_min.mpr ⟨inLeft, inRight⟩
    have bits := Array.all_eq_true.mp same i inZip
    rw [Array.getElem_zip, beq_iff_eq] at bits
    exact Binary32.ext_bits bits
  · rintro rfl
    refine ⟨rfl, Array.all_eq_true.mpr fun i inZip => ?_⟩
    rw [Array.getElem_zip, beq_iff_eq]

namespace Outcome

theorem policiesAgree_iff {outcome : Outcome} :
    outcome.policiesAgree = true ↔
      ∀ run ∈ outcome.runs, ∀ other ∈ outcome.runs, run.destination = other.destination := by
  unfold policiesAgree
  cases outcome.runs with
  | nil => simp
  | cons first rest =>
      simp only [List.all_eq_true, sameBits_iff]
      constructor
      · intro agree
        have all : ∀ run ∈ first :: rest, run.destination = first.destination :=
          List.forall_mem_cons.mpr ⟨rfl, agree⟩
        exact fun run member other listed => (all run member).trans (all other listed).symm
      · exact fun agree run member =>
          agree run (List.mem_cons_of_mem _ member) first List.mem_cons_self

theorem exitCode_eq_zero_iff {outcome : Outcome} :
    outcome.exitCode = 0 ↔ (∀ run ∈ outcome.runs, run.verification.isSuccess = true) ∧
      ∀ run ∈ outcome.runs, ∀ other ∈ outcome.runs, run.destination = other.destination := by
  rw [← policiesAgree_iff, ← List.all_eq_true, ← Bool.and_eq_true]
  change (if outcome.isSuccess then (0 : Int) else -1) = 0 ↔ outcome.isSuccess = true
  cases outcome.isSuccess <;> simp

theorem exitCode_cases (outcome : Outcome) : outcome.exitCode = 0 ∨ outcome.exitCode = -1 := by
  unfold exitCode
  split
  · exact .inl rfl
  · exact .inr rfl

theorem complaints_of_success {outcome : Outcome} {run : PolicyRun}
    (verified : run.verification.isSuccess = true) : outcome.complaints run = [] := by
  cases found : run.verification with
  | success => rw [complaints, found]
  | failed mismatches aborted =>
      rw [found] at verified
      contradiction

/-- A success reports one line, and nothing goes to the errors. -/
theorem lines_of_exitCode_zero {outcome : Outcome} (succeeded : outcome.exitCode = 0) :
    outcome.lines = [(.output, "Success.")] := by
  obtain ⟨verified, same⟩ := exitCode_eq_zero_iff.mp succeeded
  have agree := policiesAgree_iff.mpr same
  have success : outcome.isSuccess = true := by
    rw [isSuccess, Bool.and_eq_true, List.all_eq_true]
    exact ⟨verified, agree⟩
  have silent : outcome.runs.flatMap outcome.complaints = [] :=
    List.flatMap_eq_nil_iff.mpr fun run member => complaints_of_success (verified run member)
  simp [lines, success, agree, silent]

theorem report_of_exitCode_zero {outcome : Outcome} (succeeded : outcome.exitCode = 0) :
    outcome.report .working = (.ok (), ⟨"Success.\n", "", 1⟩) := by
  rw [report, lines_of_exitCode_zero succeeded]
  rfl

end Outcome

end GridCopy
