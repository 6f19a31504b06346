import Mathlib.Data.List.Forall2
import GridCopy.Proofs.Comparison
import GridCopy.Proofs.Outcomes

/-!
# What an outcome reports

The exit code, the output and the complaints of an outcome are computed apart from one another. When
every verification is the verdict of a comparison they say the same: a comparison that fails has a
mismatch to complain about, and a disagreement needs two runs. All of this is about a console that
shows every line.

Results:
1. `Screen.writeLines_working`: what such a console shows of the lines of each stream.
2. `Outcome.policiesAgree_perm`, `Outcome.exitCode_perm`: the order of the runs does not matter.
3. `Outcome.stderr_exact`, `Outcome.complains`: what is complained about.
4. `Outcome.stderr_eq_empty_iff`: who does not complain has succeeded.
5. `Outcome.report_tells_exitCode`: all of it together.
-/

namespace GridCopy

/-- The verification of the run is the verdict of a comparison. -/
def PolicyRun.Compared (run : PolicyRun) : Prop :=
  ∃ source destination limit, (verify source destination limit).result = .ok run.verification

/-- The runs delivered buffers of one length and with the same bits. -/
def PolicyRun.AgreesWith (run other : PolicyRun) : Prop :=
  run.destination.map Binary32.bits = other.destination.map Binary32.bits

theorem PolicyRun.agreesWith_iff {run other : PolicyRun} :
    run.AgreesWith other ↔ run.destination = other.destination :=
  Array.map_inj_right fun _ _ => Binary32.ext_bits

/-- What is complained about a verification: nothing if it is a success, and otherwise a line for
each mismatch, in memory order, and a last one if the mismatches ended the comparison. -/
inductive Complains (errorLimit : Nat) : Verification Binary32 → String → Prop
  | success : Complains errorLimit .success ""
  | failed {found : List (Mismatch Binary32)} :
      (found.Pairwise fun earlier later => earlier.index < later.index) →
      Complains errorLimit (.failed found false)
        (String.join (found.map fun mismatch => mismatch.text ++ "\n"))
  | aborted {found : List (Mismatch Binary32)} :
      (found.Pairwise fun earlier later => earlier.index < later.index) →
      Complains errorLimit (.failed found true)
        (String.join (found.map fun mismatch => mismatch.text ++ "\n") ++
          (s!"Aborting on {errorLimit}nth error." ++ "\n"))

/-! ## Lines -/

/-- The text of lines, each ended by a newline. -/
def unlines (lines : List String) : String := String.join (lines.map (· ++ "\n"))

theorem unlines_nil : unlines [] = "" := rfl

theorem unlines_cons (line : String) (rest : List String) :
    unlines (line :: rest) = line ++ "\n" ++ unlines rest := by
  rw [unlines, List.map_cons, String.join_cons]
  rfl

theorem unlines_singleton (line : String) : unlines [line] = line ++ "\n" := by
  rw [unlines_cons, unlines_nil, String.append_empty]

theorem unlines_append (first second : List String) :
    unlines (first ++ second) = unlines first ++ unlines second := by
  rw [unlines, List.map_append, String.join_append]
  rfl

theorem unlines_flatMap {α : Type} (lines : α → List String) (items : List α) :
    unlines (items.flatMap lines) = String.join (items.map fun item => unlines (lines item)) := by
  induction items with
  | nil => rfl
  | cons item rest ih =>
      rw [List.flatMap_cons, unlines_append, ih, List.map_cons, String.join_cons]

theorem unlines_eq_empty_iff {lines : List String} : unlines lines = "" ↔ lines = [] := by
  cases lines with
  | nil => exact iff_of_true rfl rfl
  | cons line rest =>
      refine iff_of_false ?_ (List.cons_ne_nil line rest)
      rw [unlines_cons, String.append_eq_empty_iff, String.append_eq_empty_iff]
      exact fun empty => absurd empty.1.2 (by decide)

/-- The lines that go to one of the streams. -/
def linesOn (stream : Stream) (lines : List (Stream × String)) : List String :=
  (lines.filter (·.1 == stream)).map (·.2)

theorem linesOn_cons (stream other : Stream) (text : String) (rest : List (Stream × String)) :
    linesOn stream ((other, text) :: rest) =
      if other = stream then text :: linesOn stream rest else linesOn stream rest := by
  by_cases same : other = stream
  · simp [linesOn, same]
  · simp [linesOn, same]

theorem linesOn_append (stream : Stream) (first second : List (Stream × String)) :
    linesOn stream (first ++ second) = linesOn stream first ++ linesOn stream second := by
  rw [linesOn, List.filter_append, List.map_append]
  rfl

theorem linesOn_map (stream other : Stream) (texts : List String) :
    linesOn stream (texts.map (other, ·)) = if other = stream then texts else [] := by
  by_cases same : other = stream <;> simp [linesOn, List.filter_map, Function.comp_def, same]

/-- A working console shows the lines of each stream in the order in which they are written. -/
theorem Screen.writeLines_working (lines : List (Stream × String)) (screen : Screen) :
    screen.writeLines .working lines =
      (.ok (), ⟨screen.stdout ++ unlines (linesOn .output lines),
        screen.stderr ++ unlines (linesOn .errors lines), screen.lines + lines.length⟩) := by
  induction lines generalizing screen with
  | nil =>
      simp only [writeLines, linesOn, List.filter_nil, List.map_nil, unlines_nil,
        String.append_empty]
      rfl
  | cons line rest ih =>
      obtain ⟨stream, text⟩ := line
      have next : screen.writeLines .working ((stream, text) :: rest) =
          (screen.showLine stream (text ++ "\n")).writeLines .working rest := rfl
      have counted : screen.lines + 1 + rest.length = screen.lines + (rest.length + 1) := by omega
      rw [next, ih, List.length_cons, ← counted]
      cases stream with
      | output =>
          simp only [showLine, linesOn_cons, reduceCtorEq, if_true, if_false, unlines_cons,
            String.append_assoc]
      | errors =>
          simp only [showLine, linesOn_cons, reduceCtorEq, if_true, if_false, unlines_cons,
            String.append_assoc]

namespace Outcome

variable {outcome : Outcome} {run : PolicyRun}

/-! ## Agreement -/

theorem policiesAgree_iff_agreesWith : outcome.policiesAgree = true ↔
    ∀ run ∈ outcome.runs, ∀ other ∈ outcome.runs, run.AgreesWith other := by
  simp only [policiesAgree_iff, PolicyRun.agreesWith_iff]

theorem policiesAgree_perm {runs : List PolicyRun} (reordered : runs.Perm outcome.runs) :
    (mk runs outcome.errorLimit).policiesAgree = outcome.policiesAgree := by
  rw [Bool.eq_iff_iff, policiesAgree_iff, policiesAgree_iff]
  simp only [reordered.mem_iff]

theorem exitCode_perm {runs : List PolicyRun} (reordered : runs.Perm outcome.runs) :
    (mk runs outcome.errorLimit).exitCode = outcome.exitCode := by
  have succeeds : (mk runs outcome.errorLimit).isSuccess = outcome.isSuccess := by
    simp only [isSuccess, policiesAgree_perm reordered, reordered.all_eq]
  rw [exitCode, succeeds]
  rfl

/-- It takes two runs to disagree. -/
theorem one_lt_length_of_disagreement (apart : outcome.policiesAgree = false) :
    1 < outcome.runs.length := by
  unfold policiesAgree at apart
  cases runs : outcome.runs with
  | nil =>
      rw [runs] at apart
      contradiction
  | cons first rest =>
      cases rest with
      | nil =>
          rw [runs] at apart
          contradiction
      | cons second rest => exact Nat.succ_lt_succ (Nat.zero_lt_succ _)

/-! ## Complaints -/

theorem report_working (outcome : Outcome) :
    outcome.report .working =
      (.ok (), ⟨unlines (linesOn .output outcome.lines), unlines (linesOn .errors outcome.lines),
        outcome.lines.length⟩) := by
  rw [report, Screen.writeLines_working]
  simp only [Screen.blank, String.empty_append, Nat.zero_add]

theorem stderr_exact (outcome : Outcome) :
    (outcome.report .working).2.stderr = unlines (outcome.runs.flatMap outcome.complaints ++
      if outcome.policiesAgree then [] else ["Striped and vectorized copies disagree."]) := by
  simp only [report_working, lines, linesOn_append, linesOn_map, if_true, reduceCtorEq, if_false,
    List.append_nil]
  cases agree : outcome.policiesAgree with
  | true => simp
  | false => simp [one_lt_length_of_disagreement agree]

/-- A run is complained about, line by line, as its verification asks for. -/
theorem complains (compared : run.Compared) (outcome : Outcome) :
    Complains outcome.errorLimit run.verification (unlines (outcome.complaints run)) := by
  obtain ⟨source, destination, limit, verdict⟩ := compared
  cases verification : run.verification with
  | success =>
      rw [complaints, verification]
      exact .success
  | failed found aborted =>
      rw [verification] at verdict
      obtain ⟨-, -, -, increasing⟩ := verify_failed verdict
      have each : unlines (found.map Mismatch.text) =
          String.join (found.map fun mismatch => mismatch.text ++ "\n") := by
        rw [unlines, List.map_map]
        rfl
      rw [complaints, verification]
      simp only [unlines_append, each]
      cases aborted with
      | false =>
          rw [if_neg Bool.false_ne_true, unlines_nil, String.append_empty]
          exact .failed increasing
      | true =>
          rw [if_pos rfl, unlines_singleton]
          exact .aborted increasing

theorem complaints_eq_nil_iff (compared : run.Compared) :
    outcome.complaints run = [] ↔ run.verification.isSuccess = true := by
  refine ⟨fun silent => ?_, complaints_of_success⟩
  obtain ⟨source, destination, limit, verdict⟩ := compared
  cases verification : run.verification with
  | success => rfl
  | failed found aborted =>
      rw [verification] at verdict
      have present := List.length_pos_iff.mp (verify_failed verdict).1
      rw [complaints, verification, List.append_eq_nil_iff, List.map_eq_nil_iff] at silent
      exact absurd silent.1 present

theorem stderr_eq_empty_iff (compared : ∀ run ∈ outcome.runs, run.Compared) :
    (outcome.report .working).2.stderr = "" ↔ outcome.exitCode = 0 := by
  constructor
  · intro silent
    rw [stderr_exact, unlines_eq_empty_iff, List.append_eq_nil_iff,
      List.flatMap_eq_nil_iff] at silent
    have verified : ∀ run ∈ outcome.runs, run.verification.isSuccess = true :=
      fun run member => (complaints_eq_nil_iff (compared run member)).mp (silent.1 run member)
    have agree : outcome.policiesAgree = true := by
      by_contra apart
      rw [if_neg apart] at silent
      exact List.cons_ne_nil _ _ silent.2
    exact exitCode_eq_zero_iff.mpr ⟨verified, policiesAgree_iff.mp agree⟩
  · intro succeeded
    rw [report_of_exitCode_zero succeeded]

/-- Success is printed, or the exit code says that there was none. -/
theorem stdout_cases (outcome : Outcome) :
    (outcome.exitCode = 0 ∧ (outcome.report .working).2.stdout = "Success.\n") ∨
      outcome.exitCode = -1 ∧ (outcome.report .working).2.stdout = "" := by
  simp only [report_working, lines, linesOn_append, linesOn_map, if_true, reduceCtorEq, if_false,
    List.nil_append]
  rw [exitCode]
  cases outcome.isSuccess with
  | true => exact .inl ⟨rfl, rfl⟩
  | false => exact .inr ⟨rfl, rfl⟩

theorem stdout_eq_success_iff :
    (outcome.report .working).2.stdout = "Success.\n" ↔ outcome.exitCode = 0 := by
  rcases outcome.stdout_cases with ⟨succeeded, printed⟩ | ⟨failed, nothing⟩
  · exact iff_of_true printed succeeded
  · rw [failed, nothing]
    decide

/-- The report of an outcome whose verifications are verdicts of comparisons, on a console that shows
every line. Runs agree if every two of them delivered the same bits, in whatever order they are. The
complaints are those about each run, in order, and then one about a disagreement if there is one. The
exit code is zero if and only if success is printed, and if and only if nothing is complained about;
any other outcome has the exit code `-1`, complaints, and no output. -/
theorem report_tells_exitCode (outcome : Outcome)
    (compared : ∀ run ∈ outcome.runs, run.Compared) :
    let report := (outcome.report .working).2
    let Agree := ∀ run ∈ outcome.runs, ∀ other ∈ outcome.runs, run.AgreesWith other
    (outcome.report .working).1 = .ok () ∧ (outcome.policiesAgree = true ↔ Agree) ∧
      (∀ runs : List PolicyRun, runs.Perm outcome.runs →
        (mk runs outcome.errorLimit).policiesAgree = outcome.policiesAgree ∧
          (mk runs outcome.errorLimit).exitCode = outcome.exitCode) ∧
      (∃ complaints closing,
        List.Forall₂ (fun run => Complains outcome.errorLimit run.verification) outcome.runs
          complaints ∧
        report.stderr = String.join complaints ++ closing ∧ (Agree → closing = "") ∧
        (¬ Agree → closing = "Striped and vectorized copies disagree.\n")) ∧
      (outcome.exitCode = 0 ↔ report.stdout = "Success.\n") ∧
      (outcome.exitCode = 0 ↔ report.stderr = "") ∧
      (outcome.exitCode ≠ 0 →
        outcome.exitCode = -1 ∧ report.stdout = "" ∧ report.stderr ≠ "") := by
  intro report Agree
  refine ⟨congrArg Prod.fst outcome.report_working, policiesAgree_iff_agreesWith,
    fun runs reordered => ⟨policiesAgree_perm reordered, exitCode_perm reordered⟩, ?_,
    stdout_eq_success_iff.symm, (stderr_eq_empty_iff compared).symm, fun failed => ?_⟩
  · refine ⟨outcome.runs.map fun run => unlines (outcome.complaints run),
      unlines (if outcome.policiesAgree then [] else ["Striped and vectorized copies disagree."]),
      ?_, ?_, fun agree => ?_, fun apart => ?_⟩
    · rw [List.forall₂_map_right_iff, List.forall₂_same]
      exact fun run member => complains (compared run member) outcome
    · rw [← unlines_flatMap, ← unlines_append]
      exact outcome.stderr_exact
    · rw [if_pos (policiesAgree_iff_agreesWith.mpr agree)]
      rfl
    · rw [if_neg (mt policiesAgree_iff_agreesWith.mp apart)]
      rfl
  · obtain ⟨code, nothing⟩ := outcome.stdout_cases.resolve_left fun success => failed success.1
    exact ⟨code, nothing, mt (stderr_eq_empty_iff compared).mp failed⟩

/-- Two runs, of which the first one failed and the second one delivered other bits. -/
def twoRuns : Outcome where
  runs := [⟨.striped, .failed [⟨1, ⟨0x3f800000⟩, ⟨0⟩⟩] true, #[⟨0⟩, ⟨0⟩]⟩,
    ⟨.vectorized ⟨2, 1⟩, .success, #[⟨0x80000000⟩, ⟨0x3f800000⟩]⟩]
  errorLimit := 7

theorem report_tells_exitCode_two_runs :
    (∀ run ∈ twoRuns.runs, run.Compared) ∧ twoRuns.exitCode = -1 ∧
      (twoRuns.report .working).2 = ⟨"", "Error. S[1]: 1,   D[1]: 0\n" ++
        "Aborting on 7nth error.\n" ++ "Striped and vectorized copies disagree.\n", 3⟩ := by
  have compared : ∀ run ∈ twoRuns.runs, run.Compared := by
    refine List.forall_mem_cons.mpr ⟨?_, List.forall_mem_singleton.mpr ?_⟩
    · exact ⟨#[⟨0⟩, ⟨0x3f800000⟩], #[⟨0⟩, ⟨0⟩], 1, rfl⟩
    · exact ⟨#[⟨0⟩, ⟨0x3f800000⟩], #[⟨0x80000000⟩, ⟨0x3f800000⟩], 1, rfl⟩
  obtain ⟨-, -, -, -, -, -, failed⟩ := report_tells_exitCode twoRuns compared
  obtain ⟨code, -, -⟩ := failed (by decide)
  exact ⟨compared, code, by decide +kernel⟩

end Outcome

end GridCopy
