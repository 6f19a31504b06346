import GridCopy.Verification

/-!
# What a comparison finds

`mismatches` lists all pairs that differ. A comparison that stops early reports the first of them,
as many as its limit allows, so its verdict is a function of this list and the limit.

Results:
1. `mem_mismatches_iff`, `mismatches_increasing`: the list holds every difference, in memory order.
2. `Verification.scan_exact`: a scan from the middle, with what was found before.
3. `verify_exact`, `verify_refused`: buffers of one length, and of different lengths.
4. `Verification.isSuccess_ofMismatches`: the limit cannot hide a mismatch.
5. `verify_failed`, `verify_reports_first_differences`: what is reported, in terms of the buffers.
-/

namespace GridCopy

variable {α : Type} [BEq α]

/-- Every pair of different elements, with its number counted from `index` on. -/
def mismatches (index : Nat) : List (α × α) → List (Mismatch α)
  | [] => []
  | (expected, actual) :: rest =>
      if expected != actual then ⟨index, expected, actual⟩ :: mismatches (index + 1) rest
      else mismatches (index + 1) rest

/-- The mismatches of a list are its pairs of different elements, each with its number. -/
theorem mem_mismatches_iff {index : Nat} {pairs : List (α × α)} {mismatch : Mismatch α} :
    mismatch ∈ mismatches index pairs ↔
      ∃ i, mismatch.index = index + i ∧
        pairs[i]? = some (mismatch.expected, mismatch.actual) ∧
        (mismatch.expected == mismatch.actual) = false := by
  induction pairs generalizing index with
  | nil => simp [mismatches]
  | cons pair rest ih =>
      obtain ⟨expected, actual⟩ := pair
      obtain ⟨place, wanted, found⟩ := mismatch
      have later : ⟨place, wanted, found⟩ ∈ mismatches (index + 1) rest ↔
          ∃ i, place = index + (i + 1) ∧ rest[i]? = some (wanted, found) ∧
            (wanted == found) = false := by
        simp only [ih, Nat.add_assoc, Nat.add_comm 1]
      -- Place zero is the first pair, and the others are counted from the rest.
      rw [← Nat.or_exists_add_one]
      simp only [List.getElem?_cons_zero, List.getElem?_cons_succ, Nat.add_zero, ← later,
        Option.some.injEq, Prod.mk.injEq]
      cases same : expected == actual with
      | true =>
          simp only [mismatches, bne, same, Bool.not_true, Bool.false_eq_true, if_false]
          constructor
          · exact .inr
          · rintro (⟨-, ⟨rfl, rfl⟩, differ⟩ | member)
            · rw [same] at differ
              contradiction
            · exact member
      | false =>
          simp only [mismatches, bne, same, Bool.not_false, if_true, List.mem_cons,
            Mismatch.mk.injEq]
          constructor
          · rintro (⟨rfl, rfl, rfl⟩ | member)
            · exact .inl ⟨rfl, ⟨rfl, rfl⟩, same⟩
            · exact .inr member
          · rintro (⟨rfl, ⟨rfl, rfl⟩, -⟩ | member)
            · exact .inl ⟨rfl, rfl, rfl⟩
            · exact .inr member

theorem mismatches_increasing (index : Nat) (pairs : List (α × α)) :
    (mismatches index pairs).Pairwise fun earlier later => earlier.index < later.index := by
  induction pairs generalizing index with
  | nil => exact .nil
  | cons pair rest ih =>
      obtain ⟨expected, actual⟩ := pair
      rw [mismatches]
      split
      · refine .cons (fun later member => ?_) (ih (index + 1))
        obtain ⟨i, numbered, -⟩ := mem_mismatches_iff.mp member
        change index < later.index
        omega
      · exact ih (index + 1)

/-- What a comparison logs when it meets a mismatch. -/
def Mismatch.warning {α : Type} (mismatch : Mismatch α) : Event :=
  .log .warn s!"Mismatch at offset {mismatch.index}"

namespace Verification

/-- The verdict on a list of mismatches of which a limited number is reported. -/
def ofMismatches {α : Type} (limit : Nat) (all : List (Mismatch α)) : Verification α :=
  if all.isEmpty then .success else .failed (all.take limit) (limit ≤ all.length)

theorem isSuccess_ofMismatches {α : Type} {limit : Nat} {all : List (Mismatch α)} :
    (ofMismatches limit all).isSuccess = true ↔ all = [] := by
  cases all with
  | nil => simp [ofMismatches, isSuccess]
  | cons first rest => simp [ofMismatches, isSuccess]

theorem ofMismatches_eq_success_iff {α : Type} {limit : Nat} {all : List (Mismatch α)} :
    ofMismatches limit all = .success ↔ all = [] := by
  cases all with
  | nil => simp [ofMismatches]
  | cons first rest => simp [ofMismatches]

theorem ofMismatches_eq_failed_iff {α : Type} {limit : Nat} {all found : List (Mismatch α)}
    {aborted : Bool} : ofMismatches limit all = .failed found aborted ↔
      all ≠ [] ∧ found = all.take limit ∧ aborted = decide (limit ≤ all.length) := by
  cases all with
  | nil => simp [ofMismatches]
  | cons first rest => simp [ofMismatches, eq_comm]

theorem scan_exact (index room : Nat) (found : List (Mismatch α)) (warned : List Event)
    (pairs : List (α × α)) :
    scan index room found warned pairs =
      (warned.reverse ++ ((mismatches index pairs).take (room + 1)).map Mismatch.warning,
        conclude (((mismatches index pairs).take (room + 1)).reverse ++ found)
          (room + 1 ≤ (mismatches index pairs).length)) := by
  induction pairs generalizing index room found warned with
  | nil => simp [scan, mismatches]
  | cons pair rest ih =>
      obtain ⟨expected, actual⟩ := pair
      cases differ : expected != actual with
      | false => simp [scan, mismatches, differ, ih]
      | true =>
          cases room with
          | zero => simp [scan, mismatches, differ, Mismatch.warning]
          | succ room => simp [scan, mismatches, differ, ih, Mismatch.warning]

theorem conclude_reported {α : Type} {limit : Nat} (positive : 0 < limit)
    (all : List (Mismatch α)) :
    conclude (all.take limit).reverse (limit ≤ all.length) = ofMismatches limit all := by
  obtain ⟨room, rfl⟩ := Nat.exists_eq_succ_of_ne_zero (Nat.ne_of_gt positive)
  cases all with
  | nil => rfl
  | cons first rest => simp [conclude, ofMismatches]

end Verification

/-- Two buffers have different elements at a place of both. -/
def DifferAt (source destination : Array α) (place : Nat) : Prop :=
  ∃ expected actual, source[place]? = some expected ∧ destination[place]? = some actual ∧
    (expected == actual) = false

variable {source destination : Array α}

theorem verify_refused (apart : destination.size ≠ source.size) (limit : Nat) :
    verify source destination limit =
      ⟨[], refuse (.bufferSize source.size destination.size)⟩ := by
  unfold verify
  rw [if_pos apart]
  rfl

theorem verify_exact (sized : destination.size = source.size) (limit : Nat) :
    verify source destination limit =
      let all := mismatches 0 (source.toList.zip destination.toList)
      ⟨(all.take (max limit 1)).map Mismatch.warning,
        .ok (.ofMismatches (max limit 1) all)⟩ := by
  have positive : 0 < max limit 1 := by omega
  have room : max limit 1 - 1 + 1 = max limit 1 := by omega
  simp only [verify, sized, ne_eq, not_true_eq_false, if_false, Verification.scan_exact, room,
    List.reverse_nil, List.nil_append, List.append_nil, Verification.conclude_reported positive]

theorem mem_mismatches_zip_iff {mismatch : Mismatch α} :
    mismatch ∈ mismatches 0 (source.toList.zip destination.toList) ↔
      source[mismatch.index]? = some mismatch.expected ∧
        destination[mismatch.index]? = some mismatch.actual ∧
        (mismatch.expected == mismatch.actual) = false := by
  rw [mem_mismatches_iff]
  simp only [Nat.zero_add, List.getElem?_zip_eq_some, Array.getElem?_toList, and_assoc,
    exists_eq_left']

/-- No mismatch means that the buffers are equal place by place. -/
theorem mismatches_zip_eq_nil_iff :
    mismatches 0 (source.toList.zip destination.toList) = [] ↔
      ∀ (i : Nat) expected actual, source[i]? = some expected → destination[i]? = some actual →
        (expected == actual) = true := by
  rw [List.eq_nil_iff_forall_not_mem]
  constructor
  · intro nothing i expected actual held copied
    cases same : expected == actual with
    | true => rfl
    | false =>
        refine absurd ?_ (nothing ⟨i, expected, actual⟩)
        exact mem_mismatches_zip_iff.mpr ⟨held, copied, same⟩
  · intro equal mismatch listed
    obtain ⟨held, copied, differ⟩ := mem_mismatches_zip_iff.mp listed
    exact Bool.noConfusion (differ.symm.trans (equal _ _ _ held copied))

theorem mem_mismatch_places_iff {place : Nat} :
    place ∈ (mismatches 0 (source.toList.zip destination.toList)).map Mismatch.index ↔
      DifferAt source destination place := by
  rw [List.mem_map]
  constructor
  · rintro ⟨⟨_, expected, actual⟩, member, rfl⟩
    exact ⟨expected, actual, mem_mismatches_zip_iff.mp member⟩
  · rintro ⟨expected, actual, differ⟩
    exact ⟨⟨place, expected, actual⟩, mem_mismatches_zip_iff.mpr differ, rfl⟩

theorem verify_eq_ok_iff {limit : Nat} {verdict : Verification α} :
    (verify source destination limit).result = .ok verdict ↔
      destination.size = source.size ∧ verdict = .ofMismatches (max limit 1)
        (mismatches 0 (source.toList.zip destination.toList)) := by
  by_cases sized : destination.size = source.size
  · rw [verify_exact sized]
    simp [sized, eq_comm]
  · rw [verify_refused sized]
    simp [sized, refuse]

/-- What a comparison that fails reports: a mismatch at least, no more than the limit, and as many
as that if it was given up, all of them in memory order. -/
theorem verify_failed {limit : Nat} {found : List (Mismatch α)} {aborted : Bool}
    (failed : (verify source destination limit).result = .ok (.failed found aborted)) :
    0 < found.length ∧ found.length ≤ max limit 1 ∧
      (aborted = true → found.length = max limit 1) ∧
      found.Pairwise fun earlier later => earlier.index < later.index := by
  obtain ⟨-, verdict⟩ := verify_eq_ok_iff.mp failed
  obtain ⟨present, rfl, rfl⟩ := Verification.ofMismatches_eq_failed_iff.mp verdict.symm
  have counted := List.length_pos_iff.mpr present
  rw [List.length_take, decide_eq_true_iff]
  refine ⟨by omega, by omega, by omega, ?_⟩
  exact (mismatches_increasing 0 _).sublist (List.take_sublist _ _)

/-- Buffers of different lengths are refused. A comparison of others reports, and warns of, the
first places at which they differ, as many as the limit allows. It succeeds if there is no such
place, and it is given up as soon as it has found as many as that. -/
theorem verify_reports_first_differences {α : Type} [BEq α] (source destination : Array α)
    (limit : Nat) :
    (destination.size ≠ source.size ∧ verify source destination limit =
        ⟨[], refuse (.bufferSize source.size destination.size)⟩) ∨
      destination.size = source.size ∧ ∃ (places : List Nat) (verdict : Verification α),
        places.Pairwise (· < ·) ∧
        (∀ place, place ∈ places ↔ DifferAt source destination place) ∧
        (verify source destination limit).result = .ok verdict ∧
        (verdict = .success ↔ places = []) ∧
        (places ≠ [] → ∃ found aborted, verdict = .failed found aborted ∧
          found.map Mismatch.index = places.take (max limit 1) ∧
          (∀ mismatch ∈ found, source[mismatch.index]? = some mismatch.expected ∧
            destination[mismatch.index]? = some mismatch.actual) ∧
          (aborted = true ↔ max limit 1 ≤ places.length)) ∧
        (verify source destination limit).events =
          (places.take (max limit 1)).map fun place =>
            .log .warn s!"Mismatch at offset {place}" := by
  by_cases sized : destination.size = source.size
  · let all := mismatches 0 (source.toList.zip destination.toList)
    have compares : verify source destination limit =
        ⟨(all.take (max limit 1)).map Mismatch.warning, .ok (.ofMismatches (max limit 1) all)⟩ :=
      verify_exact sized limit
    have increasing : (all.map Mismatch.index).Pairwise (· < ·) :=
      List.pairwise_map.mpr (mismatches_increasing 0 _)
    refine .inr ⟨sized, all.map Mismatch.index, .ofMismatches (max limit 1) all, increasing,
      fun _ => mem_mismatch_places_iff, congrArg Recorded.result compares, ?_, fun present => ?_, ?_⟩
    · rw [Verification.ofMismatches_eq_success_iff, List.map_eq_nil_iff]
    · have differ := mt List.map_eq_nil_iff.mpr present
      refine ⟨_, _, Verification.ofMismatches_eq_failed_iff.mpr ⟨differ, rfl, rfl⟩,
        List.map_take, fun mismatch reported => ?_, ?_⟩
      · have held := mem_mismatches_zip_iff.mp (List.mem_of_mem_take reported)
        exact ⟨held.1, held.2.1⟩
      · rw [List.length_map, decide_eq_true_iff]
    · rw [compares, ← List.map_take, List.map_map]
      rfl
  · exact .inl ⟨sized, verify_refused sized limit⟩

end GridCopy
