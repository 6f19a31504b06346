import Mathlib.Logic.Equiv.Basic
import GridCopy.Plan.Basic
import GridCopy.Proofs.Comparison
import GridCopy.Proofs.Numbers

/-!
# Rearranged buffers

A comparison with a numbered buffer sees a rearrangement of its elements through their patterns.
Single precision has a pattern for every natural number up to `2 ^ 24`, and `2 ^ 24 + 1` is the
first that shares one.

Results:
1. `BinaryFormat.binary32_ofNat_lt_ofNat`: patterns grow with their numbers up to `2 ^ 24`.
2. `Rearranges.verified_iff`: which rearrangements a comparison accepts.
3. `exists_overlooked`: beyond `2 ^ 24 + 1` elements one of them moves elements.
4. `rearrangement_detected_iff`: the buffers in which every rearrangement is detected.
-/

namespace GridCopy

/-! ## Patterns of natural numbers -/

/-- Shifted left until its leading bit has the given number, a number fills that many bits. -/
theorem shiftLeft_log2_bounds {n bits : Nat} (positive : 0 < n) (short : n.log2 ≤ bits) :
    2 ^ bits ≤ n <<< (bits - n.log2) ∧ n <<< (bits - n.log2) < 2 ^ (bits + 1) := by
  have low : 2 ^ n.log2 ≤ n := Nat.log2_self_le (Nat.ne_of_gt positive)
  have high : n < 2 ^ (n.log2 + 1) := Nat.lt_log2_self
  have whole : 2 ^ n.log2 * 2 ^ (bits - n.log2) = 2 ^ bits := by
    rw [← Nat.pow_add, Nat.add_sub_cancel' short]
  rw [Nat.shiftLeft_eq]
  constructor
  · rw [← whole]
    exact Nat.mul_le_mul_right _ low
  · calc
      n * 2 ^ (bits - n.log2) < 2 ^ (n.log2 + 1) * 2 ^ (bits - n.log2) :=
        Nat.mul_lt_mul_of_pos_right high (Nat.two_pow_pos _)
      _ = 2 ^ (bits + 1) := by rw [Nat.pow_succ, Nat.mul_right_comm, whole, Nat.pow_succ]

namespace BinaryFormat

variable {a b n : Nat}

theorem log2_le_of_lt (positive : 0 < n) (exact : n < 2 ^ 24) : n.log2 ≤ 23 :=
  Nat.le_of_lt_succ ((Nat.log2_lt (Nat.ne_of_gt positive)).mpr exact)

/-- The leading bit of the significand counts in the exponent field, which holds one less. -/
theorem binary32_ofNat_of_lt (positive : 0 < n) (exact : n < 2 ^ 24) :
    binary32.ofNat n = (n.log2 + 126) * 2 ^ 23 + n <<< (23 - n.log2) := by
  have short := log2_le_of_lt positive exact
  have finite := (shiftLeft_log2_bounds positive short).2
  have infinity : binary32.infinity = 255 * 2 ^ 23 := by decide
  have field : n.log2 + binary32.bias - 1 = n.log2 + 126 := rfl
  have fractionBits : binary32.fractionBits = 23 := rfl
  simp only [ofNat, if_neg (Nat.ne_of_gt positive), infinity, field, fractionBits, if_pos short]
  rw [Nat.shiftLeft_eq (n.log2 + 126)]
  exact Nat.min_eq_right (by omega)

theorem binary32_ofNat_lt_ofNat (less : a < b) (exact : b ≤ 2 ^ 24) :
    binary32.ofNat a < binary32.ofNat b := by
  rcases Nat.eq_zero_or_pos a with rfl | positive
  · exact binary32_ofNat_pos less
  have short := log2_le_of_lt positive (Nat.lt_of_lt_of_le less exact)
  have below := (shiftLeft_log2_bounds positive short).2
  rw [binary32_ofNat_of_lt positive (Nat.lt_of_lt_of_le less exact)]
  rcases exact.lt_or_eq with inside | rfl
  · have otherPositive := positive.trans less
    have above := (shiftLeft_log2_bounds otherPositive (log2_le_of_lt otherPositive inside)).1
    rw [binary32_ofNat_of_lt otherPositive inside]
    have ordered : a.log2 ≤ b.log2 :=
      (Nat.le_log2 (Nat.ne_of_gt otherPositive)).mpr
        ((Nat.log2_self_le (Nat.ne_of_gt positive)).trans less.le)
    -- A larger exponent outweighs the significand, and of equal exponents the significand decides.
    rcases ordered.lt_or_eq with smaller | same
    · omega
    · rw [same, Nat.shiftLeft_eq, Nat.shiftLeft_eq]
      exact Nat.add_lt_add_left (Nat.mul_lt_mul_of_pos_right less (Nat.two_pow_pos _)) _
  · have last : binary32.ofNat (2 ^ 24) = 151 * 2 ^ 23 := by decide
    omega

end BinaryFormat

namespace Binary32

variable {a b : Nat}

theorem ofNat_eq_ofNat_iff :
    ofNat a = ofNat b ↔ BinaryFormat.binary32.ofNat a = BinaryFormat.binary32.ofNat b := by
  rw [← toNat_bits_ofNat, ← toNat_bits_ofNat, UInt32.toNat_inj]
  exact ⟨congrArg bits, ext_bits⟩

theorem ofNat_injective_upTo (first : a ≤ 2 ^ 24) (second : b ≤ 2 ^ 24) (same : ofNat a = ofNat b) :
    a = b := by
  have patterns := ofNat_eq_ofNat_iff.mp same
  rcases Nat.lt_trichotomy a b with less | equal | greater
  · exact absurd patterns (BinaryFormat.binary32_ofNat_lt_ofNat less second).ne
  · exact equal
  · exact absurd patterns (BinaryFormat.binary32_ofNat_lt_ofNat greater first).ne'

/-- The first natural number without a pattern of its own. -/
theorem ofNat_shared : ofNat (2 ^ 24 + 1) = ofNat (2 ^ 24) := ofNat_eq_ofNat_iff.mpr (by decide)

/-- Between elements of a numbered buffer the test for equality compares patterns. -/
theorem ofNat_beq_ofNat_iff : (ofNat a == ofNat b) = true ↔ ofNat b = ofNat a := by
  rcases Nat.eq_zero_or_pos a with rfl | positive
  · rw [ofNat_zero_beq_iff]
    constructor
    · rintro (zero | negative)
      · exact ext_bits zero
      · have pattern := toNat_bits_ofNat b
        have unsigned : BinaryFormat.binary32.ofNat b ≤ 0x7f800000 :=
          BinaryFormat.ofNat_le_infinity b
        rw [← pattern, negative] at unsigned
        contradiction
    · intro same
      rw [same]
      exact .inl rfl
  · exact ofNat_beq_iff positive

end Binary32

/-! ## Rearrangements -/

/-- The buffer holds at each place the element of the numbered buffer that is moved there. -/
structure Rearranges {n : Nat} (moved : Fin n → Fin n) (destination : Array Binary32) : Prop where
  sized : destination.size = n
  held : ∀ place : Fin n, destination[place.val]? = (iota n)[(moved place).val]?

theorem rearranges_ofFn {n : Nat} (moved : Fin n → Fin n) :
    Rearranges moved (Array.ofFn fun place => Binary32.ofNat (moved place)) where
  sized := Array.size_ofFn
  held := by
    intro place
    rw [iota_getElem? (moved place).isLt]
    simp

variable {n : Nat} {moved : Fin n → Fin n} {destination : Array Binary32}

theorem Rearranges.verified_iff (rearranges : Rearranges moved destination) (limit : Nat) :
    (verify (iota n) destination limit).result = .ok .success ↔
      ∀ place, Binary32.ofNat (moved place) = Binary32.ofNat place := by
  have sized : destination.size = (iota n).size := rearranges.sized.trans (iota_size n).symm
  rw [verify_exact sized, Except.ok.injEq, Verification.ofMismatches_eq_success_iff,
    mismatches_zip_eq_nil_iff]
  constructor
  · intro equal place
    have copied := (rearranges.held place).trans (iota_getElem? (moved place).isLt)
    exact Binary32.ofNat_beq_ofNat_iff.mp (equal place _ _ (iota_getElem? place.isLt) copied)
  · intro same i expected actual held copied
    obtain ⟨inside, rfl⟩ := of_iota_getElem? held
    have moving := (rearranges.held ⟨i, inside⟩).trans (iota_getElem? (moved ⟨i, inside⟩).isLt)
    have arrived := Option.some.inj (copied.symm.trans moving)
    rw [arrived]
    exact Binary32.ofNat_beq_ofNat_iff.mpr (same ⟨i, inside⟩)

/-- Up to `2 ^ 24 + 1` elements the patterns of a numbered buffer are all different. -/
theorem Rearranges.eq_id (small : n ≤ 2 ^ 24 + 1)
    (same : ∀ place, Binary32.ofNat (moved place) = Binary32.ofNat place) : moved = id := by
  funext place
  have here := Nat.le_of_lt_succ (place.isLt.trans_le small)
  have there := Nat.le_of_lt_succ ((moved place).isLt.trans_le small)
  exact Fin.ext (Binary32.ofNat_injective_upTo there here (same place))

/-- Exchanging two elements of one pattern keeps every pattern. -/
theorem swap_keeps {first second : Fin n} (shared : Binary32.ofNat second = Binary32.ofNat first)
    (place : Fin n) : Binary32.ofNat (Equiv.swap first second place) = Binary32.ofNat place := by
  rw [Equiv.swap_apply_def]
  split
  · next here => rw [here, shared]
  · split
    · next here => rw [here, shared]
    · rfl

theorem swap_ne_id {first second : Fin n} (apart : second ≠ first) :
    (Equiv.swap first second : Fin n → Fin n) ≠ id := by
  intro identity
  have stays : Equiv.swap first second first = first := congrFun identity first
  rw [Equiv.swap_apply_left] at stays
  exact apart stays

theorem exists_overlooked (large : 2 ^ 24 + 1 < n) :
    ∃ moved : Fin n → Fin n, moved ≠ id ∧
      ∀ place, Binary32.ofNat (moved place) = Binary32.ofNat place := by
  let first : Fin n := ⟨2 ^ 24, Nat.lt_of_succ_lt large⟩
  let second : Fin n := ⟨2 ^ 24 + 1, large⟩
  have apart : second ≠ first := fun same => Nat.succ_ne_self _ (Fin.val_eq_of_eq same)
  exact ⟨Equiv.swap first second, swap_ne_id apart, swap_keeps Binary32.ofNat_shared⟩

/-- A comparison with a numbered buffer accepts a rearrangement of it exactly when every place holds
an element of the same pattern as its own one. No rearrangement but the identity is accepted up to
`2 ^ 24 + 1` elements, and some other one is accepted in every larger buffer. -/
theorem rearrangement_detected_iff (n : Nat) :
    (∀ (moved : Fin n → Fin n) destination limit, Rearranges moved destination →
      ((verify (iota n) destination limit).result = .ok .success ↔
        ∀ place, Binary32.ofNat (moved place) = Binary32.ofNat place)) ∧
    ((∀ (moved : Fin n → Fin n) destination limit, Rearranges moved destination →
        (verify (iota n) destination limit).result = .ok .success → moved = id) ↔
      n ≤ 2 ^ 24 + 1) := by
  refine ⟨fun moved destination limit rearranges => rearranges.verified_iff limit, ?_, ?_⟩
  · intro detected
    by_contra large
    obtain ⟨moved, moves, same⟩ := exists_overlooked (Nat.lt_of_not_le large)
    have rearranges := rearranges_ofFn moved
    exact moves (detected moved _ 1 rearranges ((rearranges.verified_iff 1).mpr same))
  · intro small moved destination limit rearranges accepted
    exact Rearranges.eq_id small ((rearranges.verified_iff limit).mp accepted)

/-- A copy that exchanges two elements of the last tile of an accepted plan passes. -/
theorem exchange_overlooked :
    let exchanged : Fin 16777218 → Fin 16777218 :=
      Equiv.swap ⟨16777216, by decide⟩ ⟨16777217, by decide⟩
    ∃ plan destination,
      Plan.make (.columnMajor ⟨2, 8388609⟩) ⟨2, 1⟩ ⟨⟨2, 1⟩⟩ .striped = .ok plan ∧
        plan.layout.size = .ok 16777218 ∧ Rearranges exchanged destination ∧
        (∀ limit, (verify (iota 16777218) destination limit).result = .ok .success) ∧
        exchanged ≠ id := by
  intro exchanged
  have rearranges := rearranges_ofFn exchanged
  have accepted (limit : Nat) := (rearranges.verified_iff limit).mpr
    (swap_keeps Binary32.ofNat_shared)
  exact ⟨_, _, rfl, rfl, rearranges, accepted, swap_ne_id (by decide)⟩

end GridCopy
