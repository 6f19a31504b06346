import Mathlib.Algebra.Order.Ring.Nat
import GridCopy.Binary

/-!
# Equality of numbers

When the test `==` on single precision numbers tells bit patterns apart. It is blind between the
two zeros, and for every other element of a numbered buffer it compares bits.

Results:
1. `BinaryFormat.equal_iff_of_number`, `BinaryFormat.equal_zero_iff`: equality to a number that is
   not zero, and to zero.
2. `BinaryFormat.ofNat_le_infinity`, `BinaryFormat.binary32_ofNat_pos`: the number nearest to a
   natural number is a number, and positive unless it stands for zero.
3. `Binary32.ofNat_beq_iff`, `Binary32.ofNat_zero_beq_iff`: what equals an element of a numbered
   buffer.
-/

namespace GridCopy

namespace BinaryFormat

variable {format : BinaryFormat} {left right : Nat}

theorem magnitude_of_lt {bits : Nat}
    (small : bits < 1 <<< (format.exponentBits + format.fractionBits)) :
    format.magnitude bits = bits := Nat.mod_eq_of_lt small

theorem infinity_lt (format : BinaryFormat) :
    format.infinity < 1 <<< (format.exponentBits + format.fractionBits) := by
  simp only [infinity, Nat.shiftLeft_eq, Nat.one_mul, Nat.pow_add]
  exact Nat.mul_lt_mul_of_pos_right (Nat.sub_lt (Nat.two_pow_pos _) Nat.one_pos)
    (Nat.two_pow_pos _)

/-- A number that is not zero equals only its own pattern. -/
theorem equal_iff_of_number (number : format.isNotANumber left = false)
    (nonzero : format.magnitude left ≠ 0) : format.equal left right = true ↔ left = right := by
  constructor
  · intro same
    have both : format.isNotANumber right = false ∧ left = right := by
      simpa [equal, number, nonzero] using same
    exact both.2
  · rintro rfl
    simp [equal, number]

/-- Zero equals the patterns that are zero but for their sign. -/
theorem equal_zero_iff : format.equal 0 right = true ↔ format.magnitude right = 0 := by
  have zero : format.magnitude 0 = 0 := Nat.zero_mod _
  constructor
  · intro same
    simp only [equal, Bool.and_eq_true, Bool.or_eq_true, beq_iff_eq] at same
    rcases same.2 with rfl | ⟨-, other⟩
    · exact zero
    · exact other
  · intro other
    simp [equal, isNotANumber, zero, other]

theorem ofNat_le_infinity (n : Nat) : format.ofNat n ≤ format.infinity := by
  unfold ofNat
  split
  · exact Nat.zero_le _
  · exact Nat.min_le_left _ _

theorem magnitude_ofNat (n : Nat) : format.magnitude (format.ofNat n) = format.ofNat n :=
  magnitude_of_lt (Nat.lt_of_le_of_lt (ofNat_le_infinity n) format.infinity_lt)

theorem ofNat_isNumber (n : Nat) : format.isNotANumber (format.ofNat n) = false := by
  rw [isNotANumber, magnitude_ofNat, decide_eq_false_iff_not]
  exact Nat.not_lt.mpr (ofNat_le_infinity n)

theorem binary32_ofNat_pos {n : Nat} (positive : 0 < n) : 0 < binary32.ofNat n := by
  rw [ofNat, if_neg (Nat.ne_of_gt positive)]
  refine Nat.lt_min.mpr ⟨by decide, Nat.add_pos_left ?_ _⟩
  rw [Nat.shiftLeft_eq]
  have bias : binary32.bias = 127 := by decide
  exact Nat.mul_pos (by omega) (Nat.two_pow_pos _)

end BinaryFormat

namespace Binary32

variable {n : Nat} {other : Binary32}

theorem ext_bits {number other : Binary32} (same : number.bits = other.bits) : number = other := by
  cases number
  cases other
  cases same
  rfl

theorem toNat_bits_ofNat (n : Nat) : (ofNat n).bits.toNat = BinaryFormat.binary32.ofNat n :=
  UInt32.toNat_ofNat_of_lt'
    (Nat.lt_of_le_of_lt (BinaryFormat.ofNat_le_infinity n) (by decide))

/-- An element of a numbered buffer, the first one apart, equals only itself. -/
theorem ofNat_beq_iff (positive : 0 < n) : (ofNat n == other) = true ↔ other = ofNat n := by
  have number : BinaryFormat.binary32.isNotANumber (BinaryFormat.binary32.ofNat n) = false :=
    BinaryFormat.ofNat_isNumber n
  have nonzero : BinaryFormat.binary32.magnitude (BinaryFormat.binary32.ofNat n) ≠ 0 := by
    rw [BinaryFormat.magnitude_ofNat]
    exact Nat.ne_of_gt (BinaryFormat.binary32_ofNat_pos positive)
  change BinaryFormat.binary32.equal (ofNat n).bits.toNat other.bits.toNat = true ↔ _
  rw [toNat_bits_ofNat, BinaryFormat.equal_iff_of_number number nonzero, ← toNat_bits_ofNat]
  constructor
  · intro same
    exact ext_bits (UInt32.toNat.inj same.symm)
  · rintro rfl
    rfl

/-- The two patterns that are equal to the first element of a numbered buffer. -/
def IsZero (number : Binary32) : Prop := number.bits = 0 ∨ number.bits = 0x80000000

theorem ofNat_zero_beq_iff : (ofNat 0 == other) = true ↔ other.IsZero := by
  have below : other.bits.toNat < 2 ^ 32 := other.bits.toNat_lt
  have magnitude :
      BinaryFormat.binary32.magnitude other.bits.toNat = other.bits.toNat % 2 ^ 31 := rfl
  change BinaryFormat.binary32.equal 0 other.bits.toNat = true ↔ _
  rw [BinaryFormat.equal_zero_iff, magnitude, IsZero, ← UInt32.toNat_inj, ← UInt32.toNat_inj]
  change _ ↔ other.bits.toNat = 0 ∨ other.bits.toNat = 2 ^ 31
  omega

end Binary32

theorem iota_size (length : Nat) : (iota length).size = length := by
  simp [iota]

theorem iota_getElem? {length i : Nat} (inside : i < length) :
    (iota length)[i]? = some (Binary32.ofNat i) := by
  simp [iota, inside]

theorem of_iota_getElem? {length i : Nat} {number : Binary32}
    (held : (iota length)[i]? = some number) : i < length ∧ number = Binary32.ofNat i := by
  obtain ⟨inside, -⟩ := Array.getElem?_eq_some_iff.mp held
  rw [iota_size] at inside
  rw [iota_getElem? inside, Option.some.injEq] at held
  exact ⟨inside, held.symm⟩

end GridCopy
