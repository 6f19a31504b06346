/-!
# Binary floating-point formats

Binary interchange formats, as far as copies need them: what a bit pattern stands for, when two
patterns are equal numbers, and which pattern is nearest to a natural number.
-/

namespace GridCopy

/-- A format with one sign bit, an exponent field and a fraction field. -/
structure BinaryFormat where
  fractionBits : Nat
  exponentBits : Nat
deriving DecidableEq, Repr

/-- What a bit pattern stands for. A finite number is `significand * 2 ^ exponent`. -/
inductive BinaryValue
  | notANumber
  | infinite (negative : Bool)
  | finite (negative : Bool) (significand : Nat) (exponent : Int)
deriving DecidableEq, Repr

/-- The quotient rounded to the nearest natural number, a half to the even one. -/
def divRoundEven (a b : Nat) : Nat :=
  let quotient := a / b
  let rest := 2 * (a % b)
  if rest < b then quotient
  else if b < rest then quotient + 1
  else quotient + quotient % 2

namespace BinaryFormat

@[inline] def binary32 : BinaryFormat := ⟨23, 8⟩

@[inline] def binary64 : BinaryFormat := ⟨52, 11⟩

/-- The exponent field of one. -/
@[inline] def bias (format : BinaryFormat) : Nat := 1 <<< (format.exponentBits - 1) - 1

/-- The pattern of positive infinity. -/
@[inline] def infinity (format : BinaryFormat) : Nat :=
  (1 <<< format.exponentBits - 1) <<< format.fractionBits

/-- The pattern without its sign bit. -/
@[inline] def magnitude (format : BinaryFormat) (bits : Nat) : Nat :=
  bits % 1 <<< (format.exponentBits + format.fractionBits)

def isNegative (format : BinaryFormat) (bits : Nat) : Bool :=
  (bits >>> (format.exponentBits + format.fractionBits)) % 2 == 1

@[inline] def isNotANumber (format : BinaryFormat) (bits : Nat) : Bool :=
  format.infinity < format.magnitude bits

/-- Whether two patterns are equal as numbers: the two zeros are, and a pattern that is not a
number equals nothing, not even itself. -/
@[inline] def equal (format : BinaryFormat) (left right : Nat) : Bool :=
  !format.isNotANumber left && !format.isNotANumber right &&
    (left == right || format.magnitude left == 0 && format.magnitude right == 0)

def value (format : BinaryFormat) (bits : Nat) : BinaryValue :=
  let negative := format.isNegative bits
  let magnitude := format.magnitude bits
  if format.infinity < magnitude then .notANumber
  else if magnitude = format.infinity then .infinite negative
  else
    let field := magnitude >>> format.fractionBits
    let fraction := magnitude % 1 <<< format.fractionBits
    let lowest : Int := 1 - format.bias - format.fractionBits
    if field = 0 then .finite negative fraction lowest
    else .finite negative (1 <<< format.fractionBits + fraction) (lowest + field - 1)

/-- The pattern nearest to a natural number, a half to the even one. -/
@[inline] def ofNat (format : BinaryFormat) (n : Nat) : Nat :=
  if n = 0 then 0
  else
    let exponent := n.log2
    let significand :=
      if exponent ≤ format.fractionBits then n <<< (format.fractionBits - exponent)
      else divRoundEven n (1 <<< (exponent - format.fractionBits))
    min format.infinity
      (((exponent + format.bias - 1) <<< format.fractionBits) + significand)

example : binary32.ofNat 1 = 0x3f800000 := by decide
example : binary32.ofNat 16777217 = binary32.ofNat 16777216 := by decide
example : binary32.ofNat 16777219 = binary32.ofNat 16777220 := by decide
example : binary32.equal 0 0x80000000 = true := by decide
example : binary32.equal 0x7fc00000 0x7fc00000 = false := by decide
example : binary64.value 1 = .finite false 1 (-1074) := by decide

end BinaryFormat

end GridCopy
