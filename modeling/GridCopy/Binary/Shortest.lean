import GridCopy.Binary.Format

/-!
# Shortest decimals

The text of a binary number is a decimal with the fewest digits that reads back as the same
number. Every real between the two midpoints around a number reads back as it; the midpoints
themselves do when its significand is even. The decimal grids `10 ^ e` are tried from coarse to
fine, and on the first grid with a point in that interval the nearest one is taken.
-/

namespace GridCopy

/-- The number `digits * 10 ^ exponent`. -/
structure Decimal where
  digits : Nat
  exponent : Int
deriving DecidableEq, Repr

/-- The decimal in positional notation: no exponent, and no point in a whole number. -/
def Decimal.text (decimal : Decimal) : String :=
  let digits := (toString decimal.digits).toList
  let places := (-decimal.exponent).toNat
  if 0 ≤ decimal.exponent then
    String.ofList (digits ++ List.replicate decimal.exponent.toNat '0')
  else if places < digits.length then
    let whole := digits.length - places
    String.ofList (digits.take whole ++ '.' :: digits.drop whole)
  else
    String.ofList ('0' :: '.' :: (List.replicate (places - digits.length) '0' ++ digits))

/-- A positive number with the reals that read back as it, all in units of `2 ^ scale`. -/
structure RoundingInterval where
  low : Nat
  number : Nat
  high : Nat
  scale : Int
  /-- Whether the two ends of the interval read back as the number too. -/
  endsIncluded : Bool
deriving DecidableEq, Repr

namespace RoundingInterval

/-- The interval around `significand * 2 ^ exponent`. The gap below a power of two is half as
wide as the gap above it, except at the lowest exponent. -/
def around (format : BinaryFormat) (significand : Nat) (exponent : Int) : RoundingInterval :=
  let lowest : Int := 1 - format.bias - format.fractionBits
  let atPower := significand = 1 <<< format.fractionBits ∧ lowest < exponent
  { low := if atPower then 4 * significand - 1 else 4 * significand - 2
    number := 4 * significand
    high := 4 * significand + 2
    scale := exponent - 2
    endsIncluded := significand % 2 == 0 }

/-- Whether `a` lies before `b`, or at it when the ends count. -/
def reaches (interval : RoundingInterval) (a b : Nat) : Bool :=
  if interval.endsIncluded then a ≤ b else a < b

/-- The nearest point of the grid `10 ^ exponent` among those that read back as the number; of
two equally near points the upper one. -/
def onGrid? (interval : RoundingInterval) (exponent : Int) : Option Decimal :=
  let unit := Nat.pow 10 (-exponent).toNat <<< interval.scale.toNat
  let spacing := Nat.pow 10 exponent.toNat <<< (-interval.scale).toNat
  let below := interval.number * unit / spacing
  let rest := interval.number * unit % spacing
  let belowReadsBack := interval.reaches (interval.low * unit) (below * spacing)
  let aboveReadsBack := interval.reaches ((below + 1) * spacing) (interval.high * unit)
  if aboveReadsBack && (!belowReadsBack || spacing ≤ 2 * rest) then some ⟨below + 1, exponent⟩
  else if belowReadsBack then some ⟨below, exponent⟩
  else none

/-- An exponent whose grid is coarser than the number. -/
def coarsest (interval : RoundingInterval) : Int :=
  (interval.number.log2 + 1 + interval.scale) * 30103 / 100000 + 2

/-- How many grids are tried. -/
def gridCount : Nat := 32

/-- The shortest decimal that reads back as the number. -/
def shortest? (interval : RoundingInterval) : Option Decimal :=
  (List.range gridCount).findSome? fun (finer : Nat) =>
    interval.onGrid? (interval.coarsest - finer)

end RoundingInterval

/-- The text of a bit pattern. -/
def BinaryFormat.text (format : BinaryFormat) (bits : Nat) : String :=
  match format.value bits with
  | .notANumber => "NaN"
  | .infinite negative => if negative then "-inf" else "inf"
  | .finite negative significand exponent =>
      let sign := if negative then "-" else ""
      if significand = 0 then sign ++ "0"
      else
        match (RoundingInterval.around format significand exponent).shortest? with
        | some decimal => sign ++ decimal.text
        | none => sign

example : (RoundingInterval.around .binary64 0x1999999999999a (-56)).shortest? = some ⟨1, -1⟩ := by
  decide +kernel
example : (RoundingInterval.around .binary64 1 (-1074)).shortest? = some ⟨5, -324⟩ := by
  decide +kernel

example : (Decimal.mk 25 (-3)).text = "0.025" := by decide +kernel
example : BinaryFormat.binary32.text 0x80000000 = "-0" := by decide +kernel

end GridCopy
