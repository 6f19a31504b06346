import GridCopy.Datum
import GridCopy.Toml.Lexis

/-!
# Numbers

Integers in four bases and decimal fractions. Digits may be separated by single underscores.
Integers have 64 bits with a sign; a fraction that rounds to positive infinity is refused.
-/

namespace GridCopy

namespace Toml

/-- The digits at the front, without the underscores between them. -/
def digitRun (isDigit : Char → Bool) : List Char → List Char × List Char
  | [] => ([], [])
  | '_' :: c :: rest =>
      if isDigit c then
        let (digits, rest) := digitRun isDigit rest
        (c :: digits, rest)
      else ([], '_' :: c :: rest)
  | c :: rest =>
      if isDigit c then
        let (digits, rest) := digitRun isDigit rest
        (c :: digits, rest)
      else ([], c :: rest)

/-- One digit at least, the first one not an underscore. -/
def readDigits (isDigit : Char → Bool) : Reader (List Char)
  | [] => none
  | c :: rest =>
      if isDigit c then
        let (digits, rest) := digitRun isDigit rest
        some (c :: digits, rest)
      else none

/-- A decimal numeral; one that starts with a zero ends there. -/
def readWhole : Reader (List Char)
  | '0' :: rest => some (['0'], rest)
  | chars => readDigits isDigit chars

/-- An optional sign: whether the number is negative, and the rest. -/
def readSign : List Char → Bool × List Char
  | '-' :: rest => (true, rest)
  | '+' :: rest => (false, rest)
  | chars => (false, chars)

/-- Integers lie between `-2 ^ 63` and `2 ^ 63 - 1`. -/
def integer? (negative : Bool) (magnitude : Nat) : Option Datum :=
  let value : Int := if negative then -magnitude else magnitude
  if Int64.minValue.toInt ≤ value ∧ value ≤ Int64.maxValue.toInt then some (.integer value)
  else none

def readBased (base : Nat) (isDigit : Char → Bool) : Reader Datum := fun chars => do
  let (digits, rest) ← readDigits isDigit chars
  let value ← integer? false (numeral base digits)
  return (value, rest)

/-- An integer. Bases other than ten take no sign. -/
def readInteger : Reader Datum
  | '0' :: 'x' :: rest => readBased 16 isHexDigit rest
  | '0' :: 'o' :: rest => readBased 8 (fun c => '0' ≤ c && c ≤ '7') rest
  | '0' :: 'b' :: rest => readBased 2 (fun c => c == '0' || c == '1') rest
  | chars => do
      let (negative, rest) := readSign chars
      let (digits, rest) ← readWhole rest
      let value ← integer? negative (numeral 10 digits)
      return (value, rest)

/-- Whether `digits * 10 ^ exponent` rounds to infinity as a double precision number: from the
midpoint between the largest one and `2 ^ 1024` on. -/
def roundsToInfinity (digits : Nat) (exponent : Int) : Bool :=
  let order : Int := (toString digits).length + exponent
  if digits = 0 || order < 309 then false
  else if 309 < order then true
  else
    let midpoint := 1 <<< 1024 - 1 <<< 970
    midpoint * Nat.pow 10 (-exponent).toNat ≤ digits * Nat.pow 10 exponent.toNat

/-- The exponent part of a fraction, zero if there is none. -/
def readExponent : Reader Int
  | c :: rest =>
      if c = 'e' ∨ c = 'E' then do
        let (negative, rest) := readSign rest
        let (digits, rest) ← readDigits isDigit rest
        let magnitude : Int := numeral 10 digits
        return (if negative then -magnitude else magnitude, rest)
      else some (0, c :: rest)
  | [] => some (0, [])

/-- A number with a fraction part or an exponent part. -/
def readFraction : Reader Datum := fun chars => do
  let (negative, rest) := readSign chars
  let (whole, rest) ← readWhole rest
  let (fraction, rest) ←
    match rest with
    | '.' :: rest => readDigits isDigit rest
    | 'e' :: _ => some ([], rest)
    | 'E' :: _ => some ([], rest)
    | _ => none
  let (exponent, rest) ← readExponent rest
  let digits := numeral 10 (whole ++ fraction)
  if !negative && roundsToInfinity digits (exponent - fraction.length) then none
  else some (.real, rest)

/-- Infinity and the value that is no number, with or without a sign. -/
def readSpecial : Reader Datum := fun chars =>
  match (readSign chars).2 with
  | 'i' :: 'n' :: 'f' :: rest => some (.real, rest)
  | 'n' :: 'a' :: 'n' :: rest => some (.real, rest)
  | _ => none

/-- A number. What can be read as a fraction is no integer. -/
def readNumber : Reader Datum := fun chars =>
  (readFraction chars).orElse fun _ => (readSpecial chars).orElse fun _ => readInteger chars

example : readNumber "0x_1".toList = none := by rfl
example : (readNumber "-9223372036854775808".toList).isSome = true := by decide +kernel
example : (readNumber "9223372036854775808".toList).isNone = true := by decide +kernel
example : (readNumber "1_000".toList).isSome = true := by decide +kernel

end Toml

end GridCopy
