import GridCopy.Datum
import GridCopy.Toml.Lexis

/-!
# Dates and times

A date, a time of day, or both, with or without an offset from universal time. Only whether they
are well formed matters.
-/

namespace GridCopy

namespace Toml

/-- A number of exactly `count` digits. -/
def readFixed (count : Nat) : Reader Nat := fun chars =>
  let digits := chars.take count
  if digits.length = count && digits.all isDigit then some (numeral 10 digits, chars.drop count)
  else none

def isLeapYear (year : Nat) : Bool := year % 4 == 0 && (year % 100 != 0 || year % 400 == 0)

def daysInMonth (year month : Nat) : Nat :=
  if month = 2 then if isLeapYear year then 29 else 28
  else if month = 4 ∨ month = 6 ∨ month = 9 ∨ month = 11 then 30
  else 31

/-- What follows a character that must come next. -/
def expect (c : Char) : List Char → Option (List Char)
  | d :: rest => if d = c then some rest else none
  | [] => none

/-- What follows a date. -/
def skipDate (chars : List Char) : Option (List Char) := do
  let (year, rest) ← readFixed 4 chars
  let rest ← expect '-' rest
  let (month, rest) ← readFixed 2 rest
  let rest ← expect '-' rest
  let (day, rest) ← readFixed 2 rest
  if 1 ≤ month ∧ month ≤ 12 ∧ 1 ≤ day ∧ day ≤ daysInMonth year month then some rest else none

/-- What follows the fraction of a second, if there is one. -/
def skipSecondFraction : List Char → List Char
  | '.' :: c :: rest => if isDigit c then rest.dropWhile isDigit else '.' :: c :: rest
  | chars => chars

/-- What follows hours and minutes. -/
def skipMinutes (chars : List Char) : Option (List Char) := do
  let (hour, rest) ← readFixed 2 chars
  let rest ← expect ':' rest
  let (minute, rest) ← readFixed 2 rest
  if hour ≤ 23 ∧ minute ≤ 59 then some rest else none

/-- What follows a time of day; a leap second is allowed. -/
def skipTime (chars : List Char) : Option (List Char) := do
  let rest ← skipMinutes chars
  let rest ← expect ':' rest
  let (second, rest) ← readFixed 2 rest
  if second ≤ 60 then some (skipSecondFraction rest) else none

/-- What follows an offset, if there is one. -/
def skipOffset : List Char → List Char
  | [] => []
  | c :: rest =>
      if c = 'Z' ∨ c = 'z' then rest
      else if c = '+' ∨ c = '-' then (skipMinutes rest).getD (c :: rest)
      else c :: rest

/-- What follows the time that belongs to a date, if there is one. -/
def skipTimeOfDate : List Char → List Char
  | [] => []
  | c :: rest =>
      if c = 'T' ∨ c = 't' ∨ c = ' ' then
        match skipTime rest with
        | some rest => skipOffset rest
        | none => c :: rest
      else c :: rest

def readMoment : Reader Datum := fun chars =>
  match skipDate chars with
  | some rest => some (.moment, skipTimeOfDate rest)
  | none => (skipTime chars).map fun rest => (.moment, rest)

example : readMoment "1979-05-27 07:32:00.5-07:00 #".toList = some (.moment, [' ', '#']) := by rfl
example : readMoment "2023-02-29".toList = none := by rfl
example : readMoment "12:00:00".toList = some (.moment, []) := by rfl

end Toml

end GridCopy
