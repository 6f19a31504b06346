import GridCopy.Journal
import GridCopy.Settings.Basic

/-!
# Settings from the environment

Three variables override settings. A value that a variable cannot have is ignored with a warning.
-/

namespace GridCopy

namespace Settings

def policyVariable : String := "TILED_COPY_POLICY"

def layoutVariable : String := "TILED_COPY_LAYOUT"

def limitVariable : String := "TILED_COPY_ERROR_LIMIT"

def isDecimalDigit (c : Char) : Bool := '0' ≤ c && c ≤ '9'

/-- A size in decimal: one plus sign at most, then digits only, as many leading zeros as wanted. -/
def size? (text : String) : Option Nat :=
  let digits :=
    match text.toList with
    | '+' :: rest => rest
    | chars => chars
  let value := digits.foldl (fun value digit => value * 10 + (digit.toNat - '0'.toNat)) 0
  if !digits.isEmpty && digits.all isDecimalDigit && value < Size.bound then some value else none

/-- The setting that a variable gives, or the old one. -/
def override {α : Type} (lookup : String → Option String) (name : String)
    (read? : String → Option α) (complaint : String) (old : α) : Recorded α :=
  match lookup name with
  | none => return old
  | some text =>
      match read? text with
      | some value => return value
      | none => do
          Recorded.log .warn s!"Ignoring {complaint} {name}={text}"
          return old

/-- Overrides the policy, the layout and the error limit from the variables that are set. -/
def overrideFrom (lookup : String → Option String) (settings : Settings) :
    Recorded Settings := do
  let policy ← override lookup policyVariable Selection.ofName? "unknown" settings.policy
  let layout ← override lookup layoutVariable MajorOrder.ofName? "unknown" settings.layout
  let errorLimit ← override lookup limitVariable size? "non-numeric" settings.errorLimit
  return { settings with policy, layout, errorLimit }

example : size? "+007" = some 7 := by decide
example : size? "++7" = none := by decide
example : size? "18446744073709551616" = none := by decide +kernel

end Settings

end GridCopy
