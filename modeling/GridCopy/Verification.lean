import GridCopy.Journal

/-!
# Verification

Comparing a destination with its source, element by element in memory order. The comparison gives
up once it has found as many mismatches as the limit allows; a limit of zero allows one.
-/

namespace GridCopy

/-- An element whose copy differs from it. -/
structure Mismatch (α : Type) where
  index : Nat
  expected : α
  actual : α
deriving DecidableEq, Repr

namespace Mismatch

variable {α : Type} [ToString α]

def text (mismatch : Mismatch α) : String :=
  s!"Error. S[{mismatch.index}]: {mismatch.expected},   D[{mismatch.index}]: {mismatch.actual}"

instance : ToString (Mismatch α) := ⟨text⟩

end Mismatch

inductive Verification (α : Type)
  | success
  /-- The mismatches found, in memory order, and whether the limit ended the comparison. -/
  | failed (mismatches : List (Mismatch α)) (aborted : Bool)
deriving DecidableEq, Repr

namespace Verification

variable {α : Type}

def isSuccess : Verification α → Bool
  | .success => true
  | .failed _ _ => false

/-- What a finished comparison concludes from the mismatches that it found, last one first. -/
def conclude (found : List (Mismatch α)) (aborted : Bool) : Verification α :=
  if found.isEmpty then .success else .failed found.reverse aborted

/-- Compares the remaining pairs. `found` holds the earlier mismatches and `warned` their warnings,
both last one first; `room` is the number of mismatches still allowed, less one. -/
def scan [BEq α] (index room : Nat) (found : List (Mismatch α)) (warned : List Event) :
    List (α × α) → List Event × Verification α
  | [] => (warned.reverse, conclude found false)
  | (expected, actual) :: rest =>
      if expected != actual then
        let found := ⟨index, expected, actual⟩ :: found
        let warned := .log .warn s!"Mismatch at offset {index}" :: warned
        match room with
        | 0 => (warned.reverse, conclude found true)
        | room + 1 => scan (index + 1) room found warned rest
      else
        scan (index + 1) room found warned rest

end Verification

/-- Compares `destination` with `source`, which must have the same length. -/
def verify {α : Type} [BEq α] (source destination : Array α) (limit : Nat) :
    Recorded (Verification α) :=
  if destination.size ≠ source.size then
    refuse (.bufferSize source.size destination.size)
  else
    let pairs := source.toList.zip destination.toList
    let (events, verification) := Verification.scan 0 (max limit 1 - 1) [] [] pairs
    ⟨events, .ok verification⟩

example : (verify #[1, 2, 3, 4] #[1, 0, 0, 0] 2).result.toOption =
    some (.failed [⟨1, 2, 0⟩, ⟨2, 3, 0⟩] true) := by decide
example : (verify #[1, 2] #[1, 0] 0).lines = ["WARN Mismatch at offset 1"] := by decide

end GridCopy
