import GridCopy.Device.Copy

/-!
# Disturbed devices

A device whose reads can go wrong: a read may deliver a buffer of another length, and single
elements may be changed on the way.
-/

namespace GridCopy

/-- What goes wrong with one read. -/
structure Disturbance (α : Type) where
  /-- The length delivered, if it is not the right one. -/
  length : Option Nat
  /-- The elements changed after that, in order. -/
  patches : List (Nat × α)

namespace Disturbance

variable {α : Type}

/-- Nothing goes wrong. -/
def none : Disturbance α := ⟨.none, []⟩

/-- Cuts a buffer to a length, or fills it up. -/
def resize (buffer : Array α) (length : Nat) (filler : α) : Array α :=
  buffer.extract 0 length ++ Array.replicate (length - buffer.size) filler

/-- What a read delivers instead of `buffer`. -/
def apply (disturbance : Disturbance α) (filler : α) (buffer : Array α) : Array α :=
  let resized :=
    match disturbance.length with
    | .none => buffer
    | some length => resize buffer length filler
  disturbance.patches.foldl (fun buffer (place, element) => buffer.setIfInBounds place element)
    resized

end Disturbance

/-- A device whose n-th read suffers the n-th disturbance; later reads go well. -/
def Device.disturbed {α : Type} (fresh : Nat → α) (filler : α)
    (disturbances : List (Disturbance α)) : Device α where
  fresh := fresh
  readBack read buffer := (disturbances.getD read .none).apply filler buffer

end GridCopy
