import GridCopy.Plan.Partition

/-!
# Ownership

The map from the elements of a buffer to the units that own them. Building it is a check of the
plan: an element owned twice, or by no unit, is refused.
-/

namespace GridCopy

namespace Plan

/-- Hands the element at `offset` to `owner`. -/
def claimElement (owner : Owner) (slots : Array (Option Owner)) (offset : Nat) :
    Except Failure (Array (Option Owner)) :=
  if inside : offset < slots.size then
    match slots[offset] with
    | some _ => refuse (.overlappingPartition offset)
    | none => .ok (slots.set offset (some owner) inside)
  else
    refuse (.uncoveredElement offset)

/-- Hands all elements of one partition to its owner. -/
def claimPartition (slots : Array (Option Owner)) (share : Owner × Partition) :
    Except Failure (Array (Option Owner)) := do
  let offsets ← share.2.offsets
  offsets.foldlM (claimElement share.1) slots

/-- The owner in the slot of an element; a slot without one is refused. -/
def ownerInSlot : Option Owner × Nat → Except Failure Owner
  | (some owner, _) => .ok owner
  | (none, offset) => refuse (.uncoveredElement offset)

/-- The owner of every element, in memory order. -/
def ownershipMap (plan : Plan) : Except Failure (List Owner) := do
  let size ← plan.layout.size
  let partitions ← plan.partitions
  let slots ← partitions.foldlM claimPartition (Array.replicate size none)
  slots.toList.zipIdx.mapM ownerInSlot

example : ((make (.columnMajor ⟨4, 2⟩) ⟨2, 2⟩ ⟨⟨1, 2⟩⟩ (.vectorized ⟨2, 1⟩)).bind ownershipMap) =
    .ok [⟨0, 0, 0⟩, ⟨0, 0, 0⟩, ⟨1, 0, 0⟩, ⟨1, 0, 0⟩, ⟨0, 0, 1⟩, ⟨0, 0, 1⟩, ⟨1, 0, 1⟩, ⟨1, 0, 1⟩] := by
  rfl

end Plan

end GridCopy
