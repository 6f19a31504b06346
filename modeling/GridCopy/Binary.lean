import GridCopy.Binary.Shortest

/-!
# Single and double precision numbers

A number is its bit pattern, so copies of it can be compared bit for bit. The test `==` compares
numbers instead: it identifies the two zeros and refuses to identify anything that is not a number.
-/

namespace GridCopy

structure Binary32 where
  bits : UInt32
deriving Repr

namespace Binary32

instance : Inhabited Binary32 := ⟨⟨0⟩⟩

instance : BEq Binary32 :=
  ⟨fun left right => BinaryFormat.binary32.equal left.bits.toNat right.bits.toNat⟩

instance : ToString Binary32 := ⟨fun number => BinaryFormat.binary32.text number.bits.toNat⟩

/-- The number nearest to a natural number. -/
def ofNat (n : Nat) : Binary32 := ⟨UInt32.ofNat (BinaryFormat.binary32.ofNat n)⟩

end Binary32

/-- The buffer whose element number `i` is nearest to `i`. -/
def iota (length : Nat) : Array Binary32 := (Array.range length).map Binary32.ofNat

structure Binary64 where
  bits : UInt64
deriving Repr

namespace Binary64

instance : BEq Binary64 :=
  ⟨fun left right => BinaryFormat.binary64.equal left.bits.toNat right.bits.toNat⟩

instance : ToString Binary64 := ⟨fun number => BinaryFormat.binary64.text number.bits.toNat⟩

end Binary64

end GridCopy
