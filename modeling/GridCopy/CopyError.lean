import GridCopy.Shape

/-!
# Refusals

What a tiled copy refuses to do, with its wording, and the two ways a computation fails: it is
refused, or it meets a fault.
-/

namespace GridCopy

/-- A reason to refuse a plan, a partition, a buffer or a configuration. -/
inductive CopyError
  | notDivisible (shape tile : Shape)
  /-- An extent is zero; `what` names the descriptor. -/
  | zeroExtent (what : String) (shape : Shape)
  | arrangementMismatch (tile threads vector : Shape)
  | tooManyUnits (requested max : Nat)
  | tooLarge (shape : Shape) (max : Nat)
  | uncoalescedVector (vector : Shape)
  | unsupportedVectorWidth (width : Nat)
  | outOfBounds (tileRow tileCol unit : Nat)
  | overlappingPartition (offset : Nat)
  | uncoveredElement (offset : Nat)
  | bufferSize (expected actual : Nat)
  | config (reason : String)
deriving DecidableEq, Repr

/-- What every configuration error says before its reason. -/
def CopyError.configPreamble : String :=
  "The config file provided doesn't have the right format => "

def CopyError.message : CopyError → String
  | .notDivisible shape tile =>
      "The tensor shape must be divisible by the block shape.\n" ++
        s!"Shape {shape}, block shape {tile}."
  | .zeroExtent what shape => s!"Extents must be non-zero, got {what} = {shape}."
  | .arrangementMismatch tile threads vector =>
      s!"Thread arrangement {threads} with vector {vector} doesn't evenly divide the block shape {tile}."
  | .tooManyUnits requested max =>
      "Total unit count exceeds maximum.\n" ++
        s!"Requested {requested} units, max units is {max}."
  | .tooLarge shape max => s!"Buffer shape {shape} exceeds the maximum of {max} elements."
  | .uncoalescedVector vector =>
      s!"Vector {vector} isn't laid out along the contiguous mode of the buffer."
  | .unsupportedVectorWidth width =>
      s!"Vector width {width} isn't a supported line size (1, 2, 4, 8 or 16)."
  | .outOfBounds tileRow tileCol unit =>
      s!"Tile ({tileRow}, {tileCol}) unit {unit} is outside the launch grid."
  | .overlappingPartition offset => s!"Element at offset {offset} is owned by more than one unit."
  | .uncoveredElement offset => s!"Element at offset {offset} isn't owned by any unit."
  | .bufferSize expected actual =>
      s!"Buffer holds {actual} elements, layout requires {expected}."
  | .config reason => configPreamble ++ reason

/-- Why there is no answer. -/
inductive Failure
  | refused (error : CopyError)
  | fault (fault : Fault)
deriving DecidableEq, Repr

/-- A fault ends a computation that may also be refused. -/
instance : MonadLift Checked (Except Failure) := ⟨fun checked => checked.mapError .fault⟩

/-- A refusal, as the failure of a computation. -/
def refuse (error : CopyError) : Except Failure α := .error (.refused error)

theorem lift_ok (value : α) :
    (liftM (Except.ok value : Checked α) : Except Failure α) = .ok value := rfl

end GridCopy
