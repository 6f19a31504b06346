import GridCopy.Journal

/-!
# Copies on a device

The device runs every unit of every cube of one launch. Fresh device memory holds whatever the
device left there, and reading a buffer back gives what the device delivers.
-/

namespace GridCopy

/-- A device, as far as a copy can tell one from another. -/
structure Device (α : Type) where
  /-- What fresh memory holds at each place. -/
  fresh : Nat → α
  /-- What the n-th read of a buffer delivers. -/
  readBack : Nat → Array α → Array α

namespace Device

variable {α : Type}

/-- A device that delivers buffers as they are. -/
def faithful (fresh : Nat → α) : Device α := ⟨fresh, fun _ buffer => buffer⟩

/-- Every extent and stride of the plan, cut to the words that a launch takes. -/
def launchOf (plan : Plan) : Checked Launch := do
  let grid ← plan.grid
  let units ← plan.unitsPerTile
  let lineSize ← plan.lineSize
  let size ← plan.layout.size
  let lines ← Size.div size lineSize.toNat
  let vector := plan.policy.vector
  return {
    cubeCount := ⟨UInt32.ofNat grid.rows, UInt32.ofNat grid.cols, 1⟩
    cubeDim := ⟨UInt32.ofNat units, 1, 1⟩
    input := ⟨lineSize, lines⟩
    output := ⟨lineSize, lines⟩
    rowStride := UInt32.ofNat plan.layout.rowStride
    colStride := UInt32.ofNat plan.layout.colStride
    blocking := {
      tileRows := UInt32.ofNat plan.tile.rows
      tileCols := UInt32.ofNat plan.tile.cols
      threadRows := UInt32.ofNat plan.threads.shape.rows
      threadCols := UInt32.ofNat plan.threads.shape.cols
      vectorRows := UInt32.ofNat vector.rows
      vectorCols := UInt32.ofNat vector.cols }
    bounded := false }

/-- What a launch logs before it starts. -/
def announcement (plan : Plan) (grid : Shape) (units : Nat) (lineSize : UInt8) : String :=
  s!"Launching {plan.policy} tiled copy: grid {grid}, {units} units per cube, " ++
    s!"line size {lineSize}"

/-- The run of the units of a launch, which move whole lines. -/
def runUnits (schedule : Schedule) (launch : Launch) (input output : Array α) :
    Checked Unit × Staging α :=
  Staging.runWorkers schedule launch.input.lineSize.toNat launch.programs input output

/-- Copies `input` through the device, as the n-th read of the buffer it delivers, while the units
take their turns as `schedule` says. A wrong length is refused before anything is launched. -/
def copyUnder (schedule : Schedule) (device : Device α) (read : Nat) (plan : Plan)
    (input : Array α) : Recorded (Array α) := do
  let expected ← plan.layout.size
  if input.size ≠ expected then
    refuse (.bufferSize expected input.size)
  else
    let grid ← plan.grid
    let units ← plan.unitsPerTile
    let lineSize ← plan.lineSize
    let launch ← launchOf plan
    Recorded.log .debug (announcement plan grid units lineSize)
    Recorded.start launch
    let output := Array.ofFn fun place : Fin expected => device.fresh place
    let (outcome, last) := runUnits schedule launch input output
    outcome
    return device.readBack read last.destination

/-- Copies `input` through the device, one unit after another. -/
def copy (device : Device α) (read : Nat) (plan : Plan) (input : Array α) : Recorded (Array α) :=
  device.copyUnder .oneByOne read plan input

end Device

end GridCopy
