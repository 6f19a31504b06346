import GridCopy.Staging

/-!
# Launches

A launch starts a grid of cubes of units on a device. All index arithmetic of a unit is on 32-bit
words and wraps. Memory is bound as lines of `lineSize` elements: line `n` starts at the element
`n * lineSize`, and a launch that is not bounded performs no check on `n`.
-/

namespace GridCopy

/-- The extents of a launch along its three axes. -/
structure Extent where
  x : UInt32
  y : UInt32
  z : UInt32
deriving DecidableEq, Repr

/-- A buffer bound as an array of lines. -/
structure Binding where
  lineSize : UInt8
  lines : Nat
deriving DecidableEq, Repr

/-- The extents a kernel is compiled for. -/
structure Blocking where
  tileRows : UInt32
  tileCols : UInt32
  threadRows : UInt32
  threadCols : UInt32
  vectorRows : UInt32
  vectorCols : UInt32
deriving DecidableEq, Repr

namespace Blocking

def stepRows (blocking : Blocking) : UInt32 := blocking.threadRows * blocking.vectorRows

def stepCols (blocking : Blocking) : UInt32 := blocking.threadCols * blocking.vectorCols

def repeatRows (blocking : Blocking) : UInt32 := blocking.tileRows / blocking.stepRows

def repeatCols (blocking : Blocking) : UInt32 := blocking.tileCols / blocking.stepCols

/-- The number of lines that a unit holds in its registers. -/
def slots (blocking : Blocking) : UInt32 := blocking.repeatRows * blocking.repeatCols

/-- The slot of a repetition, repetitions along rows first. -/
def slot (blocking : Blocking) (repetition : UInt32 × UInt32) : UInt32 :=
  repetition.2 * blocking.repeatRows + repetition.1

/-- The repetitions of a unit, in the order in which it makes them. -/
def repetitions (blocking : Blocking) : List (UInt32 × UInt32) :=
  (Shape.mk blocking.repeatRows.toNat blocking.repeatCols.toNat).positions.map fun (row, col) =>
    (UInt32.ofNat row, UInt32.ofNat col)

end Blocking

structure Launch where
  cubeCount : Extent
  cubeDim : Extent
  input : Binding
  output : Binding
  rowStride : UInt32
  colStride : UInt32
  blocking : Blocking
  /-- Whether the device checks every access. -/
  bounded : Bool
deriving DecidableEq, Repr

/-- A unit of a launch: the place of its cube in the grid and its own number in the cube. -/
structure UnitPlace where
  cubeX : UInt32
  cubeY : UInt32
  unit : UInt32
deriving DecidableEq, Repr

namespace Launch

/-- The row where a unit starts. -/
def originRow (launch : Launch) (place : UnitPlace) : UInt32 :=
  let blocking := launch.blocking
  place.cubeX * blocking.tileRows + place.unit % blocking.threadRows * blocking.vectorRows

/-- The column where a unit starts. -/
def originCol (launch : Launch) (place : UnitPlace) : UInt32 :=
  let blocking := launch.blocking
  place.cubeY * blocking.tileCols + place.unit / blocking.threadRows * blocking.vectorCols

/-- The first row that a unit touches in one repetition. -/
def row (launch : Launch) (place : UnitPlace) (repetition : UInt32 × UInt32) : UInt32 :=
  launch.originRow place + repetition.1 * launch.blocking.stepRows

/-- The first column that a unit touches in one repetition. -/
def col (launch : Launch) (place : UnitPlace) (repetition : UInt32 × UInt32) : UInt32 :=
  launch.originCol place + repetition.2 * launch.blocking.stepCols

/-- The first element that a unit touches in one repetition. -/
def offset (launch : Launch) (place : UnitPlace) (repetition : UInt32 × UInt32) : UInt32 :=
  launch.row place repetition * launch.rowStride + launch.col place repetition * launch.colStride

/-- The line that a unit touches in one repetition. -/
def line (launch : Launch) (place : UnitPlace) (repetition : UInt32 × UInt32) : UInt32 :=
  launch.offset place repetition / launch.input.lineSize.toUInt32

/-- The element at which a line starts. -/
def lineStart (launch : Launch) (line : UInt32) : Nat := line.toNat * launch.input.lineSize.toNat

/-- A unit reads all its lines into registers and then writes them out. -/
def program (launch : Launch) (place : UnitPlace) : List Move :=
  let slots := launch.blocking.repetitions.map fun repetition =>
    ((launch.blocking.slot repetition).toNat, launch.lineStart (launch.line place repetition))
  (slots.map fun (slot, base) => Move.fetch slot base) ++
    slots.map fun (slot, base) => Move.put slot base

/-- Every unit of the launch, cubes column by column. -/
def places (launch : Launch) : List UnitPlace :=
  (Shape.mk launch.cubeCount.x.toNat launch.cubeCount.y.toNat).positions.flatMap fun (x, y) =>
    (List.range launch.cubeDim.x.toNat).map fun unit =>
      ⟨UInt32.ofNat x, UInt32.ofNat y, UInt32.ofNat unit⟩

/-- The program of every unit. -/
def programs (launch : Launch) : List (List Move) := launch.places.map launch.program

end Launch

end GridCopy
