import GridCopy.Journal

/-!
# Copies on the host

The host runs one task per unit of the launch. A task stages its chunks in a fragment and writes
them back to the same places of the destination, so the tasks may take turns in any way.
-/

namespace GridCopy

namespace Host

/-- The unit that a task works for: units count fastest, then tile rows, then tile columns. -/
def taskOwner (grid : Shape) (units task : Nat) : Checked Owner := do
  let unit ← Size.rem task units
  let tile ← Size.div task units
  let tileRow ← Size.rem tile grid.rows
  let tileCol ← Size.div tile grid.rows
  return ⟨tileRow, tileCol, unit⟩

/-- The moves of one task, which first makes room for the elements of its share. -/
def taskProgram (plan : Plan) (grid : Shape) (units task : Nat) : Checked (List Move) := do
  let owner ← taskOwner grid units task
  let partition ← plan.share owner
  let _ ← partition.size
  return partition.program

/-- The moves of every task. -/
def programs (plan : Plan) : Checked (List (List Move)) := do
  let grid ← plan.grid
  let units ← plan.unitsPerTile
  let tiles ← grid.size
  let total ← Size.mul tiles units
  (List.range total).mapM (taskProgram plan grid units)

/-- What a copy says before its first task. -/
def announcement (plan : Plan) (grid : Shape) (units : Nat) : String :=
  s!"Running {plan.policy} tiled copy on the host: grid {grid}, {units} units per tile"

/-- Everything before the first task: both buffers must hold one element per place of the layout,
the source is looked at first, and then the width of a chunk and the tasks are known. -/
def prepare {α : Type} (plan : Plan) (source destination : Array α) :
    Recorded (Nat × List (List Move)) := do
  let expected ← plan.layout.size
  if source.size ≠ expected then
    refuse (.bufferSize expected source.size)
  else if destination.size ≠ expected then
    refuse (.bufferSize expected destination.size)
  else
    let grid ← plan.grid
    let units ← plan.unitsPerTile
    Recorded.log .debug (announcement plan grid units)
    let width ← plan.policy.width
    let programs ← programs plan
    return (width, programs)

/-- Copies `source` over `destination` while the tasks take their turns as `schedule` says. Besides
the outcome of the call it gives what the destination holds afterwards, also after a failure. -/
def copyInto {α : Type} (schedule : Schedule) (plan : Plan) (source destination : Array α) :
    Recorded Unit × Array α :=
  let prepared := prepare plan source destination
  match prepared.result with
  | .error failure => (⟨prepared.events, .error failure⟩, destination)
  | .ok (width, tasks) =>
      let (outcome, last) := Staging.runWorkers schedule width tasks source destination
      (⟨prepared.events, outcome.mapError .fault⟩, last.destination)

/-- Copies `source` over `destination` and gives the destination, if the copy succeeds. -/
def copyOver {α : Type} (schedule : Schedule) (plan : Plan) (source destination : Array α) :
    Recorded (Array α) :=
  let (call, written) := copyInto schedule plan source destination
  call.andThen fun _ => pure written

/-- Copies `source` to a fresh buffer of the same length. -/
def copyUnder {α : Type} [Inhabited α] (schedule : Schedule) (plan : Plan) (source : Array α) :
    Recorded (Array α) :=
  copyOver schedule plan source (Array.replicate source.size default)

/-- Copies `source` to a fresh buffer, one task after another. -/
def copy {α : Type} [Inhabited α] (plan : Plan) (source : Array α) : Recorded (Array α) :=
  copyUnder .oneByOne plan source

end Host

end GridCopy
