import GridCopy.Plan.Basic

/-!
# Settings

What a trial copies and how: the geometry of the copy, the policies to run, and how many
mismatches to report.
-/

namespace GridCopy

/-- The policies that a trial runs. -/
inductive Selection
  | striped
  | vectorized
  /-- Both, to check that they agree bit for bit. -/
  | both
deriving DecidableEq, Repr

namespace Selection

def name : Selection → String
  | .striped => "striped"
  | .vectorized => "vectorized"
  | .both => "both"

def ofName? : String → Option Selection
  | "striped" => some .striped
  | "vectorized" => some .vectorized
  | "both" => some .both
  | _ => none

end Selection

structure Settings where
  shape : Shape
  tile : Shape
  threads : Shape
  vector : Shape
  layout : MajorOrder
  policy : Selection
  errorLimit : Nat
deriving DecidableEq, Repr

namespace Settings

def standard : Settings where
  shape := ⟨256, 512⟩
  tile := ⟨128, 64⟩
  threads := ⟨32, 8⟩
  vector := ⟨4, 1⟩
  layout := .columnMajor
  policy := .vectorized
  errorLimit := 10

/-- The policies selected; of both, the striped one comes first. -/
def policies (settings : Settings) : List Policy :=
  match settings.policy with
  | .striped => [.striped]
  | .vectorized => [.vectorized settings.vector]
  | .both => [.striped, .vectorized settings.vector]

/-- The plans selected, or the failure of the first one that has none. -/
def plans (settings : Settings) : Except Failure (List Plan) :=
  settings.policies.mapM
    (Plan.make ⟨settings.shape, settings.layout⟩ settings.tile ⟨settings.threads⟩)

end Settings

end GridCopy
