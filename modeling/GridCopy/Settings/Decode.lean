import GridCopy.Settings.Basic
import GridCopy.Toml.Document

/-!
# Settings from data trees

Each setting is read from the field of its own name; a missing field leaves the setting as it
was, and other fields are ignored. Notations differ in the largest integer, in how long a shape
written as a list may be, and in what stands for the empty payload of a name.

`Dialect.document` stands for what the library `toml` 0.8 makes of the trees of its documents when
settings are deserialized from them with `serde`, and `Dialect.message` for the same with JSON. The
words in which the library refuses a text are not modelled: they are a parameter.
-/

namespace GridCopy

/-- What a notation accepts in settings. -/
structure Dialect where
  largestInteger : Nat
  /-- Whether a shape written as a list may have more than two elements. -/
  longShapes : Bool
  /-- Whether a datum may follow a name that is written as a record of one field. -/
  isEmptyPayload : Datum → Bool

namespace Dialect

/-- A document: integers have a sign bit, and of a longer list the first two elements count. -/
def document : Dialect where
  largestInteger := UInt64.size / 2 - 1
  longShapes := true
  isEmptyPayload
    | .record [] => true
    | .list [] => true
    | _ => false

/-- A message between programs: all sizes can be written, and a shape has exactly two elements. -/
def message : Dialect where
  largestInteger := UInt64.size - 1
  longShapes := false
  isEmptyPayload
    | .null => true
    | _ => false

def size? (dialect : Dialect) : Datum → Option Nat
  | .integer (.ofNat n) => if n ≤ dialect.largestInteger then some n else none
  | _ => none

/-- A shape is a record of its extents, or a list that starts with them. -/
def shape? (dialect : Dialect) : Datum → Option Shape
  | .record fields => do
      let rows ← dialect.size? (← fields.lookup "rows")
      let cols ← dialect.size? (← fields.lookup "cols")
      return ⟨rows, cols⟩
  | .list (first :: second :: rest) =>
      if rest.isEmpty || dialect.longShapes then do
        let rows ← dialect.size? first
        let cols ← dialect.size? second
        return ⟨rows, cols⟩
      else none
  | _ => none

/-- A name is a text, or the only field of a record with an empty payload. -/
def named? {α : Type} (dialect : Dialect) (ofName? : String → Option α) : Datum → Option α
  | .text name => ofName? name
  | .record [(name, payload)] => if dialect.isEmptyPayload payload then ofName? name else none
  | _ => none

/-- The setting in the field of the given name, or the old one if there is no such field. -/
def field? {α : Type} (fields : Datum.Fields) (name : String) (old : α)
    (decode : Datum → Option α) : Option α :=
  match fields.lookup name with
  | none => some old
  | some datum => decode datum

end Dialect

namespace Settings

/-- Replaces the settings that the fields name, unless one of them is malformed. -/
def updateFrom? (dialect : Dialect) (old : Settings) (fields : Datum.Fields) :
    Option Settings := do
  let shape ← Dialect.field? fields "shape" old.shape dialect.shape?
  let tile ← Dialect.field? fields "tile" old.tile dialect.shape?
  let threads ← Dialect.field? fields "threads" old.threads dialect.shape?
  let vector ← Dialect.field? fields "vector" old.vector dialect.shape?
  let layout ← Dialect.field? fields "layout" old.layout (dialect.named? MajorOrder.ofName?)
  let policy ← Dialect.field? fields "policy" old.policy (dialect.named? Selection.ofName?)
  let errorLimit ← Dialect.field? fields "error_limit" old.errorLimit dialect.size?
  return { shape, tile, threads, vector, layout, policy, errorLimit }

/-- The settings written in a TOML text; what it leaves out is standard. There are none if the text is
no document, or a setting has a malformed value. -/
def ofDocument? (text : String) : Option Settings := do
  updateFrom? .document standard (← Toml.read? text)

/-- The settings written in a TOML text, which is refused as `explain` says if it holds none. -/
def ofToml (explain : String → String) (text : String) : Except CopyError Settings :=
  match ofDocument? text with
  | none => .error (.config (explain text))
  | some settings => .ok settings

example : (ofDocument? "shape = [4, 2, 'x']").map (·.shape) = some ⟨4, 2⟩ := by decide +kernel
example : (ofDocument? "[layout.row]").map (·.layout) = some .rowMajor := by decide +kernel
example : ofDocument? "error_limit = -1" = none := by decide +kernel

end Settings

end GridCopy
