/-!
# Data trees

What a text notation can say: scalars, lists, and records of named fields. Two kinds of scalars
carry no value, because nothing in the settings can be read from them.
-/

namespace GridCopy

inductive Datum
  | null
  | boolean (value : Bool)
  | integer (value : Int)
  /-- A number that is not written as an integer. -/
  | real
  | moment
  | text (value : String)
  | list (items : List Datum)
  | record (fields : List (String × Datum))
deriving Inhabited, Repr

/-- The named fields of a record. -/
abbrev Datum.Fields := List (String × Datum)

end GridCopy
