import GridCopy.Datum

/-!
# Tables under construction

A document defines tables by headers and by dotted keys, and each may be defined only once. A
table remembers what defined it: a header of its own, the header of a table below it, or the
dotted key of an entry below it. Only the last two leave it open to be defined further, each in
its own way.
-/

namespace GridCopy

namespace Toml

inductive Origin
  | header
  /-- Named only on the way to another table. -/
  | parent
  /-- Made by a dotted key. -/
  | dotted
deriving DecidableEq, Repr

inductive Node
  | leaf (datum : Datum)
  | table (origin : Origin) (fields : List (String × Node))
  /-- Tables of one name, the newest one first. -/
  | tables (newestFirst : List (List (String × Node)))

abbrev Fields := List (String × Node)

/-- Gives a key another node, in place if it is there. -/
def Fields.replace (key : String) (node : Node) : Fields → Fields
  | [] => [(key, node)]
  | (name, old) :: rest =>
      if name = key then (key, node) :: rest else (name, old) :: Fields.replace key node rest

mutual
/-- The finished tree. -/
def Node.datum : Node → Datum
  | .leaf datum => datum
  | .table _ fields => .record (Fields.data fields)
  | .tables newestFirst => .list (tablesData newestFirst).reverse

def Fields.data : List (String × Node) → List (String × Datum)
  | [] => []
  | (key, node) :: rest => (key, node.datum) :: Fields.data rest

def tablesData : List (List (String × Node)) → List Datum
  | [] => []
  | fields :: rest => .record (Fields.data fields) :: tablesData rest
end

/-- How a path walks through tables: by header it passes every table and makes parents, by dotted
key it passes only tables that no header defines, and makes dotted ones. -/
inductive Walk
  | byHeader
  | byKey
deriving DecidableEq, Repr

def Walk.makes : Walk → Origin
  | .byHeader => .parent
  | .byKey => .dotted

def Walk.passes : Walk → Origin → Bool
  | .byHeader, _ => true
  | .byKey, .header => false
  | .byKey, _ => true

/-- Edits the table at the end of a path, which starts in a table of the given origin. In a list
of tables the path goes on in the newest one. -/
def Fields.edit (walk : Walk) (change : Origin → Fields → Option Fields) :
    List String → Origin → Fields → Option Fields
  | [], origin, fields => change origin fields
  | key :: path, _, fields =>
      match fields.lookup key with
      | none => do
          let inner ← Fields.edit walk change path walk.makes []
          return fields ++ [(key, .table walk.makes inner)]
      | some (.leaf _) => none
      | some (.table origin inner) =>
          if walk.passes origin then do
            let inner ← Fields.edit walk change path origin inner
            return Fields.replace key (.table origin inner) fields
          else none
      | some (.tables (newest :: older)) => do
          let newest ← Fields.edit walk change path .header newest
          return Fields.replace key (.tables (newest :: older)) fields
      | some (.tables []) => none

/-- Adds an entry under a new key. -/
def Fields.add (key : String) (node : Node) (fields : Fields) : Option Fields :=
  if (fields.lookup key).isSome then none else some (fields ++ [(key, node)])

/-- Adds a value under a dotted key. A key of several parts must end in a table made by dotted
keys, and a key of one part must not. -/
def Fields.insert (path : List String) (key : String) (datum : Datum) (origin : Origin)
    (fields : Fields) : Option Fields :=
  fields.edit .byKey
    (fun reached inner =>
      if (reached == .dotted) == path.isEmpty then none else inner.add key (.leaf datum))
    path origin

/-- Opens the table that a header names, unless it is defined already. -/
def Fields.openTable (key : String) (fields : Fields) : Option Fields :=
  match fields.lookup key with
  | none => some (fields ++ [(key, .table .header [])])
  | some (.table .parent inner) => some (Fields.replace key (.table .header inner) fields)
  | some _ => none

/-- Adds a new table to the list of tables that a header names. -/
def Fields.openElement (key : String) (fields : Fields) : Option Fields :=
  match fields.lookup key with
  | none => some (fields ++ [(key, .tables [[]])])
  | some (.tables newestFirst) => some (Fields.replace key (.tables ([] :: newestFirst)) fields)
  | some _ => none

end Toml

end GridCopy
