import GridCopy.Toml.Value

/-!
# Documents

A document is a sequence of lines: entries, headers that open a table, headers that add a table to
a list of tables, comments and blank lines. Its meaning is the tree of its top-level fields.

`Toml.read?` and the readers it is made of stand for the parser of the library `toml` 0.8, which reads
version 1.0 of the notation: they accept the same texts and give the same trees, up to what settings
cannot tell apart. Where the library gives a reason, they only say that there is no tree. What is
proved about settings in trees does not depend on them.
-/

namespace GridCopy

namespace Toml

/-- A document as far as it has been read. -/
structure Draft where
  root : Fields
  /-- The path of the table that entries go to. -/
  current : List String

namespace Draft

def empty : Draft := ⟨[], []⟩

/-- Adds an entry to the current table. -/
def addEntry (draft : Draft) (entry : Entry) : Option Draft := do
  let root ← draft.root.edit .byHeader
    (fun _ fields => fields.insert entry.path entry.key entry.datum .header) draft.current .header
  return { draft with root }

/-- Opens the table at a path, with `change` deciding what becomes of its last part. -/
def openAt (draft : Draft) (path : List String) (key : String)
    (change : String → Fields → Option Fields) : Option Draft := do
  let root ← draft.root.edit .byHeader (fun _ fields => change key fields) path .header
  return ⟨root, path ++ [key]⟩

end Draft

/-- One line of a document that starts with the given characters; nothing before it is blank. -/
def readLine (draft : Draft) : Reader Draft
  | '#' :: comment => (lineEnd? (comment.dropWhile isPlain)).map fun rest => (draft, rest)
  | '[' :: '[' :: rest => do
      let ((path, key), rest) ← readKey depthLimit rest
      let rest ← expect ']' rest
      let rest ← expect ']' rest
      let rest ← lineRest? rest
      let draft ← draft.openAt path key Fields.openElement
      return (draft, rest)
  | '[' :: rest => do
      let ((path, key), rest) ← readKey depthLimit rest
      let rest ← expect ']' rest
      let rest ← lineRest? rest
      let draft ← draft.openAt path key Fields.openTable
      return (draft, rest)
  | chars =>
      match newline? chars with
      | some rest => some (draft, rest)
      | none => do
          let (entry, rest) ← readEntry (readValue depthLimit) chars
          let rest ← lineRest? rest
          let draft ← draft.addEntry entry
          return (draft, rest)

/-- All lines of a document. The first argument bounds their number. -/
def readLines : Nat → Draft → List Char → Option Draft
  | 0, _, _ => none
  | bound + 1, draft, chars =>
      match skipBlanks chars with
      | [] => some draft
      | chars => do
          let (draft, rest) ← readLine draft chars
          readLines bound draft rest

/-- A byte order mark at the start of a document is skipped. -/
def skipMark : List Char → List Char
  | '\ufeff' :: rest => rest
  | chars => chars

/-- The top-level fields of a document, if it is well formed. -/
def read? (text : String) : Option Datum.Fields := do
  let chars := skipMark text.toList
  let draft ← readLines (chars.length + 1) .empty chars
  return Fields.data draft.root

example : (read? "a.b = 1\n[a.c]\n[[d]]\n[[d]]").isSome = true := by decide +kernel
example : (read? "[a.b]\n[a]").isSome = true := by decide +kernel
example : (read? "[a]\n[a]").isNone = true := by decide +kernel
example : (read? "a = 1\na.b = 2").isNone = true := by decide +kernel

end Toml

end GridCopy
