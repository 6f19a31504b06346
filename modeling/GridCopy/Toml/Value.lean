import GridCopy.Toml.Moment
import GridCopy.Toml.Number
import GridCopy.Toml.Quoted
import GridCopy.Toml.Tree

/-!
# Keys and values

Keys may have several parts joined by dots. Values are scalars, arrays, which may spread over
lines, and inline tables, which may not. Both the parts of a key and the nesting of arrays and
inline tables are limited.
-/

namespace GridCopy

namespace Toml

/-- The most parts of a key, and the deepest nesting of arrays and inline tables. -/
def depthLimit : Nat := 79

def isBareKeyChar (c : Char) : Bool := isDigit c || isLetter c || c == '-' || c == '_'

/-- One part of a key. -/
def readKeyPart : Reader String
  | '"' :: rest => readShortString ('"' :: rest)
  | '\'' :: rest => readShortString ('\'' :: rest)
  | chars =>
      let part := chars.takeWhile isBareKeyChar
      if part.isEmpty then none else some (String.ofList part, chars.dropWhile isBareKeyChar)

/-- The parts of a key with the blanks around them: those before the last one, and the last one.
The first argument bounds the number of parts. -/
def readKey : Nat → Reader (List String × String)
  | 0, _ => none
  | bound + 1, chars => do
      let (part, rest) ← readKeyPart (skipBlanks chars)
      match skipBlanks rest with
      | '.' :: rest =>
          let ((path, key), rest) ← readKey bound rest
          return ((part :: path, key), rest)
      | rest => return (([], part), rest)

/-- The elements of an array, read after its opening bracket. -/
def readElements (element : Reader Datum) : Nat → Reader (List Datum)
  | 0, _ => none
  | bound + 1, chars =>
      match skipLines false chars with
      | ']' :: rest => some ([], rest)
      | chars => do
          let (datum, rest) ← element chars
          match skipLines false rest with
          | ']' :: rest => return ([datum], rest)
          | ',' :: rest =>
              let (data, rest) ← readElements element bound rest
              return (datum :: data, rest)
          | _ => none

/-- A key and its value. -/
structure Entry where
  path : List String
  key : String
  datum : Datum

/-- A key, an equals sign and a value, with the blanks between them. -/
def readEntry (value : Reader Datum) : Reader Entry := fun chars => do
  let ((path, key), rest) ← readKey depthLimit chars
  let rest ← expect '=' rest
  let (datum, rest) ← value (skipBlanks rest)
  return (⟨path, key, datum⟩, rest)

/-- The entries of an inline table that is not empty, up to its closing brace. -/
def readEntries (value : Reader Datum) : Nat → Reader (List Entry)
  | 0, _ => none
  | bound + 1, chars => do
      let (entry, rest) ← readEntry value chars
      match skipBlanks rest with
      | '\x7d' :: rest => return ([entry], rest)
      | ',' :: rest =>
          let (entries, rest) ← readEntries value bound rest
          return (entry :: entries, rest)
      | _ => none

/-- The inline table with the given entries, unless two of them define the same key. -/
def inlineTable? (entries : List Entry) : Option Datum := do
  let fields ← entries.foldlM (fun fields entry =>
    Fields.insert entry.path entry.key entry.datum .header fields) []
  return .record (Fields.data fields)

/-- A value that is no array and no inline table. -/
def readScalar : Reader Datum := fun chars =>
  match chars with
  | '"' :: _ => (readString chars).map fun (text, rest) => (.text text, rest)
  | '\'' :: _ => (readString chars).map fun (text, rest) => (.text text, rest)
  | 't' :: 'r' :: 'u' :: 'e' :: rest => some (.boolean true, rest)
  | 'f' :: 'a' :: 'l' :: 's' :: 'e' :: rest => some (.boolean false, rest)
  | _ => (readMoment chars).orElse fun _ => readNumber chars

/-- A value with at most `depth` levels of arrays and inline tables. -/
def readValue : Nat → Reader Datum
  | 0, '[' :: _ => none
  | 0, '\x7b' :: _ => none
  | depth + 1, '[' :: rest => do
      let (data, rest) ← readElements (readValue depth) (rest.length + 1) rest
      return (.list data, rest)
  | depth + 1, '\x7b' :: rest =>
      match skipBlanks rest with
      | '\x7d' :: rest => some (.record [], rest)
      | rest => do
          let (entries, rest) ← readEntries (readValue depth) (rest.length + 1) rest
          let table ← inlineTable? entries
          return (table, rest)
  | _, chars => readScalar chars

end Toml

end GridCopy
