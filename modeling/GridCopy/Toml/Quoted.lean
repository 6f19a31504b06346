import GridCopy.Toml.Lexis

/-!
# Quoted strings

Strings in double quotes know escapes, strings in apostrophes take every character as it is.
Either kind may span lines when it stands in three quotes instead of one.
-/

namespace GridCopy

namespace Toml

/-- The character with the code written by the first `count` hexadecimal digits. -/
def readCode (count : Nat) : Reader Char := fun chars =>
  let digits := chars.take count
  if digits.length = count && digits.all isHexDigit then
    let code := numeral 16 digits
    if code.isValidChar then some (Char.ofNat code, chars.drop count) else none
  else none

/-- The character that an escape stands for, read after its backslash. -/
def readEscape : Reader Char
  | 'b' :: rest => some ('\x08', rest)
  | 't' :: rest => some ('\t', rest)
  | 'n' :: rest => some ('\n', rest)
  | 'f' :: rest => some ('\x0c', rest)
  | 'r' :: rest => some ('\r', rest)
  | '"' :: rest => some ('"', rest)
  | '\\' :: rest => some ('\\', rest)
  | 'u' :: rest => readCode 4 rest
  | 'U' :: rest => readCode 8 rest
  | _ => none

/-- A string on one line with escapes, read after its opening quote. The first argument bounds
the number of characters. -/
def readEscaped : Nat → Reader (List Char)
  | 0, _ => none
  | _ + 1, [] => none
  | _ + 1, '"' :: rest => some ([], rest)
  | bound + 1, '\\' :: rest => do
      let (c, rest) ← readEscape rest
      let (cs, rest) ← readEscaped bound rest
      return (c :: cs, rest)
  | bound + 1, c :: rest =>
      if isPlain c then do
        let (cs, rest) ← readEscaped bound rest
        return (c :: cs, rest)
      else none

/-- A string on one line without escapes, read after its opening quote. -/
def readRaw : Reader (List Char)
  | [] => none
  | '\'' :: rest => some ([], rest)
  | c :: rest =>
      if isPlain c then do
        let (cs, rest) ← readRaw rest
        return (c :: cs, rest)
      else none

/-- A string of several lines, read after its opening quotes. Three or more quotes in a row close
it, and up to two of them may belong to the string itself. With escapes, a backslash at the end of
a line skips all blanks and line ends that follow. -/
def readLong (quote : Char) (escapes : Bool) : Nat → Reader (List Char)
  | 0, _ => none
  | bound + 1, chars =>
      match newline? chars with
      | some rest => do
          let (cs, rest) ← readLong quote escapes bound rest
          return ('\n' :: cs, rest)
      | none =>
          match chars with
          | [] => none
          | c :: rest =>
              if c = quote then
                let count := (chars.takeWhile (· == quote)).length
                let after := chars.drop count
                if count < 3 then do
                  let (cs, rest) ← readLong quote escapes bound after
                  return (List.replicate count quote ++ cs, rest)
                else
                  some (List.replicate (min (count - 3) 2) quote, chars.drop (min count 5))
              else if c = '\\' && escapes then
                match newline? (skipBlanks rest) with
                | some rest => readLong quote escapes bound (skipBlankLines rest)
                | none => do
                    let (c, rest) ← readEscape rest
                    let (cs, rest) ← readLong quote escapes bound rest
                    return (c :: cs, rest)
              else if isPlain c then do
                let (cs, rest) ← readLong quote escapes bound rest
                return (c :: cs, rest)
              else none

/-- A line end straight after the opening quotes is not part of the string. -/
def skipNewline (chars : List Char) : List Char := (newline? chars).getD chars

/-- A string on one line. -/
def readShortString : Reader String
  | '"' :: rest => do
      let (cs, rest) ← readEscaped (rest.length + 1) rest
      return (String.ofList cs, rest)
  | '\'' :: rest => do
      let (cs, rest) ← readRaw rest
      return (String.ofList cs, rest)
  | _ => none

/-- A string on one line or on several. -/
def readString : Reader String
  | '"' :: '"' :: '"' :: rest => do
      let (cs, rest) ← readLong '"' true (rest.length + 1) (skipNewline rest)
      return (String.ofList cs, rest)
  | '\'' :: '\'' :: '\'' :: rest => do
      let (cs, rest) ← readLong '\'' false (rest.length + 1) (skipNewline rest)
      return (String.ofList cs, rest)
  | chars => readShortString chars

end Toml

end GridCopy
