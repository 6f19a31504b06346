/-!
# Consoles

A process writes lines to the two streams of its console, one after another. The console decides
what becomes of a line: how much of it is shown, and whether the process is told that it could not
be written. A report ends at the first line that could not.
-/

namespace GridCopy

inductive Stream
  | output
  | errors
deriving DecidableEq, Repr

/-- What becomes of a line. -/
structure Receipt where
  shown : String
  /-- What the process is told: that the line has been written, or why not. -/
  outcome : Except String Unit

/-- What becomes of the n-th line of a process. -/
abbrev Console := Nat → String → Receipt

/-- A console that shows every line. -/
def Console.working : Console := fun _ line => ⟨line ++ "\n", .ok ()⟩

/-- What a console shows of the lines of a process. -/
structure Screen where
  stdout : String
  stderr : String
  /-- The number of lines, also of those that could not be written. -/
  lines : Nat
deriving DecidableEq, Repr

namespace Screen

def blank : Screen := ⟨"", "", 0⟩

/-- The screen with one more line, of which the given text is shown. -/
def showLine : Screen → Stream → String → Screen
  | ⟨stdout, stderr, lines⟩, .output, shown => ⟨stdout ++ shown, stderr, lines + 1⟩
  | ⟨stdout, stderr, lines⟩, .errors, shown => ⟨stdout, stderr ++ shown, lines + 1⟩

/-- Writes a line: whether it could be written, and the screen after it. -/
def writeLine (console : Console) (screen : Screen) (stream : Stream) (line : String) :
    Except String Unit × Screen :=
  let receipt := console screen.lines line
  (receipt.outcome, screen.showLine stream receipt.shown)

/-- Writes lines up to the first one that cannot be written. -/
def writeLines (console : Console) : List (Stream × String) → Screen → Except String Unit × Screen
  | [], screen => (.ok (), screen)
  | (stream, line) :: rest, screen =>
      match screen.writeLine console stream line with
      | (.ok (), next) => writeLines console rest next
      | (.error reason, last) => (.error reason, last)

end Screen

end GridCopy
