import Formulary.Error
import Formulary.Sampling.Stream
import Formulary.Text.Blank
import Formulary.Text.Utf8

namespace Formulary

/-- How a program ended. There is no exit code if a signal ended it. -/
structure Completion where
  code : Option Int
  stdout : String
  stderr : String
deriving DecidableEq

namespace Completion

def succeeded (completion : Completion) : Bool := completion.code = some 0

/-- What the program wrote, errors first, or how it ended if it wrote nothing. -/
def diagnostics (completion : Completion) : String :=
  let errors := Text.trimBlank completion.stderr
  let output := Text.trimBlank completion.stdout
  if errors.isEmpty && output.isEmpty then
    match completion.code with
    | some code => "exit status " ++ toString code
    | none => "terminated by signal"
  else if output.isEmpty then errors
  else if errors.isEmpty then output
  else errors ++ "\n" ++ output

end Completion

structure Host (m : Type → Type) where
  /-- Makes a directory and those above it, as far as they are missing. -/
  createDirectories : Path → m (Except OsFault Unit)
  /-- Makes a temporary file in a directory. -/
  makeTemporary : Path → m (Except OsFault Path)
  /-- Writes a text to a temporary file and moves that in place at once. If it cannot be moved,
  it is gone, and what is there stays. -/
  persist : Path → String → Path → m (Except OsFault Unit)
  /-- Writes over a file. -/
  write : Path → String → m (Except OsFault Unit)
  /-- The bytes of a file; the outer fault is one of opening, the inner of reading. -/
  read : Path → m (Except OsFault (Except OsFault Text.Bytes))
  isThere : Path → m Bool
  /-- Runs a program to its end. -/
  run : Path → List String → m (Except OsFault Completion)
  /-- Where scratch directories are made. -/
  scratchRoot : Path
  makeScratch : m (Except OsFault Path)
  removeScratch : Path → m Unit
  /-- A key that nobody can foresee. -/
  key : m Sampling.Key

end Formulary
