import Formulary.CommandLine.Execution

namespace Formulary.Machine

def osFault : IO.Error → OsFault
  | .noFileOrDirectory .. => .missing
  | .permissionDenied .. => .forbidden
  | .resourceBusy .. => .busy
  | .alreadyExists .. => .alreadyThere
  | .inappropriateType _ 20 _ => .notDirectory
  | .inappropriateType _ 21 _ => .isDirectory
  | error => .other (toString error)

def attempt {α : Type} (action : IO α) : IO (Except OsFault α) := do
  try return .ok (← action) catch error => return .error (osFault error)

def makeTemporary (directory : Path) : IO (Except OsFault Path) := attempt do
  let path := directory.join ⟨".tmp" ++ toString (← IO.monoNanosNow)⟩
  IO.FS.writeFile path.text ""
  return path

def persist (temporary : Path) (text : String) (path : Path) : IO (Except OsFault Unit) := do
  let moved ← attempt do
    IO.FS.writeFile temporary.text text
    IO.FS.rename temporary.text path.text
  if moved matches .error _ then discard (attempt (IO.FS.removeFile temporary.text))
  return moved

/-- A word from its bytes, the most significant first. -/
def word (bytes : List UInt8) : UInt32 :=
  bytes.foldl (fun number byte => 256 * number + byte.toUInt32) 0

/-- Four words from sixteen bytes. -/
def lanes (bytes : List UInt8) : Sampling.Lanes :=
  ⟨word (bytes.take 4), word ((bytes.drop 4).take 4), word ((bytes.drop 8).take 4),
    word ((bytes.drop 12).take 4)⟩

def read (path : Path) : IO (Except OsFault (Except OsFault Text.Bytes)) := do
  match ← attempt (IO.FS.Handle.mk path.text .read) with
  | .error fault => return .error fault
  | .ok handle => return .ok ((← attempt handle.readBinToEnd).map ByteArray.toList)

/-- The files of the machine. Programs are not started from here. -/
def host : Host IO where
  createDirectories path := attempt (IO.FS.createDirAll path.text)
  makeTemporary := makeTemporary
  persist := persist
  write path text := attempt (IO.FS.writeFile path.text text)
  read := read
  isThere path := do return (← read path) matches .ok _
  run _ _ := return .error (.other "programs cannot be started from here")
  scratchRoot := ⟨"/tmp"⟩
  makeScratch := attempt do return ⟨(← IO.FS.createTempDir).toString⟩
  removeScratch path := discard (attempt (IO.FS.removeDirAll path.text))
  key := do
    let bytes := (← IO.getRandomBytes 32).toList
    return ⟨lanes (bytes.take 16), lanes (bytes.drop 16)⟩

end Formulary.Machine

open Formulary CommandLine in
def main (arguments : List String) : IO UInt32 := do
  match Request.ofArguments arguments with
  | none =>
    IO.eprintln ("error: invalid arguments\n\n" ++ Topic.program.usage)
    return 2
  | some request =>
    let report ← request.perform Machine.host
    IO.print report.output
    report.errorLines.forM IO.eprintln
    return report.exitCode
