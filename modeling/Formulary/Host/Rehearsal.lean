import Formulary.Host
import Formulary.Host.Disk

namespace Formulary

/-- What a scripted program writes, and how it ends. -/
structure Performance where
  code : Int
  killed : Bool
  stdout : Text.Bytes
  stderr : Text.Bytes

namespace Performance

def quiet : Performance := ⟨0, false, [], []⟩

/-- Exit codes are bytes. -/
def completion (performance : Performance) : Completion where
  code := if performance.killed then none else some (performance.code % 256)
  stdout := performance.stdout.lossy
  stderr := performance.stderr.lossy

end Performance

/-- A compiler that may leave no program behind. -/
structure CompilerScript where
  performance : Performance
  artifact : Bool

/-- An evaluator that may leave no results behind. -/
structure EvaluatorScript where
  performance : Performance
  output : Option Text.Bytes

inductive ScriptedProgram where
  | compiler
  | evaluator (script : EvaluatorScript)

structure Rehearsal where
  disk : Disk ScriptedProgram
  compiler : CompilerScript
  evaluator : EvaluatorScript
  /-- Where the compiler notes its arguments. -/
  log : Path
  scratch : Path
  key : Sampling.Key

namespace Rehearsal

def change (rehearsal : Rehearsal) (result : Except OsFault Unit × Disk ScriptedProgram) :
    Except OsFault Unit × Rehearsal :=
  (result.1, { rehearsal with disk := result.2 })

/-- Writes over a file. -/
def write (rehearsal : Rehearsal) (path : Path) (content : Text.Bytes) :
    Except OsFault Unit × Rehearsal :=
  rehearsal.change (rehearsal.disk.change (rehearsal.disk.write path content))

def outputArgument : List String → Option String
  | "-o" :: value :: _ => some value
  | _ :: rest => outputArgument rest
  | [] => none

/-- The compiler notes its arguments and installs the evaluator of the moment. -/
def runCompiler (rehearsal : Rehearsal) (arguments : List String) : Completion × Rehearsal :=
  let noted := String.join (arguments.map fun argument => argument ++ "\n")
  let (_, logged) := rehearsal.write rehearsal.log (.ofText noted)
  let completion := rehearsal.compiler.performance.completion
  match outputArgument arguments with
  | some target =>
    if rehearsal.compiler.artifact then
      let disk := logged.disk
      let installed := disk.change (disk.install ⟨target⟩ (.evaluator rehearsal.evaluator))
      (completion, (logged.change installed).2)
    else (completion, logged)
  | none => (completion, logged)

/-- The evaluator leaves its results in the file of its second argument. -/
def runEvaluator (rehearsal : Rehearsal) (script : EvaluatorScript) (arguments : List String) :
    Completion × Rehearsal :=
  let completion := script.performance.completion
  match script.output, arguments with
  | some output, _ :: target :: _ =>
    (completion, (rehearsal.write ⟨target⟩ output).2)
  | _, _ => (completion, rehearsal)

def run (rehearsal : Rehearsal) (program : Path) (arguments : List String) :
    Except OsFault Completion × Rehearsal :=
  if (program.text :: arguments).any (·.toList.contains '\x00') then
    (.error .nulInCommand, rehearsal)
  else
    match rehearsal.disk.program program with
    | .error fault => (.error fault, rehearsal)
    | .ok .compiler =>
      let (completion, after) := rehearsal.runCompiler arguments
      (.ok completion, after)
    | .ok (.evaluator script) =>
      let (completion, after) := rehearsal.runEvaluator script arguments
      (.ok completion, after)

/-- The host of a rehearsal, on which programs behave in some way. -/
def hostOf (behavior : Path → List String → Rehearsal → Except OsFault Completion × Rehearsal) :
    Host (StateM Rehearsal) where
  createDirectories path rehearsal := rehearsal.change (rehearsal.disk.createDirectories path)
  makeTemporary directory rehearsal :=
    let path := rehearsal.disk.freshName directory
    let (made, after) := rehearsal.write path []
    (made.map fun () => path, after)
  persist temporary text path rehearsal :=
    let disk := (rehearsal.disk.change (rehearsal.disk.remove temporary)).2
    rehearsal.change (disk.change (disk.replace path (.ofText text)))
  write path text rehearsal := rehearsal.write path (.ofText text)
  read path rehearsal := (rehearsal.disk.read path, rehearsal)
  isThere path rehearsal := (rehearsal.disk.isThere path, rehearsal)
  run := behavior
  scratchRoot := ⟨"/tmp"⟩
  makeScratch rehearsal :=
    let (made, after) := rehearsal.change (rehearsal.disk.createDirectories rehearsal.scratch)
    (made.map fun () => rehearsal.scratch, after)
  removeScratch path rehearsal :=
    let disk := rehearsal.disk
    ((), (rehearsal.change (disk.change (disk.remove path))).2)
  key rehearsal := (rehearsal.key, rehearsal)

/-- Programs follow the script. -/
def host : Host (StateM Rehearsal) := hostOf fun program arguments rehearsal =>
  rehearsal.run program arguments

end Rehearsal

end Formulary
