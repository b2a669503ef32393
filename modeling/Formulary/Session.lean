import Formulary.Code.Program
import Formulary.Host
import Formulary.Pattern
import Formulary.Session.Config

/-! Sessions: a formula becomes a program, the program is compiled, and batches of rows
run through it. A step that fails leaves the session as it was, but for a scratch
directory that it may have made. -/
namespace Formulary

structure SessionStatistics where
  compilations : Nat
  simulations : Nat
  rows : Nat
deriving DecidableEq

structure Session where
  config : SessionConfig
  scratch : Option Path
  columns : Columns
  source : Option Path
  program : Option Path
  batch : Batch
  statistics : SessionStatistics
deriving DecidableEq

/-- Steps of a session. The session is there also after a step that failed. -/
abbrev SessionM (m : Type → Type) := ExceptT Error (StateT Session m)

namespace Session

def new (config : SessionConfig) : Session :=
  ⟨config, none, .empty, none, none, .empty, ⟨0, 0, 0⟩⟩

/-- The directory of the session's files, once there is one. -/
def workDirectory? (session : Session) : Option Path :=
  session.config.workDirectory <|> session.scratch

/-- After a generation to a file, an earlier program and the rows that wait for it are gone. -/
def generated (session : Session) (columns : Columns) (path : Path) : Session :=
  { session with columns, source := some path, program := none, batch := .empty }

def compiled (session : Session) (directory : Path) : Session :=
  { session with
    program := some (session.config.programPath directory)
    statistics :=
      { session.statistics with compilations := session.statistics.compilations + 1 } }

/-- After a simulation that has produced results. -/
def counted (session : Session) (produced : Nat) : Session :=
  { session with
    statistics :=
      { session.statistics with
        simulations := session.statistics.simulations + 1
        rows := session.statistics.rows + produced } }

/-- What a boolean evaluator writes for a row that satisfies the formula. -/
def truthy : String := "1"

def linesOf (path : Path) (content : Text.Bytes) : Except Error (List String) :=
  content.lines.mapM fun line =>
    match line.text? with
    | some text => .ok text
    | none => .error (.execution (.notRead path .notText))

/-- Whether all lines are truthy; lines after one that is not do not matter. -/
def allTruthy (path : Path) : List Text.Bytes → Except Error Bool
  | [] => .ok true
  | line :: rest =>
    match line.text? with
    | none => .error (.execution (.notRead path .notText))
    | some text => if text = truthy then allTruthy path rest else .ok false

section Steps

variable {m : Type → Type} [Monad m] (host : Host m)

/-- Turns a fault into the error it is the cause of. -/
def orFail {α : Type} (cause : OsFault → Error) (action : m (Except OsFault α)) :
    SessionM m α := do
  match ← action with
  | .ok value => return value
  | .error fault => throw (cause fault)

def workDirectory : SessionM m Path := do
  match (← get).workDirectory? with
  | some directory => return directory
  | none =>
    let directory ← orFail (.file host.scratchRoot) host.makeScratch
    modify fun session => { session with scratch := some directory }
    return directory

/-- Puts a text in place of a file, in a directory that is made if need be. -/
def store (path : Path) (text : String) : SessionM m Unit := do
  let directory : Path := match path.parent? with
    | some parent => if parent.text.isEmpty then ⟨"."⟩ else parent
    | none => ⟨"."⟩
  orFail (.file directory) (host.createDirectories directory)
  let temporary ← orFail (.file directory) (host.makeTemporary directory)
  orFail (.file path) (host.persist temporary text path)

/-- Writes the program of a formula to a file. -/
def generateTo (formula : Formula) (path : Path) : SessionM m Columns := do
  let program ← formula.program
  store host path program.source
  modify fun session => session.generated program.columns path
  return program.columns

/-- Writes the program of a formula to the configured file. -/
def generate (formula : Formula) : SessionM m Columns := do
  let directory ← workDirectory host
  generateTo host formula ((← get).config.sourcePath directory)

def compile : SessionM m Unit := do
  match (← get).source with
  | none => throw (.compilation .noSource)
  | some source =>
    let directory ← workDirectory host
    let config := (← get).config
    let program := config.programPath directory
    let completion ← orFail (fun fault => .compilation (.notStarted config.compiler fault))
      (host.run config.compiler (config.compileArguments source program))
    unless completion.succeeded do throw (.compilation (.failed completion.diagnostics))
    unless ← host.isThere program do
      throw (.compilation (.noArtifact config.compiler program))
    modify fun session => session.compiled directory

/-- Adds rows to those that wait, all of them or none. -/
def addRows (rows : List Row) : SessionM m Unit := do
  let session ← get
  let cells ← encodeRows session.columns session.batch.size rows
  set { session with batch := session.batch.append cells }

def clearRows : SessionM m Unit := modify fun session => { session with batch := .empty }

/-- Runs a compiled evaluator. -/
def execute (program input output : Path) : SessionM m Unit := do
  unless ← host.isThere program do throw (.execution (.programMissing program))
  let completion ← orFail (fun fault => .execution (.notStarted program fault))
    (host.run program [input.text, output.text])
  unless completion.succeeded do throw (.execution (.failed completion.diagnostics))

def readFile (path : Path) : SessionM m Text.Bytes := do
  let reading ← orFail (fun fault => .execution (.notOpened path fault)) (host.read path)
  match reading with
  | .ok content => return content
  | .error fault => throw (.execution (.notRead path fault))

/-- The lines of a result file. -/
def readResults (path : Path) : SessionM m (List String) := do
  linesOf path (← readFile host path)

/-- Whether a result file says that all rows satisfy the formula. -/
def checkAllSatisfied (path : Path) : SessionM m Bool := do
  allTruthy path (← readFile host path).lines

/-- Writes a batch to one file, and has the evaluator leave its results in another. Without
rows the evaluator does not run. -/
def feed (program input output : Path) (batch : Batch) : SessionM m Unit := do
  orFail (fun fault => .execution (.patternsNotWritten input fault)) (host.write input batch.text)
  if batch.size = 0 then
    orFail (fun fault => .execution (.notOpened output fault)) (host.write output "")
  else execute host program input output

/-- Counts the results, one for each of the rows. -/
def tally (output : Path) (rows : Nat) : SessionM m Unit := do
  let produced := (← readResults host output).length
  unless produced = rows do throw (.execution (.rowCount rows produced))
  modify fun session => session.counted produced

/-- Runs the waiting rows from one file to another. -/
def simulate (input output : Path) : SessionM m Unit := do
  let session ← get
  match session.program with
  | none => throw (.execution .notCompiled)
  | some program =>
    feed host program input output session.batch
    tally host output session.batch.size

/-- Runs the waiting rows through the configured files. -/
def runPending : SessionM m Path := do
  let directory ← workDirectory host
  let config := (← get).config
  let output := config.resultPath directory
  simulate host (config.patternPath directory) output
  return output

/-- Whether all rows satisfy the compiled formula; rows that waited are dropped. -/
def allSatisfied (rows : List Row) : SessionM m Bool := do
  clearRows
  addRows rows
  let output ← runPending host
  checkAllSatisfied host output

end Steps

end Session

end Formulary
