import Formulary.CommandLine.Request
import Formulary.Format.Formula
import Formulary.Sampling.Edge
import Formulary.Sampling.Random
import Formulary.Session

namespace Formulary.CommandLine

/-- Why a request failed. -/
inductive Failure where
  | error (error : Error)
  | disagreement (count rows first : Nat)

def Failure.message : Failure → String
  | error cause => cause.message
  | disagreement count rows first =>
    toString count ++ " of " ++ toString rows ++
      " rows disagree with the reference evaluator (first: row " ++ toString first ++ ")"

def Failure.exitCode : Failure → UInt32
  | error cause => if cause.isFatal then 101 else 1
  | disagreement .. => 1

/-- Everything a request leaves: its output, notes beside it, and its failure if any. -/
structure Report where
  output : String
  notes : List String
  failure : Option Failure

def Report.errorLines (report : Report) : List String :=
  report.notes ++ (report.failure.map fun failure => "Error: " ++ failure.message).toList

def Report.exitCode (report : Report) : UInt32 :=
  match report.failure with
  | none => 0
  | some failure => failure.exitCode

/-- A request under way. -/
structure Work where
  session : Session
  output : String
  notes : List String

abbrev WorkM (m : Type → Type) := ExceptT Failure (StateT Work m)

section Steps

variable {m : Type → Type} [Monad m] (host : Host m)

def print (text : String) : WorkM m Unit :=
  modify fun work => { work with output := work.output ++ text }

def printLine (line : String) : WorkM m Unit := print (line ++ "\n")

def note (line : String) : WorkM m Unit :=
  modify fun work => { work with notes := work.notes ++ [line] }

def settle {α : Type} : Except Error α → WorkM m α
  | .ok value => return value
  | .error error => throw (.error error)

def step {α : Type} (action : SessionM m α) : WorkM m α := do
  let work ← get
  let (result, session) ← (action.run.run work.session : m _)
  set { work with session }
  settle result

/-- The text of an input file. -/
def readText (path : Path) : WorkM m String := do
  match ← host.read path with
  | .error fault | .ok (.error fault) => throw (.error (.file path fault))
  | .ok (.ok content) =>
    match content.text? with
    | some text => return text
    | none => throw (.error (.file path .notText))

def loadFormula (path : Path) : WorkM m Formula := do
  settle (Format.formulaText (← readText host path))

def loadRows (path : Path) : WorkM m (List Row) := do
  settle (Format.decodeText Format.rows (← readText host path))

def columnLines (columns : Columns) : List String :=
  columns.list.mapIdx fun index column =>
    "column " ++ toString index ++ ": " ++ column.name ++ " -> " ++ column.identifier ++
      " (" ++ column.type.name ++ ")"

def rowLines (cells : List String) : List String :=
  cells.mapIdx fun index cell => "row " ++ toString index ++ ": " ++ cell

def verdictLine (satisfied : Bool) : String :=
  "All satisfied: " ++ if satisfied then "true" else "false"

def verifiedLine (count : Nat) : String :=
  "Verified " ++ toString count ++ " rows against the reference evaluator"

def generate (formula : Path) (output : Option Path) : WorkM m Unit := do
  let formula ← loadFormula host formula
  match output with
  | some path =>
    let columns ← step (Session.generateTo host formula path)
    (columnLines columns).forM printLine
    printLine ("Wrote " ++ path.text)
  | none =>
    let program ← settle formula.program
    (columnLines program.columns).forM note
    print program.source

/-- The rows of a simulation. Edge cases follow the drawn rows. -/
def rowsOf (source : RowSource) (columns : Columns) : WorkM m (List Row) := do
  match source with
  | .file path => loadRows host path
  | .random count seed edgeCases =>
    let key ← match seed with
      | some seed => pure (.ofSeed seed)
      | none => host.key
    let drawn := Sampling.randomRows { Sampling.RandomConfig.default with count } columns.list key
    return if edgeCases then drawn ++ Sampling.edgeRows columns.list else drawn

/-- The rows at which results differ from the cells expected. -/
def disagreements (expected results : List String) : List Nat :=
  ((expected.zip results).mapIdx fun index pair => (index, pair)).filterMap
    fun (index, pair) => if pair.1 = pair.2 then none else some index

/-- Compares the results with those of evaluation. -/
def verifyRows (formula : Formula) (rows : List Row) (results : List String) :
    WorkM m Unit := do
  let expected ← settle (formula.evaluateRows rows)
  match disagreements (expected.map Value.cell) results with
  | [] => printLine (verifiedLine rows.length)
  | first :: rest => throw (.disagreement (rest.length + 1) rows.length first)

/-- Compiles the program of a formula, and finds the rows to run through it. -/
def prepare (request : SimulationRequest) : WorkM m (Formula × List Row) := do
  let formula ← loadFormula host request.formula
  let columns ← step (Session.generate host formula)
  let rows ← rowsOf host request.rows columns
  step (Session.compile host)
  return (formula, rows)

/-- Runs rows through the compiled program. -/
def runRows (rows : List Row) : WorkM m Path := do
  step (Session.addRows rows)
  step (Session.runPending host)

/-- Prints the results of rows, and a verdict on them. Between the two comes a comparison with
evaluation, if it is asked for. -/
def conclude (verify : Bool) (formula : Formula) (rows : List Row) (output : Path) :
    WorkM m Unit := do
  let results ← step (Session.readResults host output)
  (rowLines results).forM printLine
  if verify then verifyRows formula rows results
  let satisfied ← step (Session.checkAllSatisfied host output)
  printLine (verdictLine satisfied)

def simulate (request : SimulationRequest) : WorkM m Unit := do
  let (formula, rows) ← prepare host request
  let output ← runRows host rows
  conclude host request.verify formula rows output

def evaluate (formula patterns : Path) : WorkM m Unit := do
  let formula ← loadFormula host formula
  let rows ← loadRows host patterns
  let values ← settle (formula.evaluateRows rows)
  (rowLines (values.map Value.cell)).forM printLine
  printLine (verdictLine (values.all fun value => value.bool? = some true))

end Steps

def Request.config : Request → SessionConfig
  | .simulate request =>
    { SessionConfig.default with
      workDirectory := request.workDirectory
      compiler := request.compiler.getD SessionConfig.default.compiler
      optimization := request.optimization }
  | _ => .default

def Request.steps {m : Type → Type} [Monad m] (host : Host m) : Request → WorkM m Unit
  | .generate formula output => CommandLine.generate host formula output
  | .simulate request => CommandLine.simulate host request
  | .evaluate formula patterns => CommandLine.evaluate host formula patterns
  | .help topic => print topic.text
  | .version => print versionText

/-- Carries out a request. A scratch directory does not outlive it. -/
def Request.perform {m : Type → Type} [Monad m] (host : Host m) (request : Request) :
    m Report := do
  let (result, work) ← (request.steps host).run.run ⟨.new request.config, "", []⟩
  match work.session.scratch with
  | some directory => host.removeScratch directory
  | none => pure ()
  let failure := match result with
    | .ok () => none
    | .error failure => some failure
  return ⟨work.output, work.notes, failure⟩

end Formulary.CommandLine
