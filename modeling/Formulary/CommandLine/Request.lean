import Formulary.CommandLine.Arguments
import Formulary.CommandLine.Usage
import Formulary.Path
import Formulary.Word

namespace Formulary.CommandLine

/-- Where the rows of a simulation come from. -/
inductive RowSource where
  | file (path : Path)
  | random (count : Nat) (seed : Option UInt64) (edgeCases : Bool)
deriving DecidableEq

structure SimulationRequest where
  formula : Path
  rows : RowSource
  workDirectory : Option Path
  compiler : Option Path
  optimization : Nat
  verify : Bool
deriving DecidableEq

inductive Request where
  | generate (formula : Path) (output : Option Path)
  | simulate (simulation : SimulationRequest)
  | evaluate (formula patterns : Path)
  | help (topic : Topic)
  | version
deriving DecidableEq

def verbose : Switch := ⟨"verbose", some 'v', .nothing⟩

def named (name : String) (parameter : Parameter) : Switch := ⟨name, none, parameter⟩

def programGrammar : Grammar := ⟨[verbose], 0, true⟩

def generateGrammar : Grammar := ⟨[⟨"output", some 'o', .path⟩, verbose], 1, false⟩

def simulateGrammar : Grammar :=
  ⟨[named "patterns" .path, named "random" (.natural Word.size),
      named "seed" (.natural Word.size),
      named "edge-cases" .nothing, named "work-dir" .path, named "compiler" .path,
      named "opt-level" .level, named "verify" .nothing, verbose], 1, false⟩

def evaluateGrammar : Grammar := ⟨[named "patterns" .path, verbose], 1, false⟩

namespace Arguments

def path? (arguments : Arguments) (name : String) : Option Path :=
  (arguments.value? name).map Path.mk

def formula (arguments : Arguments) : Option Path :=
  match arguments.values with
  | [path] => some ⟨path⟩
  | _ => none

/-- Rows come from a file or are drawn, never both. Edge cases go with drawn rows. -/
def rowSource (arguments : Arguments) : Option RowSource :=
  match arguments.path? "patterns", arguments.value? "random" with
  | some path, none => some (.file path)
  | none, some count => do
    let seed := (arguments.value? "seed").bind natural?
    return .random (← natural? count) (seed.map UInt64.ofNat) (arguments.has "edge-cases")
  | _, _ => none

def toGenerate (arguments : Arguments) : Option Request := do
  return .generate (← arguments.formula) (arguments.path? "output")

def toSimulate (arguments : Arguments) : Option Request := do
  return .simulate
    { formula := ← arguments.formula
      rows := ← arguments.rowSource
      workDirectory := arguments.path? "work-dir"
      compiler := arguments.path? "compiler"
      optimization := ((arguments.value? "opt-level").bind level?).getD 3
      verify := arguments.has "verify" }

def toEvaluate (arguments : Arguments) : Option Request := do
  return .evaluate (← arguments.formula) (← arguments.path? "patterns")

end Arguments

def command (topic : Topic) (grammar : Grammar) (request : Arguments → Option Request)
    (arguments : List String) : Option Request :=
  match grammar.read .empty arguments with
  | .ok given => request given
  | .error .help => some (.help topic)
  | .error .version => some .version
  | .error .misuse => none

def helpCommand : List String → Option Request
  | [] => some (.help .program)
  | [name] => (Topic.ofName name).map .help
  | _ => none

namespace Request

def afterSwitches (given : Arguments) : List String → Option Request
  | [] => none
  | argument :: rest =>
    if Grammar.looksLikeSwitch argument then
      match programGrammar.switch given argument with
      | .ok (.done given) => afterSwitches given rest
      | .ok (.awaiting ..) => none
      | .error .help => some (.help .program)
      | .error .version => some .version
      | .error .misuse => none
    else
      match argument with
      | "gen" => command .gen generateGrammar Arguments.toGenerate rest
      | "sim" => command .sim simulateGrammar Arguments.toSimulate rest
      | "eval" => command .eval evaluateGrammar Arguments.toEvaluate rest
      | "help" => helpCommand rest
      | _ => none

/-- The request of a command line, or none if it is not a proper one. -/
def ofArguments (arguments : List String) : Option Request := afterSwitches .empty arguments

end Request

end Formulary.CommandLine
