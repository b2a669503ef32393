import Formulary.NativeType
import Formulary.Node
import Formulary.Path
import Formulary.Value

namespace Formulary

/-- Why a file could not be used or a program not be started. -/
inductive OsFault where
  | missing
  | notProgram
  | forbidden
  | busy
  | alreadyThere
  | notDirectory
  | isDirectory
  | invalid
  | nameTooLong
  | notText
  | nulInName
  | nulInCommand
  | other (message : String)
deriving DecidableEq

def OsFault.message : OsFault → String
  | missing => "No such file or directory (os error 2)"
  | notProgram => "Exec format error (os error 8)"
  | forbidden => "Permission denied (os error 13)"
  | busy => "Device or resource busy (os error 16)"
  | alreadyThere => "File exists (os error 17)"
  | notDirectory => "Not a directory (os error 20)"
  | isDirectory => "Is a directory (os error 21)"
  | invalid => "Invalid argument (os error 22)"
  | nameTooLong => "File name too long (os error 36)"
  | notText => "stream did not contain valid UTF-8"
  | nulInName => "file name contained an unexpected NUL byte"
  | nulInCommand => "nul byte found in provided data"
  | other message => message

/-- Why a sort has no machine type, or no list of its values. -/
inductive SortFault where
  | width (width : Nat)
  | unrepresented
  | notEnumerable
deriving DecidableEq

def SortFault.message : SortFault → String
  | width found =>
    "width " ++ toString found ++ " outside 1..=" ++ toString NativeType.maxWidth
  | unrepresented => "no native representation"
  | notEnumerable => "domain is not finitely enumerable"

/-- What is wrong with a formula graph. -/
inductive GraphFault where
  | forwardChild (position : Nat) (child : NodeId)
  | duplicate (position : Nat) (earlier : NodeId)
  | rootOutside (root : NodeId) (size : Nat)
  | arity (operator : Operator) (expected found : Nat)
  | noChildren (operator : Operator)
  | operandType (operator : Operator) (found : NativeType)
  | resultNotVector (operator : Operator)
  | extractBounds (operator : Operator) (low high width result : Nat)
  | concatWidths (operator : Operator) (high low result : Nat)
  | inapplicable (operator : Operator) (arguments : List Value)
  | notBoolean (root : NodeId) (value : Value)
  | childNotEvaluated (child parent : NodeId)
  | rootNotEvaluated (root : NodeId)
  | childNotLowered (operator : Operator) (child : NodeId)
  | rootNotLowered (root : NodeId)

def GraphFault.message : GraphFault → String
  | forwardChild position child =>
    "node " ++ toString position ++ " references child " ++ child.label ++
      " that does not precede it"
  | duplicate position earlier =>
    "node " ++ toString position ++ " duplicates node " ++ earlier.label
  | rootOutside root size =>
    "root " ++ root.label ++ " is outside the arena of " ++ toString size ++ " nodes"
  | arity operator expected found =>
    operator.name ++ " node expects " ++ toString expected ++ " children, found " ++
      toString found
  | noChildren operator => operator.name ++ " node has no children"
  | operandType operator found =>
    operator.name ++ " node expects a bit-vector operand, found " ++ found.name
  | resultNotVector operator => operator.name ++ " node has a non bit-vector sort"
  | extractBounds operator low high width result =>
    operator.name ++ " node bits " ++ toString low ++ "..=" ++ toString high ++
      " do not fit " ++ toString width ++ " -> " ++ toString result ++ " bits"
  | concatWidths operator high low result =>
    operator.name ++ " node joins " ++ toString high ++ " and " ++ toString low ++
      " bits into " ++ toString result
  | inapplicable operator arguments =>
    operator.name ++ " cannot be applied to " ++ Value.inspectAll arguments
  | notBoolean root value => "root " ++ root.label ++ " evaluates to non-boolean " ++ value.cell
  | childNotEvaluated child parent =>
    "child " ++ child.label ++ " of " ++ parent.label ++ " was not evaluated"
  | rootNotEvaluated root => "root " ++ root.label ++ " was not evaluated"
  | childNotLowered operator child =>
    operator.name ++ " node child " ++ child.label ++ " was not lowered"
  | rootNotLowered root => "root " ++ root.label ++ " was not lowered"

/-- Why a row has no value that a column can take. -/
inductive CellFault where
  | unbound
  | sort (expected found : TermSort)
  | unresolved (sort : TermSort) (fault : SortFault)
  | type (expected found : NativeType)
deriving DecidableEq

/-- Why no program came out of a compilation. -/
inductive CompileFault where
  | noSource
  | notStarted (compiler : Path) (fault : OsFault)
  | failed (diagnostics : String)
  | noArtifact (compiler program : Path)
deriving DecidableEq

def CompileFault.message : CompileFault → String
  | noSource => "no evaluator source has been generated"
  | notStarted compiler fault => "cannot run " ++ compiler.text ++ ": " ++ fault.message
  | failed diagnostics => diagnostics
  | noArtifact compiler program =>
    compiler.text ++ " succeeded but " ++ program.text ++ " was not produced"

/-- Why a batch of rows has no results. -/
inductive RunFault where
  | notCompiled
  | patternsNotWritten (path : Path) (fault : OsFault)
  | notOpened (path : Path) (fault : OsFault)
  | notRead (path : Path) (fault : OsFault)
  | programMissing (program : Path)
  | notStarted (program : Path) (fault : OsFault)
  | failed (diagnostics : String)
  | rowCount (expected found : Nat)
deriving DecidableEq

def RunFault.message : RunFault → String
  | notCompiled => "evaluator has not been compiled"
  | patternsNotWritten path fault =>
    "cannot write patterns to " ++ path.text ++ ": " ++ fault.message
  | notOpened path fault => "cannot open " ++ path.text ++ ": " ++ fault.message
  | notRead path fault => "cannot read " ++ path.text ++ ": " ++ fault.message
  | programMissing program => "evaluator " ++ program.text ++ " does not exist"
  | notStarted program fault => "cannot run " ++ program.text ++ ": " ++ fault.message
  | failed diagnostics => diagnostics
  | rowCount expected found =>
    "malformed output: expected " ++ toString expected ++ " rows, found " ++ toString found

inductive Error where
  | sort (sort : TermSort) (fault : SortFault)
  | unsupported (operator : Operator)
  | nameClash (first second identifier : String)
  | typeClash (name : String) (first second : NativeType) (identifier : String)
  | cell (row : Nat) (name : String) (fault : CellFault)
  | graph (fault : GraphFault)
  | undecided (iterations : Nat)
  | solver (message : String)
  | compilation (fault : CompileFault)
  | execution (fault : RunFault)
  | file (path : Path) (fault : OsFault)
  | undecodable
  | dangling (position : Nat)
  | noQuotient (numerator denominator : Int64)
  | overflow

def sortMessage (sort : TermSort) (fault : SortFault) : String :=
  "cannot resolve a native type for sort " ++ sort.text ++ ": " ++ fault.message

def CellFault.message : CellFault → String
  | unbound => "no value bound"
  | sort expected found => "expected " ++ expected.text ++ ", found " ++ found.text
  | unresolved s fault => sortMessage s fault
  | type expected found => "expected " ++ expected.name ++ ", found " ++ found.name

def clashMessage (first second identifier : String) : String :=
  "symbols '" ++ first ++ "' and '" ++ second ++ "' both map to identifier '" ++ identifier ++ "'"

def Error.message : Error → String
  | sort s fault => sortMessage s fault
  | unsupported operator => "operator not supported: " ++ operator.name
  | nameClash first second identifier => clashMessage first second identifier
  | typeClash name first second identifier =>
    clashMessage (name ++ ": " ++ first.name) (name ++ ": " ++ second.name) identifier
  | cell row name fault =>
    "pattern row " ++ toString row ++ " has no usable value for argument '" ++ name ++ "': " ++
      fault.message
  | graph fault => "malformed formula graph: " ++ fault.message
  | undecided iterations => "no result after " ++ toString iterations ++ " iterations"
  | solver message => "solver returned unknown: " ++ message
  | compilation fault => "compilation failed: " ++ fault.message
  | execution fault => "execution failed: " ++ fault.message
  | file path fault => "I/O error on " ++ path.text ++ ": " ++ fault.message
  | undecodable => "the text is not JSON of the expected form"
  | dangling position => "no node n" ++ toString position
  | noQuotient numerator denominator =>
    "no fraction " ++ toString numerator.toInt ++ "/" ++ toString denominator.toInt
  | overflow => "a machine word overflowed"

/-- Whether the cause is a request without a meaning, rather than something that the
input can be told to be wrong about. Nothing goes on after such an error. -/
def Error.isFatal : Error → Bool
  | dangling _ | noQuotient .. | overflow => true
  | _ => false

/-- The machine type of a sort: scalars have one, bit-vectors up to a word. -/
def TermSort.native : TermSort → Except Error NativeType
  | bool => .ok .bool
  | int => .ok .int
  | real => .ok .real
  | bitVec width =>
    if 1 ≤ width ∧ width ≤ NativeType.maxWidth then .ok (.bitVec width)
    else .error (.sort (.bitVec width) (.width width))
  | other => .error (.sort other .unrepresented)

end Formulary
