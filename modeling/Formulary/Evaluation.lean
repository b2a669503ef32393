import Formulary.Evaluation.Operators
import Formulary.Traversal

namespace Formulary

/-- Operators without a meaning are refused before anything below them is looked at. -/
def Node.admit (node : Node) : Except Error Unit :=
  if node.operator.unsupported then .error (.unsupported node.operator) else .ok ()

def Node.typedValue (node : Node) (row : Row) (index : Nat) (arguments : List Value) :
    Except Error Value :=
  match node.sort.native with
  | .error error => .error error
  | .ok _ => node.value row index arguments

def evaluation (row : Row) (index : Nat) : Pass Unit Value where
  enter := Node.admit
  leave node arguments _ := (node.typedValue row index arguments).map fun value => (value, ())
  childMissing id _ child := .graph (.childNotEvaluated child id)
  rootMissing root := .graph (.rootNotEvaluated root)

namespace Formula

/-- The value under a row; errors name the row by its index. -/
def evaluateAt (formula : Formula) (row : Row) (index : Nat) : Except Error Value :=
  ((evaluation row index).run formula ()).map (·.1)

def evaluate (formula : Formula) (row : Row) : Except Error Value := formula.evaluateAt row 0

def evaluateFrom (formula : Formula) : Nat → List Row → Except Error (List Value)
  | _, [] => .ok []
  | index, row :: rest => do
    let value ← formula.evaluateAt row index
    let values ← formula.evaluateFrom (index + 1) rest
    return value :: values

def evaluateRows (formula : Formula) (rows : List Row) : Except Error (List Value) :=
  formula.evaluateFrom 0 rows

/-- The truth value under a row; any other value is an error. -/
def satisfies (formula : Formula) (row : Row) : Except Error Bool := do
  let value ← formula.evaluate row
  match value.bool? with
  | some truth => return truth
  | none => .error (.graph (.notBoolean formula.root value))

end Formula

end Formulary
