import Formulary.Arena

namespace Formulary

namespace Arena

def sortOf (arena : Arena) (id : NodeId) : Except Error TermSort :=
  match arena.node? id with
  | some node => .ok node.sort
  | none => .error (.dangling id)

/-- Widths are half words. -/
def vectorSort (width : Nat) : Except Error TermSort :=
  if width < Word.halfSize then .ok (.bitVec width) else .error .overflow

/-- The sort of an application. Only the children whose sorts matter are looked up: the
first one for most operators, and none for a predicate. Other sorts count as vectors
of no bits where widths are added. -/
def resultSort (arena : Arena) (operator : Operator) (children : List NodeId) :
    Except Error TermSort :=
  match operator, children with
  | .constant value, _ => .ok value.sort
  | .not, _ | .and, _ | .or, _ | .implies, _ | .iff, _ | .equals, _ | .le, _ | .lt, _
  | .bvULt, _ | .bvULe, _ | .bvSLt, _ | .bvSLe, _ | .forAll _, _ | .exists _, _ => .ok .bool
  | .bvComp, _ => .ok (.bitVec 1)
  | .bvToNat, _ => .ok .int
  | .toReal, _ => .ok .real
  | .bvExtract low high, _ => vectorSort (high - low + 1)
  | .ite, _ :: chosen :: _ => arena.sortOf chosen
  | .bvZeroExtend extra, child :: _ | .bvSignExtend extra, child :: _ => do
    vectorSort ((← arena.sortOf child).width?.getD 0 + extra)
  | .bvConcat, [high, low] => do
    vectorSort ((← arena.sortOf high).width?.getD 0 + (← arena.sortOf low).width?.getD 0)
  | .select, array :: _ => do
    match ← arena.sortOf array with
    | .array _ element => return element
    | other => return other
  | _, first :: _ => arena.sortOf first
  | _, [] => .ok .bool

end Arena

/-- A request for a node. -/
inductive Construction where
  | node (operator : Operator) (children : List NodeId) (sort : TermSort)
  | typed (operator : Operator) (children : List NodeId)
  | quotient (numerator denominator : Int64)

namespace Construction

def symbol (name : String) (sort : TermSort) : Construction := node (.symbol name) [] sort

def constant (value : Literal) : Construction := typed (.constant value) []

def apply (function : String) (arguments : List NodeId) (sort : TermSort) : Construction :=
  node (.apply function) arguments sort

def atLeast (left right : NodeId) : Construction := typed .le [right, left]

def above (left right : NodeId) : Construction := typed .lt [right, left]

end Construction

namespace Arena

/-- The requested node in full, or the reason why it cannot be formed. -/
def requested (arena : Arena) : Construction → Except Error Node
  | .node operator children sort => .ok ⟨operator, children, sort⟩
  | .typed operator children => do
    return ⟨operator, children, ← arena.resultSort operator children⟩
  | .quotient numerator denominator =>
    match Literal.quotient? numerator denominator with
    | some value => .ok ⟨.constant value, [], .real⟩
    | none => .error (.noQuotient numerator denominator)

/-- Interns the requested node. A request that fails leaves the arena as it is. -/
def construct (arena : Arena) (request : Construction) : Except Error (NodeId × Arena) := do
  arena.store (← arena.requested request)

end Arena

end Formulary
