import Formulary.Evaluation
import Formulary.Proofs.Traversal

namespace Formulary

/-- The value of one node under a row; errors name the row by its index. -/
def Arena.valueAt (arena : Arena) (ordered : arena.Ordered) (row : Row) (index : Nat) :
    NodeId → Except Error Value :=
  (evaluation row index).descend ordered

variable {arena : Arena} {ordered : arena.Ordered} {row : Row} {index : Nat}

/-- A node is refused for its operator first, then for the first child that has no value,
then for its sort, and last for the operator's own reasons. -/
theorem Arena.valueAt_found {id : NodeId} {node : Node} (found : arena.node? id = some node) :
    arena.valueAt ordered row index id = (do
      node.admit
      let arguments ← node.children.mapM (arena.valueAt ordered row index)
      node.typedValue row index arguments) := by
  have recursion : arena.valueAt ordered row index id = _ := Pass.descend_found found
  rw [recursion]
  change (do
    node.admit
    let arguments ← node.children.mapM (arena.valueAt ordered row index)
    let (value, _) ← (node.typedValue row index arguments).map fun value => (value, ())
    return value) = _
  cases node.admit with
  | error error => rfl
  | ok entrance =>
    cases node.children.mapM (arena.valueAt ordered row index) with
    | error error => rfl
    | ok arguments =>
      dsimp only [bind, Except.bind]
      cases node.typedValue row index arguments <;> rfl

theorem Node.enters {node : Node} (supported : node.operator.unsupported = false) :
    node.admit = .ok () := by
  unfold Node.admit
  rw [supported]
  rfl

theorem Formula.evaluateAt_eq (formula : Formula) (row : Row) (index : Nat) :
    formula.evaluateAt row index =
      formula.arena.valueAt formula.ordered row index formula.root := by
  rw [evaluateAt, Pass.run_eq_descend, Arena.valueAt]
  cases (evaluation row index).descend formula.ordered formula.root <;> rfl

end Formulary
