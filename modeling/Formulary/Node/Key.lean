import Formulary.Node
import Std.Data.HashMap

/-! What tells nodes apart. A fraction is told by its number, however it is written; so nodes
that are the same have one key and one hash, and an index can find them. -/
namespace Formulary

/-- An operator up to the spelling of a constant: a fraction is told by its number. -/
inductive Label where
  | operator (operator : Operator)
  | number (value : Rat)

def Operator.label : Operator → Label
  | constant (.real value) => .number value.number
  | operator => .operator operator

theorem Operator.label_eq_iff {left right : Operator} :
    left.label = right.label ↔ left = right ∨ ∃ p q, left = .constant (.real p) ∧
      right = .constant (.real q) ∧ p.number = q.number := by
  unfold label
  split <;> split <;> grind

theorem Operator.same_iff {left right : Operator} :
    left.same right ↔ left.label = right.label := by
  rw [label_eq_iff]
  unfold same
  split
  · unfold Literal.same
    split
    · rename_i p q
      rw [Ratio.same_iff]
      constructor
      · intro same
        exact .inr ⟨p, q, rfl, rfl, same⟩
      · rintro (equal | ⟨_, _, first, second, same⟩)
        · cases equal
          rfl
        · cases first
          cases second
          exact same
    · rename_i different
      constructor
      · intro equal
        exact .inl (congrArg constant (of_decide_eq_true equal))
      · rintro (equal | ⟨p, q, first, second, _⟩)
        · cases equal
          exact decide_eq_true rfl
        · cases first
          cases second
          exact absurd rfl (different p q rfl)
  · rename_i different
    constructor
    · intro equal
      exact .inl (of_decide_eq_true equal)
    · rintro (equal | ⟨p, q, first, second, _⟩)
      · exact decide_eq_true equal
      · exact absurd second (different _ _ first)

theorem Operator.hash_congr {left right : Operator} (same : left.label = right.label) :
    hash left = hash right := by
  rcases label_eq_iff.mp same with rfl | ⟨p, q, rfl, rfl, numbers⟩
  · rfl
  · have fractions : hash p = hash q := congrArg (fun number : Rat => hash number) numbers
    have literals : hash (Literal.real p) = hash (Literal.real q) :=
      congrArg (fun fraction => mixHash _ fraction) fractions
    exact congrArg (fun literal => mixHash _ literal) literals

namespace Node

/-- What tells a node from others. -/
def key (node : Node) : Label × List NodeId × TermSort :=
  (node.operator.label, node.children, node.sort)

theorem same_iff {left right : Node} : left.same right ↔ left.key = right.key := by
  simp [same, key, Operator.same_iff, and_assoc]

theorem hash_congr {left right : Node} (same : left.key = right.key) : hash left = hash right := by
  obtain ⟨leftOperator, children, sort⟩ := left
  obtain ⟨rightOperator, _, _⟩ := right
  obtain ⟨labels, rfl, rfl⟩ : leftOperator.label = rightOperator.label ∧ _ ∧ _ := by
    simpa [key] using same
  have operators := Operator.hash_congr labels
  exact congrArg (fun first => mixHash (mixHash (mixHash _ first) _) _) operators

end Node

/-- A node as an index compares it. -/
structure NodeKey where
  node : Node

namespace NodeKey

instance : BEq NodeKey := ⟨fun left right => left.node.same right.node⟩

instance : Hashable NodeKey := ⟨fun key => hash key.node⟩

theorem beq_iff {left right : NodeKey} : (left == right) = true ↔ left.node.key = right.node.key :=
  Node.same_iff

instance : EquivBEq NodeKey where
  rfl := beq_iff.mpr rfl
  symm same := beq_iff.mpr (beq_iff.mp same).symm
  trans first second := beq_iff.mpr ((beq_iff.mp first).trans (beq_iff.mp second))

instance : LawfulHashable NodeKey where
  hash_eq _ _ same := Node.hash_congr (beq_iff.mp same)

end NodeKey

end Formulary
