import Formulary.Operator

namespace Formulary

/-- The position of a node among all nodes, as half a word. -/
abbrev NodeId := Fin 0x100000000

namespace NodeId

/-- The low half word of a position. -/
def ofPosition (position : Nat) : NodeId :=
  ⟨position % 0x100000000, Nat.mod_lt position (by decide)⟩

instance (position : Nat) : OfNat NodeId position := ⟨ofPosition position⟩

theorem val_ofPosition (position : Nat) : (ofPosition position).val = position % 0x100000000 := rfl

theorem ofPosition_val (id : NodeId) : ofPosition id = id :=
  Fin.ext (Nat.mod_eq_of_lt id.isLt)

/-- How diagnostics name a node. -/
def label (id : NodeId) : String := "n" ++ toString id.val

@[elab_as_elim]
theorem strongRecOn {motive : NodeId → Prop} (id : NodeId)
    (ind : ∀ id, (∀ child, child < id → motive child) → motive id) : motive id :=
  ind id fun child _ => strongRecOn child ind
termination_by id.val

end NodeId

structure Node where
  operator : Operator
  children : List NodeId
  sort : TermSort
deriving DecidableEq, Hashable

namespace Node

/-- Nodes are the same when they are equal up to the spelling of a constant. -/
def same (left right : Node) : Bool :=
  left.operator.same right.operator && left.children = right.children && left.sort = right.sort

/-- Whether an arena can hold a node. Constants are told apart by their continued
fractions, whose terms must be words. -/
def isStorable (node : Node) : Bool :=
  match node.operator with
  | .constant (.real value) => value.isExpandable
  | _ => true

def symbol? (node : Node) : Option (String × TermSort) :=
  match node.operator with
  | .symbol name => some (name, node.sort)
  | _ => none

end Node

end Formulary
