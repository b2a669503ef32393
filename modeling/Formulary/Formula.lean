import Formulary.Arena

/-! Formulas: an arena in which children stand before their parents, with a root. A
stored formula is accepted exactly when it has that form, no node twice, and only nodes
that an arena can hold. -/
namespace Formulary

/-- The nodes of a formula as stored, and the root. -/
structure FormulaFile where
  nodes : List Node
  root : NodeId
deriving DecidableEq

structure Formula where
  arena : Arena
  root : NodeId
  ordered : arena.Ordered
  rooted : root < arena.size

namespace Arena

/-- Adds nodes one by one, from a position on. Each must find its children in place, be one
that an arena can hold, and come to stand at its own position. -/
def extend (arena : Arena) : (position : Nat) → List Node → Except Error Arena
  | _, [] => .ok arena
  | position, node :: rest =>
    match node.children.find? fun child : NodeId => position ≤ child with
    | some child => .error (.graph (.forwardChild position child))
    | none =>
      match arena.store node with
      | .error error => .error error
      | .ok (id, after) =>
        if id = position then after.extend (position + 1) rest
        else .error (.graph (.duplicate position id))

/-- The next node is accepted if its children are in place, an arena can hold it, it is not
there yet, and its position is half a word. -/
theorem InStep.extend_cons {arena result : Arena} {node : Node} {rest : List Node}
    (inStep : arena.InStep) :
    arena.extend arena.size (node :: rest) = .ok result ↔
      (∀ child ∈ node.children, child < arena.size) ∧ node.isStorable ∧
        arena.find? node = none ∧ arena.size < 0x100000000 ∧
        (arena.push node).extend (arena.push node).size rest = .ok result := by
  rw [extend]
  cases early : node.children.find? fun child : NodeId => arena.size ≤ child with
  | some child =>
    have late : ¬ child < arena.size := by simpa using List.find?_some early
    exact ⟨nofun, fun accepted => absurd (accepted.1 child (List.mem_of_find?_eq_some early)) late⟩
  | none =>
    have inPlace : ∀ child ∈ node.children, child < arena.size := by
      simpa using early
    by_cases storable : node.isStorable
    · cases found : arena.find? node with
      | some id =>
        have elsewhere : id.val ≠ arena.size := Nat.ne_of_lt (inStep.find?_lt found)
        simp [store, storable, intern, found, elsewhere]
      | none =>
        have next : (NodeId.ofPosition arena.size).val = arena.size ↔
            arena.size < 0x100000000 := by
          rw [NodeId.val_ofPosition]
          omega
        have grown : (arena.push node).size = arena.size + 1 := Array.size_push node
        simp only [store, storable, if_true, intern, found, next, grown]
        by_cases named : arena.size < 0x100000000
        · rw [if_pos named]
          exact ⟨fun remaining => ⟨inPlace, trivial, trivial, named, remaining⟩,
            fun accepted => accepted.2.2.2.2⟩
        · rw [if_neg named]
          exact ⟨nofun, fun accepted => absurd accepted.2.2.2.1 named⟩
    · simp [store, storable]

theorem extend_ordered {arena result : Arena} {nodes : List Node} (ordered : arena.Ordered)
    (inStep : arena.InStep) (accepted : arena.extend arena.size nodes = .ok result) :
    result.Ordered := by
  induction nodes generalizing arena with
  | nil =>
    cases accepted
    exact ordered
  | cons node rest ih =>
    obtain ⟨inPlace, _, missing, _, remaining⟩ := inStep.extend_cons.mp accepted
    exact ih (push_ordered ordered inPlace) (inStep.push missing) remaining

end Arena

namespace Formula

/-- Accepts a stored formula. -/
def load (file : FormulaFile) : Except Error Formula :=
  match accepted : Arena.empty.extend 0 file.nodes with
  | .error error => .error error
  | .ok arena =>
    if rooted : file.root < arena.size then
      have ordered := Arena.extend_ordered Arena.empty_ordered Arena.empty_inStep accepted
      .ok ⟨arena, file.root, ordered, rooted⟩
    else .error (.graph (.rootOutside file.root arena.size))

def fileOf (arena : Arena) (root : NodeId) : FormulaFile := ⟨arena.nodes.toList, root⟩

def toFile (formula : Formula) : FormulaFile := fileOf formula.arena formula.root

def symbols (formula : Formula) : Except Error (List (String × TermSort)) :=
  formula.arena.symbols formula.root

end Formula

end Formulary
