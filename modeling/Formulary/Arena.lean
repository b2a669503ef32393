import Formulary.Error
import Formulary.Node.Key

/-! Nodes stored by position, each kept once, with an index that leads from a node to its
position. Asking for a node that is there already gives its position, so equal subterms share
one node. -/
namespace Formulary

structure Arena where
  nodes : Array Node
  index : Std.HashMap NodeKey NodeId

namespace Arena

def empty : Arena := ⟨#[], ∅⟩

def size (arena : Arena) : Nat := arena.nodes.size

def node? (arena : Arena) (id : NodeId) : Option Node := arena.nodes[id.val]?

/-- The position of the same node, if the index has it. -/
def find? (arena : Arena) (node : Node) : Option NodeId := arena.index[(⟨node⟩ : NodeKey)]?

/-- Adds a node behind the others, and its position to the index. Positions are kept as half
words. -/
def push (arena : Arena) (node : Node) : Arena where
  nodes := arena.nodes.push node
  index := arena.index.insert ⟨node⟩ (.ofPosition arena.size)

/-- The position of a node, which is added at the end when the index lacks it. -/
def intern (arena : Arena) (node : Node) : NodeId × Arena :=
  match arena.find? node with
  | some id => (id, arena)
  | none => (.ofPosition arena.size, arena.push node)

def store (arena : Arena) (node : Node) : Except Error (NodeId × Arena) :=
  if node.isStorable then .ok (arena.intern node) else .error .overflow

/-- Every child stands before its parent. -/
def Ordered (arena : Arena) : Prop :=
  ∀ (position : Nat) (node : Node), arena.nodes[position]? = some node →
    ∀ child ∈ node.children, child < position

/-- The index finds what a search of the nodes would find. -/
def InStep (arena : Arena) : Prop :=
  ∀ node, arena.find? node = (arena.nodes.findIdx? fun old => old.same node).map .ofPosition

theorem empty_ordered : empty.Ordered := by
  intro position node found
  simp [empty] at found

theorem push_ordered {arena : Arena} {node : Node} (ordered : arena.Ordered)
    (below : ∀ child ∈ node.children, child < arena.size) :
    (arena.push node).Ordered := by
  intro position stored found child member
  simp only [push, Array.getElem?_push] at found
  split at found
  · rename_i last
    cases found
    rw [last]
    exact below child member
  · exact ordered position stored found child member

theorem empty_inStep : empty.InStep := by
  intro node
  simp [empty, find?]

/-- A node that the index lacks gets the next position. -/
theorem InStep.push {arena : Arena} {node : Node} (inStep : arena.InStep)
    (missing : arena.find? node = none) : (arena.push node).InStep := by
  intro other
  have searched : arena.nodes.findIdx? (fun old => old.same node) = none := by
    rw [inStep node, Option.map_eq_none_iff] at missing
    exact missing
  have compared : ((⟨node⟩ : NodeKey) == ⟨other⟩) = node.same other := rfl
  simp only [Arena.push, find?, Std.HashMap.getElem?_insert, Array.findIdx?_push, compared]
  split
  · rename_i same
    -- No node before the new one is the same as it, hence none is the same as `other`.
    have absent : arena.nodes.findIdx? (fun old => old.same other) = none := by
      rw [Array.findIdx?_eq_none_iff] at searched ⊢
      intro old member
      rw [← searched old member, Bool.eq_iff_iff, Node.same_iff, Node.same_iff,
        Node.same_iff.mp same]
    rw [absent]
    rfl
  · rw [Option.or_none]
    exact inStep other

theorem InStep.find?_lt {arena : Arena} {node : Node} {id : NodeId} (inStep : arena.InStep)
    (found : arena.find? node = some id) : id < arena.size := by
  rw [inStep node, Option.map_eq_some_iff] at found
  obtain ⟨position, searched, rfl⟩ := found
  obtain ⟨inside, _⟩ := Array.findIdx?_eq_some_iff_getElem.mp searched
  exact Nat.lt_of_le_of_lt (Nat.mod_le position _) inside

/-- The node is there already and nothing changes, or it is added at the end. -/
theorem store_ok {arena after : Arena} {node : Node} {id : NodeId}
    (done : arena.store node = .ok (id, after)) :
    node.isStorable ∧
      ((arena.find? node = some id ∧ after = arena) ∨
        (arena.find? node = none ∧ id = .ofPosition arena.size ∧ after = arena.push node)) := by
  unfold store intern at done
  split at done
  · rename_i storable
    refine ⟨storable, ?_⟩
    cases searched : arena.find? node with
    | some position =>
      rw [searched] at done
      cases done
      exact .inl ⟨rfl, rfl⟩
    | none =>
      rw [searched] at done
      cases done
      exact .inr ⟨rfl, rfl, rfl⟩
  · cases done

/-- Symbols met from the agenda on, parents before children and children from left to
right. Each node is looked at once; `unseen` holds those that were not yet. -/
def symbolsFrom (arena : Arena) (unseen agenda : List NodeId) :
    Except Error (List (String × TermSort)) :=
  match agenda with
  | [] => .ok []
  | id :: rest =>
    match arena.node? id with
    | none => .error (.dangling id)
    | some node =>
      if id ∈ unseen then do
        let more ← symbolsFrom arena (unseen.erase id) (node.children ++ rest)
        return node.symbol?.toList ++ more
      else symbolsFrom arena unseen rest
termination_by (unseen.length, agenda.length)
decreasing_by
  · rename_i member
    rw [List.length_erase_of_mem member]
    have positive := List.length_pos_of_mem member
    exact Prod.Lex.left _ _ (by omega)
  · exact Prod.Lex.right _ (by simp)

/-- The positions of nodes that half a word can name. -/
def ids (arena : Arena) : List NodeId :=
  (List.range (min arena.size 0x100000000)).map .ofPosition

def symbols (arena : Arena) (root : NodeId) : Except Error (List (String × TermSort)) :=
  arena.symbolsFrom arena.ids [root]

end Arena

end Formulary
