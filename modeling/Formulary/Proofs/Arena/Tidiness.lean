import Formulary.Arena.Construction
import Formulary.Proofs.Ratio
import Formulary.Proofs.Traversal

namespace Formulary

namespace Node

/-- A constant of one of the fractions that no arena can hold. -/
def Outsized (node : Node) : Prop :=
  ∃ q, node.operator = .constant (.real q) ∧ (q.numerator, q.denominator) ∈ Ratio.outsized

theorem isStorable_iff {node : Node} : node.isStorable ↔ ¬ node.Outsized := by
  unfold isStorable Outsized
  split
  · rename_i q constant
    rw [← Bool.not_eq_false, Ratio.isExpandable_eq_false, constant]
    simp
  · rename_i other
    simp only [true_iff, not_exists, not_and]
    intro q constant
    exact absurd constant (other q)

theorem isStorable_congr {left right : Node} (same : left.key = right.key) :
    left.isStorable = right.isStorable := by
  have labels : left.operator.label = right.operator.label := congrArg Prod.fst same
  unfold isStorable
  rcases Operator.label_eq_iff.mp labels with equal | ⟨p, q, first, second, numbers⟩
  · rw [equal]
  · rw [first, second]
    exact Ratio.isExpandable_congr numbers

end Node

namespace Arena

variable {arena after : Arena} {node stored : Node} {position : Nat}

theorem node?_of_lt {id : NodeId} (inside : id < arena.size) :
    ∃ node, arena.node? id = some node :=
  ⟨arena.nodes[id], Array.getElem?_eq_getElem inside⟩

theorem InStep.find?_eq_none (inStep : arena.InStep) :
    arena.find? node = none ↔ ∀ stored ∈ arena.nodes, stored.key ≠ node.key := by
  rw [inStep node, Option.map_eq_none_iff, Array.findIdx?_eq_none_iff]
  simp only [← Bool.not_eq_true, Node.same_iff, ne_eq]

/-- No two positions hold the same node. -/
def Distinct (arena : Arena) : Prop :=
  ∀ ⦃first second : Nat⦄ ⦃left right : Node⦄, arena.nodes[first]? = some left →
    arena.nodes[second]? = some right → left.key = right.key → first = second

theorem Distinct.find? (distinct : arena.Distinct) (inStep : arena.InStep)
    (found : arena.nodes[position]? = some stored) (same : stored.key = node.key) :
    arena.find? node = some (.ofPosition position) := by
  have searched : arena.nodes.findIdx? (fun old => old.same node) = some position := by
    obtain ⟨inside, there⟩ := Array.getElem?_eq_some_iff.mp found
    refine Array.findIdx?_eq_some_iff_getElem.mpr ⟨inside, ?_, fun other earlier again => ?_⟩
    · rw [there]
      exact Node.same_iff.mpr same
    · have foundOther := Array.getElem?_eq_getElem (Nat.lt_trans earlier inside)
      have sameOther := (Node.same_iff.mp again).trans same.symm
      exact absurd (distinct foundOther found sameOther) (Nat.ne_of_lt earlier)
  rw [inStep node, searched]
  rfl

theorem nodes_foldl_push (arena : Arena) (nodes : List Node) :
    (nodes.foldl push arena).nodes = arena.nodes ++ nodes.toArray := by
  induction nodes generalizing arena with
  | nil => simp
  | cons node rest ih =>
    rw [List.foldl_cons, ih]
    simp [push]

theorem foldl_push_empty (nodes : List Node) : nodes.foldl push empty = ofNodes nodes.toArray := by
  have same : (nodes.foldl push empty).nodes = nodes.toArray := by
    rw [nodes_foldl_push, empty, Array.empty_append]
  rw [ofNodes, List.toList_toArray, ← same]

theorem push_ofNodes (nodes : Array Node) (node : Node) :
    (ofNodes nodes).push node = ofNodes (nodes.push node) := by
  obtain ⟨nodes⟩ := nodes
  rw [List.push_toArray, ← foldl_push_empty, ← foldl_push_empty, List.foldl_append]
  rfl

/-- Each node stands after its children, once, and is one that an arena can hold. -/
structure Sound (arena : Arena) : Prop where
  ordered : arena.Ordered
  distinct : arena.Distinct
  storable : ∀ node ∈ arena.nodes, node.isStorable

/-- What construction keeps of an arena. -/
structure Tidy (arena : Arena) : Prop extends arena.Sound where
  inStep : arena.InStep
  built : arena = ofNodes arena.nodes

theorem empty_tidy : empty.Tidy := by
  refine ⟨⟨empty_ordered, ?_, ?_⟩, empty_inStep, rfl⟩
  · intro first second left right found
    simp [empty] at found
  · simp [empty]

theorem Tidy.push (tidy : arena.Tidy) (below : ∀ child ∈ node.children, child < arena.size)
    (storable : node.isStorable) (missing : arena.find? node = none) :
    (arena.push node).Tidy := by
  have absent := tidy.inStep.find?_eq_none.mp missing
  refine ⟨⟨push_ordered tidy.ordered below, ?_, ?_⟩, tidy.inStep.push missing, ?_⟩
  · intro first second left right foundLeft foundRight same
    simp only [Arena.push, Array.getElem?_push] at foundLeft foundRight
    split at foundLeft <;> split at foundRight
    · rename_i first second
      rw [first, second]
    · cases foundLeft
      exact absurd same.symm (absent right (Array.mem_of_getElem? foundRight))
    · cases foundRight
      exact absurd same (absent left (Array.mem_of_getElem? foundLeft))
    · exact tidy.distinct foundLeft foundRight same
  · intro other listed
    rcases Array.mem_push.mp listed with earlier | rfl
    · exact tidy.storable other earlier
    · exact storable
  · have pushed := push_ofNodes arena.nodes node
    rw [← tidy.built] at pushed
    exact pushed

theorem Tidy.store_present (tidy : arena.Tidy) (found : arena.nodes[position]? = some stored)
    (same : stored.key = node.key) : arena.store node = .ok (.ofPosition position, arena) := by
  have storable : node.isStorable :=
    (Node.isStorable_congr same).symm.trans (tidy.storable stored (Array.mem_of_getElem? found))
  rw [store, if_pos storable, intern, tidy.distinct.find? tidy.inStep found same]

/-- A node that the arena lacks is added behind the others. -/
theorem InStep.store_absent (inStep : arena.InStep) (storable : node.isStorable)
    (missing : ∀ stored ∈ arena.nodes, stored.key ≠ node.key) :
    arena.store node = .ok (.ofPosition arena.size, arena.push node) := by
  rw [store, if_pos storable, intern, inStep.find?_eq_none.mpr missing]

theorem store_outsized (arena : Arena) (large : node.Outsized) :
    arena.store node = .error .overflow := by
  rw [store, if_neg fun storable => Node.isStorable_iff.mp storable large]

/-- An arena that keeps the nodes of another in their places. -/
def Extends (later earlier : Arena) : Prop :=
  ∀ (position : Nat) (node : Node), earlier.nodes[position]? = some node →
    later.nodes[position]? = some node

theorem extends_push (arena : Arena) (node : Node) : (arena.push node).Extends arena := by
  intro position stored found
  obtain ⟨inside, _⟩ := Array.getElem?_eq_some_iff.mp found
  simp only [push, Array.getElem?_push, if_neg (Nat.ne_of_lt inside)]
  exact found

theorem Extends.size_le {later earlier : Arena} (extended : later.Extends earlier) :
    earlier.size ≤ later.size := by
  refine Nat.le_of_not_lt fun smaller => ?_
  have found := extended later.size _ (Array.getElem?_eq_getElem smaller)
  obtain ⟨inside, _⟩ := Array.getElem?_eq_some_iff.mp found
  exact Nat.lt_irrefl _ inside

end Arena

/-- The positions that a request names. -/
def Construction.children : Construction → List NodeId
  | node _ children _ | typed _ children => children
  | quotient .. => []

namespace Arena

variable {arena after start : Arena} {node : Node} {id : NodeId} {request : Construction}

theorem requested_children (formed : arena.requested request = .ok node) :
    node.children = request.children := by
  cases request with
  | node operator children sort =>
    cases formed
    rfl
  | typed operator children =>
    simp only [requested] at formed
    cases sorted : arena.resultSort operator children with
    | error error => simp [sorted, bind, Except.bind] at formed
    | ok sort =>
      simp only [sorted, bind, Except.bind, pure, Except.pure] at formed
      cases formed
      rfl
  | quotient numerator denominator =>
    simp only [requested] at formed
    split at formed
    · cases formed
      rfl
    · cases formed

theorem construct_ok (done : arena.construct request = .ok (id, after)) :
    ∃ node, node.children = request.children ∧ arena.store node = .ok (id, after) := by
  unfold construct at done
  cases formed : arena.requested request with
  | error error => simp [formed, bind, Except.bind] at done
  | ok node =>
    refine ⟨node, requested_children formed, ?_⟩
    simpa [formed, bind, Except.bind] using done

/-- Arenas that construction leads to, one request after the other. A request names nodes that
are there. -/
inductive Leads (start : Arena) : Arena → Prop where
  | here : Leads start start
  | construct {arena after : Arena} {request : Construction} {id : NodeId}
      (leads : Leads start arena) (inPlace : ∀ child ∈ request.children, child < arena.size)
      (done : arena.construct request = .ok (id, after)) : Leads start after

theorem Tidy.construct (tidy : arena.Tidy)
    (inPlace : ∀ child ∈ request.children, child < arena.size)
    (done : arena.construct request = .ok (id, after)) : after.Tidy := by
  obtain ⟨node, named, stored⟩ := construct_ok done
  obtain ⟨storable, ⟨_, rfl⟩ | ⟨missing, _, rfl⟩⟩ := store_ok stored
  · exact tidy
  · exact tidy.push (named ▸ inPlace) storable missing

theorem extends_construct (done : arena.construct request = .ok (id, after)) :
    after.Extends arena := by
  obtain ⟨node, _, stored⟩ := construct_ok done
  obtain ⟨_, ⟨_, rfl⟩ | ⟨_, _, rfl⟩⟩ := store_ok stored
  · exact fun _ _ found => found
  · exact extends_push arena node

theorem Leads.tidy (leads : start.Leads arena) (tidy : start.Tidy) : arena.Tidy := by
  induction leads with
  | here => exact tidy
  | construct _ inPlace done ih => exact ih.construct inPlace done

theorem Leads.extends (leads : start.Leads arena) : arena.Extends start := by
  induction leads with
  | here => exact fun _ _ found => found
  | construct _ _ done ih =>
    exact fun id node found => extends_construct done id node (ih id node found)

/-- Nodes that are accepted one by one might have been constructed one by one. -/
theorem Leads.extend {nodes : List Node} {result : Arena} (leads : start.Leads arena)
    (tidy : start.Tidy) (accepted : arena.extend arena.size nodes = .ok result) :
    start.Leads result := by
  induction nodes generalizing arena with
  | nil =>
    cases accepted
    exact leads
  | cons node rest ih =>
    have inStep := (leads.tidy tidy).inStep
    obtain ⟨inPlace, storable, missing, _, remaining⟩ := inStep.extend_cons.mp accepted
    have done : arena.construct (.node node.operator node.children node.sort) =
        .ok (.ofPosition arena.size, arena.push node) :=
      inStep.store_absent storable (inStep.find?_eq_none.mp missing)
    refine ih (Leads.construct leads ?_ done) remaining
    exact inPlace

/-- An arena begins with nodes that are accepted, maybe none, and goes on by construction. -/
def Made (arena : Arena) : Prop :=
  ∃ nodes origin, empty.extend 0 nodes = .ok origin ∧ origin.Leads arena

theorem extend_tidy {nodes : List Node} {result : Arena}
    (accepted : empty.extend 0 nodes = .ok result) : result.Tidy :=
  (Leads.here.extend empty_tidy accepted).tidy empty_tidy

theorem Made.tidy (made : arena.Made) : arena.Tidy := by
  obtain ⟨nodes, origin, accepted, leads⟩ := made
  exact leads.tidy (extend_tidy accepted)

/-- Accepted nodes stand in the arena in their order, and nothing else does. Every position is
half a word. -/
theorem InStep.extend_ok {nodes : List Node} {result : Arena} (inStep : arena.InStep)
    (accepted : arena.extend arena.size nodes = .ok result) (named : arena.size ≤ Word.halfSize) :
    result = nodes.foldl Arena.push arena ∧ arena.size + nodes.length ≤ Word.halfSize := by
  induction nodes generalizing arena with
  | nil =>
    cases accepted
    exact ⟨rfl, named⟩
  | cons node rest ih =>
    obtain ⟨_, _, missing, next, remaining⟩ := inStep.extend_cons.mp accepted
    have grown : (arena.push node).size = arena.size + 1 := Array.size_push node
    obtain ⟨same, small⟩ := ih (inStep.push missing) remaining (by rw [grown]; exact next)
    refine ⟨same, ?_⟩
    rw [List.length_cons]
    omega

/-- Nodes are accepted one after the other if the arena that they lead to is sound and not too
large. -/
theorem Sound.extend {nodes : List Node} (sound : (nodes.foldl push arena).Sound)
    (inStep : arena.InStep) (small : arena.size + nodes.length ≤ Word.halfSize) :
    arena.extend arena.size nodes = .ok (nodes.foldl push arena) := by
  induction nodes generalizing arena with
  | nil => rfl
  | cons node rest ih =>
    have all := nodes_foldl_push arena (node :: rest)
    have next : ((node :: rest).foldl push arena).nodes[arena.size]? = some node := by
      rw [all, size, Array.getElem?_append_right (Nat.le_refl _), Nat.sub_self]
      rfl
    have storable := sound.storable node (Array.mem_of_getElem? next)
    have missing : arena.find? node = none := by
      refine inStep.find?_eq_none.mpr fun stored listed same => ?_
      obtain ⟨position, found⟩ := Array.getElem?_of_mem listed
      obtain ⟨inside, _⟩ := Array.getElem?_eq_some_iff.mp found
      rw [← Array.getElem?_append_left inside, ← all] at found
      exact absurd (sound.distinct found next same) (Nat.ne_of_lt inside)
    have grown : (arena.push node).size = arena.size + 1 := Array.size_push node
    rw [List.length_cons] at small
    refine inStep.extend_cons.mpr ⟨sound.ordered arena.size node next, storable, missing, ?_, ?_⟩
    · exact Nat.lt_of_lt_of_le (by omega) small
    · exact ih sound (inStep.push missing) (by omega)

/-- The nodes of a file are accepted exactly when they form a sound arena and half words can name
them all. -/
theorem extend_empty_iff {nodes : List Node} {result : Arena} :
    empty.extend 0 nodes = .ok result ↔
      result = ofNodes nodes.toArray ∧ result.Sound ∧ nodes.length ≤ Word.halfSize := by
  rw [← foldl_push_empty, ← Nat.zero_add nodes.length]
  constructor
  · intro accepted
    obtain ⟨same, small⟩ := empty_inStep.extend_ok accepted (Nat.zero_le _)
    exact ⟨same, (extend_tidy accepted).toSound, small⟩
  · rintro ⟨rfl, sound, small⟩
    exact sound.extend empty_inStep small

theorem distinct_iff {nodes : List Node} :
    (ofNodes nodes.toArray).Distinct ↔ (nodes.map Node.key).Nodup := by
  simp only [Distinct, ofNodes, List.getElem?_toArray]
  constructor
  · intro distinct
    apply List.nodup_iff_getElem?_ne_getElem?.mpr
    intro first second before inside same
    rw [List.length_map] at inside
    have left := List.getElem?_eq_getElem (Nat.lt_trans before inside)
    have right := List.getElem?_eq_getElem inside
    rw [List.getElem?_map, List.getElem?_map, left, right] at same
    exact absurd (distinct left right (Option.some.inj same)) (Nat.ne_of_lt before)
  · intro unique first second left right foundLeft foundRight same
    have inside : first < (nodes.map Node.key).length := by
      rw [List.length_map]
      exact (List.getElem?_eq_some_iff.mp foundLeft).choose
    apply (List.getElem?_inj inside unique).mp
    rw [List.getElem?_map, List.getElem?_map, foundLeft, foundRight]
    exact congrArg some same

theorem sound_iff {nodes : List Node} :
    (ofNodes nodes.toArray).Sound ↔
      (∀ (position : Nat) (node : Node), nodes[position]? = some node →
        ∀ child ∈ node.children, child < position) ∧
      (nodes.map Node.key).Nodup ∧ ∀ node ∈ nodes, ¬ node.Outsized := by
  have ordered : (ofNodes nodes.toArray).Ordered ↔ ∀ (position : Nat) (node : Node),
      nodes[position]? = some node → ∀ child ∈ node.children, child < position := by
    simp only [Ordered, ofNodes, List.getElem?_toArray]
  have storable : (∀ node ∈ (ofNodes nodes.toArray).nodes, node.isStorable) ↔
      ∀ node ∈ nodes, ¬ node.Outsized := by
    simp only [ofNodes, List.mem_toArray, Node.isStorable_iff]
  rw [← ordered, ← distinct_iff, ← storable]
  exact ⟨fun sound => ⟨sound.ordered, sound.distinct, sound.storable⟩,
    fun ⟨ordered, distinct, storable⟩ => ⟨ordered, distinct, storable⟩⟩

end Arena

end Formulary
