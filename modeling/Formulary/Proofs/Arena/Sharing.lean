import Formulary.Proofs.Arena.Tidiness
import Formulary.Proofs.Evaluation
import Formulary.Proofs.Typing

/-! Maximal sharing. However an arena comes about, no two of its positions hold the same node,
so positions stand for expression trees one to one; and nothing that is constructed later
changes what an earlier position stands for. -/
namespace Formulary

/-- An expression with nothing shared. -/
inductive Tree where
  | node (label : Label) (children : List Tree) (sort : TermSort)

/-- Writes out the tree below a node. -/
def unfolding : Pass Unit Tree where
  enter _ := .ok ()
  leave node children _ := .ok (.node node.operator.label children node.sort, ())
  childMissing id _ child := .graph (.childNotEvaluated child id)
  rootMissing root := .graph (.rootNotEvaluated root)

namespace Arena

variable {arena : Arena} {ordered : arena.Ordered}

/-- The expression tree that a position stands for. -/
def tree (arena : Arena) (ordered : arena.Ordered) : NodeId → Except Error Tree :=
  unfolding.descend ordered

theorem tree_found {id : NodeId} {node : Node} (found : arena.node? id = some node) :
    arena.tree ordered id =
      (node.children.mapM (arena.tree ordered)).map
        fun children => .node node.operator.label children node.sort := by
  have recursion : arena.tree ordered id = _ := Pass.descend_found found
  rw [recursion]
  change (do
    let children ← node.children.mapM (arena.tree ordered)
    pure (Tree.node node.operator.label children node.sort)) = _
  cases node.children.mapM (arena.tree ordered) <;> rfl

theorem tree_ok {id : NodeId} {tree : Tree} (unfolded : arena.tree ordered id = .ok tree) :
    ∃ node children, arena.node? id = some node ∧
      List.Forall₂ (fun child below => arena.tree ordered child = .ok below) node.children
        children ∧
      tree = .node node.operator.label children node.sort := by
  cases found : arena.node? id with
  | none =>
    have missing : arena.tree ordered id = _ := Pass.descend_missing found
    rw [missing] at unfolded
    cases unfolded
  | some node =>
    rw [tree_found found] at unfolded
    cases computed : node.children.mapM (arena.tree ordered) with
    | error error =>
      rw [computed] at unfolded
      cases unfolded
    | ok children =>
      rw [computed] at unfolded
      cases unfolded
      exact ⟨node, children, rfl, mapM_ok.mp computed, rfl⟩

theorem tree_total {id : NodeId} (inside : id < arena.size) :
    ∃ tree, arena.tree ordered id = .ok tree := by
  induction id using NodeId.strongRecOn with
  | ind id ih =>
    obtain ⟨node, found⟩ := node?_of_lt inside
    obtain ⟨children, computed⟩ := mapM_total fun child member =>
      have below := ordered id node found child member
      ih child below (Nat.lt_trans below inside)
    exact ⟨_, by rw [tree_found found, computed]; rfl⟩

theorem eq_of_images {α β : Type} {image : α → β → Prop} {left right : List α} {images : List β}
    (one : List.Forall₂ image left images) (other : List.Forall₂ image right images)
    (told : ∀ first ∈ left, ∀ second result, image first result → image second result →
      first = second) : left = right := by
  induction one generalizing right with
  | nil =>
    cases other
    rfl
  | cons first _ ih =>
    cases other with
    | cons second others =>
      rw [told _ List.mem_cons_self _ _ first second,
        ih others fun element member => told element (List.mem_cons_of_mem _ member)]

/-- Positions that stand for the same tree are the same: their children are, by induction, and
no node is there twice. -/
theorem Tidy.tree_injective (tidy : arena.Tidy) {left right : NodeId} {tree : Tree}
    (unfolded : arena.tree tidy.ordered left = .ok tree)
    (again : arena.tree tidy.ordered right = .ok tree) : left = right := by
  induction left using NodeId.strongRecOn generalizing right tree with
  | ind left ih =>
    obtain ⟨node, trees, found, below, rfl⟩ := tree_ok unfolded
    obtain ⟨other, _, foundOther, belowOther, same⟩ := tree_ok again
    injection same with labels same sorts
    subst same
    have children := eq_of_images below belowOther fun child member sibling tree first second =>
      ih child (tidy.ordered left node found child member) first second
    have same : node.key = other.key := by rw [Node.key, Node.key, labels, children, sorts]
    exact Fin.ext (tidy.distinct found foundOther same)

theorem Tidy.tree_eq_iff (tidy : arena.Tidy) {left right : NodeId} (inside : left < arena.size) :
    arena.tree tidy.ordered left = arena.tree tidy.ordered right ↔ left = right := by
  constructor
  · intro same
    obtain ⟨tree, unfolded⟩ := tree_total inside
    exact tidy.tree_injective unfolded (same ▸ unfolded)
  · intro same
    rw [same]

end Arena

section Later

variable {earlier later : Arena}

/-- Plain recursion from an earlier position does not see later nodes. -/
theorem Pass.descend_extends {Result : Type} {pass : Pass Unit Result}
    {ordered : earlier.Ordered} {orderedLater : later.Ordered} (extended : later.Extends earlier)
    {id : NodeId} (inside : id < earlier.size) :
    pass.descend orderedLater id = pass.descend ordered id := by
  induction id using NodeId.strongRecOn with
  | ind id ih =>
    obtain ⟨node, found⟩ := Arena.node?_of_lt inside
    have children : node.children.mapM (pass.descend orderedLater) =
        node.children.mapM (pass.descend ordered) := by
      refine mapM_congr fun child member => ?_
      have below := ordered id node found child member
      exact ih child below (Nat.lt_trans below inside)
    rw [Pass.descend_found found, Pass.descend_found (extended id node found), children]

theorem Arena.symbolsFrom_extends (ordered : earlier.Ordered) (extended : later.Extends earlier)
    {unseen wider agenda : List NodeId} (inside : ∀ id ∈ agenda, id < earlier.size)
    (once : unseen.Nodup) (onceWider : wider.Nodup)
    (alike : ∀ id : NodeId, id < earlier.size → (id ∈ wider ↔ id ∈ unseen)) :
    later.symbolsFrom wider agenda = earlier.symbolsFrom unseen agenda := by
  induction unseen, agenda using Arena.symbolsFrom.induct earlier generalizing wider with
  | case1 unseen => rw [symbolsFrom, symbolsFrom]
  | case2 unseen id rest missing =>
    obtain ⟨node, found⟩ := node?_of_lt (inside id List.mem_cons_self)
    rw [missing] at found
    cases found
  | case3 unseen id rest node found member ih =>
    have here := inside id List.mem_cons_self
    have inWider : id ∈ wider := (alike id here).mpr member
    have insideNext : ∀ other ∈ node.children ++ rest, other < earlier.size := by
      intro other listed
      rcases List.mem_append.mp listed with child | waiting
      · exact Nat.lt_trans (ordered id node found other child) here
      · exact inside other (List.mem_cons_of_mem id waiting)
    have alikeNext : ∀ other : NodeId, other < earlier.size →
        (other ∈ wider.erase id ↔ other ∈ unseen.erase id) := by
      intro other small
      rw [onceWider.mem_erase_iff, once.mem_erase_iff, alike other small]
    have foundLater : later.node? id = some node := extended id node found
    rw [symbolsFrom, symbolsFrom]
    simp only [found, foundLater, if_pos member, if_pos inWider]
    rw [ih insideNext (once.erase id) (onceWider.erase id) alikeNext]
  | case4 unseen id rest node found absent ih =>
    have notInWider : id ∉ wider := fun member =>
      absent ((alike id (inside id List.mem_cons_self)).mp member)
    have foundLater : later.node? id = some node := extended id node found
    rw [symbolsFrom, symbolsFrom]
    simp only [found, foundLater, if_neg absent, if_neg notInWider]
    exact ih (fun other member => inside other (List.mem_cons_of_mem id member)) once onceWider
      alike

theorem Arena.symbols_extends (ordered : earlier.Ordered) (extended : later.Extends earlier)
    {root : NodeId} (inside : root < earlier.size) :
    later.symbols root = earlier.symbols root := by
  refine symbolsFrom_extends ordered extended (fun id member => ?_) earlier.ids_nodup
    later.ids_nodup fun id small => ?_
  · rw [List.mem_singleton.mp member]
    exact inside
  · rw [mem_ids, mem_ids]
    exact ⟨fun _ => small, fun _ => Nat.lt_of_lt_of_le small extended.size_le⟩

end Later

/-- What maximal sharing means for an arena in which children stand before their parents. A
node is told by its position, as half a word. -/
structure Arena.Sharing (arena : Arena) (ordered : arena.Ordered) : Prop where
  /-- The index leads to what the nodes hold. -/
  inStep : arena.InStep
  /-- No node is there twice. -/
  distinct : arena.Distinct
  /-- A node that is there is found, and nothing changes. -/
  present : ∀ (position : Nat) (stored node : Node), arena.nodes[position]? = some stored →
    stored.key = node.key → arena.store node = .ok (.ofPosition position, arena)
  /-- Any other node is added behind those that are there, but for three fractions. -/
  absent : ∀ node, (∀ stored ∈ arena.nodes, stored.key ≠ node.key) → ¬ node.Outsized →
    ∃ after, arena.store node = .ok (.ofPosition arena.size, after) ∧
      after.nodes = arena.nodes.push node
  refused : ∀ node, node.Outsized → arena.store node = .error .overflow
  /-- Positions stand for trees one to one. -/
  trees : ∀ left right : NodeId, left < arena.size → right < arena.size →
    (arena.tree ordered left = arena.tree ordered right ↔ left = right)
  /-- What a position stands for has the same symbols and values ever after. -/
  stable : ∀ after, arena.Leads after → ∃ orderedAfter : after.Ordered,
    ∀ (root : NodeId) (inside : root < arena.size) (insideAfter : root < after.size),
      let earlier : Formula := ⟨arena, root, ordered, inside⟩
      let later : Formula := ⟨after, root, orderedAfter, insideAfter⟩
      later.symbols = earlier.symbols ∧
        ∀ row index, later.evaluateAt row index = earlier.evaluateAt row index

/-- Whether its nodes are loaded or constructed, an arena shares all that can be shared, and
what is constructed later leaves earlier positions alone. -/
theorem construction_shares (arena : Arena) (made : arena.Made) :
    ∃ ordered : arena.Ordered, arena.Sharing ordered := by
  have tidy := made.tidy
  refine ⟨tidy.ordered, tidy.inStep, tidy.distinct, ?_, ?_, ?_, ?_, ?_⟩
  · intro position stored node found same
    exact tidy.store_present found same
  · intro node missing small
    exact ⟨_, tidy.inStep.store_absent (Node.isStorable_iff.mpr small) missing, rfl⟩
  · intro node large
    exact Arena.store_outsized arena large
  · intro left right inside _
    exact tidy.tree_eq_iff inside
  · intro after leads
    refine ⟨(leads.tidy tidy).ordered, fun root inside insideAfter => ⟨?_, fun row index => ?_⟩⟩
    · exact Arena.symbols_extends tidy.ordered leads.extends inside
    · rw [Formula.evaluateAt_eq, Formula.evaluateAt_eq]
      exact Pass.descend_extends leads.extends inside
/-- A symbol and two quarters. -/
def quarters : List Node :=
  [⟨.symbol "x", [], .real⟩, ⟨.constant (.real ⟨2, 4, by decide⟩), [], .real⟩]

/-- The nodes that were loaded and a comparison of them. -/
def belowHalf : Arena := (Arena.ofNodes quarters.toArray).push ⟨.lt, [0, 1], .bool⟩

theorem quarters_sound : (Arena.ofNodes quarters.toArray).Sound := by
  refine Arena.sound_iff.mpr ⟨?_, ?_, ?_⟩
  · intro position node found
    have member := List.mem_of_getElem? found
    simp only [quarters, List.mem_cons, List.not_mem_nil, or_false] at member
    rcases member with rfl | rfl <;> simp
  · simp [quarters, Node.key, Operator.label]
  · intro node member
    simp only [quarters, List.mem_cons, List.not_mem_nil, or_false] at member
    rcases member with rfl | rfl <;> exact Node.isStorable_iff.mp (by decide)

theorem belowHalf_made : belowHalf.Made := by
  have loaded : Arena.empty.extend 0 quarters = .ok (.ofNodes quarters.toArray) :=
    Arena.extend_empty_iff.mpr ⟨rfl, quarters_sound, by decide⟩
  have compared : (Arena.ofNodes quarters.toArray).construct (.typed .lt [0, 1]) =
      .ok (.ofPosition 2, belowHalf) := by
    change Arena.store _ ⟨.lt, [0, 1], .bool⟩ = _
    refine (Arena.extend_tidy loaded).inStep.store_absent rfl fun stored listed same => ?_
    have labels : stored.operator.label = .operator .lt := congrArg Prod.fst same
    simp only [Arena.ofNodes, quarters, List.mem_toArray, List.mem_cons, List.not_mem_nil,
      or_false] at listed
    rcases listed with rfl | rfl <;> cases labels
  refine ⟨quarters, _, loaded, Arena.Leads.here.construct ?_ compared⟩
  exact List.forall_mem_cons.mpr ⟨by decide, List.forall_mem_singleton.mpr (by decide)⟩

/-- A half is the constant that is there as two quarters. -/
theorem construction_shares_belowHalf :
    belowHalf.Made ∧
      belowHalf.store ⟨.constant (.real ⟨1, 2, by decide⟩), [], .real⟩ = .ok (1, belowHalf) := by
  have halves : Ratio.number ⟨2, 4, by decide⟩ = Ratio.number ⟨1, 2, by decide⟩ :=
    Ratio.same_iff.mp (by decide)
  obtain ⟨_, sharing⟩ := construction_shares belowHalf belowHalf_made
  refine ⟨belowHalf_made, sharing.present 1 _ _ rfl ?_⟩
  exact congrArg (fun value => (Label.number value, [], TermSort.real)) halves

/-- A new constant that is not added, though nothing is there yet. -/
theorem new_constant_refused :
    Arena.empty.size = 0 ∧
      Arena.empty.store ⟨.constant (.real ⟨Int64.minValue, -1, by decide⟩), [], .real⟩ =
        .error .overflow :=
  ⟨rfl, Arena.store_outsized .empty ⟨_, rfl, by decide⟩⟩

end Formulary
