import Formulary.Traversal
import Mathlib.Data.List.Forall2
import Mathlib.Data.List.Nodup
import Std.Data.HashMap.Lemmas

/-! Walks with an agenda are recursive descents. Entering a node and working off what it
puts on the agenda comes to visiting its children from left to right and then leaving it,
so facts about walks are proved by induction on positions. -/
namespace Formulary

theorem related_of_mem {α β : Type} {relation : α → β → Prop} {left : List α} {right : List β}
    (related : List.Forall₂ relation left right) {element : α} (member : element ∈ left) :
    ∃ other, relation element other := by
  induction related with
  | nil => cases member
  | cons first _ ih =>
    rcases List.mem_cons.mp member with rfl | later
    · exact ⟨_, first⟩
    · exact ih later

theorem Arena.ordered_iff {arena : Arena} :
    arena.Ordered ↔ ∀ position, (inside : position < arena.nodes.size) →
      arena.nodes[position].children.all (fun child => decide (child.val < position)) := by
  simp only [List.all_eq_true, decide_eq_true_eq]
  constructor
  · intro ordered position inside child member
    exact ordered position arena.nodes[position] (Array.getElem?_eq_getElem inside) child member
  · intro below position node found child member
    obtain ⟨inside, same⟩ := Array.getElem?_eq_some_iff.mp found
    subst same
    exact below position inside child member

instance (arena : Arena) : Decidable arena.Ordered := decidable_of_iff' _ Arena.ordered_iff

/-- Nodes with the index that adding them one by one leaves. -/
def Arena.ofNodes (nodes : Array Node) : Arena := ⟨nodes, (nodes.toList.foldl push empty).index⟩

theorem Arena.mem_nodes {arena : Arena} {id : NodeId} {node : Node}
    (found : arena.node? id = some node) : node ∈ arena.nodes.toList :=
  Array.mem_toList_iff.mpr (Array.mem_of_getElem? found)

theorem Arena.mem_ids {arena : Arena} {id : NodeId} : id ∈ arena.ids ↔ id < arena.size := by
  rw [ids, List.mem_map]
  constructor
  · rintro ⟨position, listed, rfl⟩
    rw [List.mem_range] at listed
    have below := Nat.lt_of_lt_of_le listed (Nat.min_le_left _ _)
    exact Nat.lt_of_le_of_lt (Nat.mod_le position _) below
  · intro inside
    exact ⟨id, List.mem_range.mpr (Nat.lt_min.mpr ⟨inside, id.isLt⟩), id.ofPosition_val⟩

theorem Arena.ids_nodup (arena : Arena) : arena.ids.Nodup := by
  refine List.Nodup.map_on ?_ List.nodup_range
  intro left inLeft right inRight same
  have leftSmall := Nat.lt_of_lt_of_le (List.mem_range.mp inLeft) (Nat.min_le_right _ _)
  have rightSmall := Nat.lt_of_lt_of_le (List.mem_range.mp inRight) (Nat.min_le_right _ _)
  have values := congrArg Fin.val same
  rwa [NodeId.val_ofPosition, NodeId.val_ofPosition, Nat.mod_eq_of_lt leftSmall,
    Nat.mod_eq_of_lt rightSmall] at values

/-- The nodes that a root depends on, itself among them. -/
inductive Arena.Reaches (arena : Arena) (root : NodeId) : NodeId → Prop where
  | root : Reaches arena root root
  | child {parent child : NodeId} {node : Node} (path : Reaches arena root parent)
      (found : arena.node? parent = some node) (member : child ∈ node.children) :
      Reaches arena root child

theorem Arena.Reaches.inside {arena : Arena} (ordered : arena.Ordered) {root id : NodeId}
    (reached : arena.Reaches root id) (rooted : root < arena.size) : id < arena.size := by
  induction reached with
  | root => exact rooted
  | child path found member ih => exact Nat.lt_trans (ordered _ _ found _ member) ih

theorem Arena.Reaches.found {arena : Arena} (ordered : arena.Ordered) {root id : NodeId}
    (reached : arena.Reaches root id) (rooted : root < arena.size) :
    ∃ node, arena.node? id = some node := by
  have inside := reached.inside ordered rooted
  exact ⟨arena.nodes[id], Array.getElem?_eq_getElem inside⟩

namespace Pass

variable {State Result : Type} {arena : Arena}

/-- A memo keeps its results, and new ones stand for positions below a bound. -/
structure Growth (bound : Nat) (before after : Std.HashMap NodeId Result) : Prop where
  retains : ∀ (id : NodeId) (result : Result),
    before[id]? = some result → after[id]? = some result
  introduced : ∀ id, after.contains id → before.contains id ∨ id < bound

namespace Growth

variable {bound : Nat} {before middle after : Std.HashMap NodeId Result}

theorem refl (bound : Nat) (memo : Std.HashMap NodeId Result) : Growth bound memo memo :=
  ⟨fun _ _ found => found, fun _ present => .inl present⟩

theorem trans (first : Growth bound before middle) (second : Growth bound middle after) :
    Growth bound before after := by
  refine ⟨fun id result found => second.retains id result (first.retains id result found), ?_⟩
  intro id present
  rcases second.introduced id present with earlier | fresh
  · exact first.introduced id earlier
  · exact .inr fresh

theorem weaken {larger : Nat} (growth : Growth bound before after) (bounded : bound ≤ larger) :
    Growth larger before after := by
  refine ⟨growth.retains, fun id present => ?_⟩
  exact (growth.introduced id present).imp_right fun fresh => Nat.lt_of_lt_of_le fresh bounded

theorem contains (growth : Growth bound before after) {id : NodeId}
    (present : before.contains id) : after.contains id := by
  rw [Std.HashMap.contains_eq_isSome_getElem?] at present ⊢
  obtain ⟨result, found⟩ := Option.isSome_iff_exists.mp present
  rw [growth.retains id result found]
  rfl

theorem absent (growth : Growth bound before after) {id : NodeId}
    (missing : before.contains id = false) (above : bound ≤ id) :
    after.contains id = false := by
  cases present : after.contains id with
  | false => rfl
  | true =>
    rcases growth.introduced id present with earlier | fresh
    · rw [missing] at earlier
      cases earlier
    · exact absurd fresh (Nat.not_lt.mpr above)

theorem insert {id : NodeId} (missing : before.contains id = false) (result : Result) :
    Growth (id + 1) before (before.insert id result) := by
  refine ⟨fun other kept found => ?_, fun other present => ?_⟩
  · rw [Std.HashMap.getElem?_insert]
    split
    · rename_i same
      rw [← beq_iff_eq.mp same, Std.HashMap.getElem?_eq_none_of_contains_eq_false missing] at found
      cases found
    · exact found
  · rw [Std.HashMap.contains_insert] at present
    rcases Bool.or_eq_true _ _ ▸ present with same | earlier
    · exact .inr (beq_iff_eq.mp same ▸ Nat.lt_succ_self id)
    · exact .inl earlier

end Growth

/-- A memo and a state on their way through a walk. -/
abbrev Passage (State Result : Type) := Std.HashMap NodeId Result × State

/-- The walk below one node by recursion: nothing if it has a result, else its children from
left to right, and then the node itself. -/
def visit (pass : Pass State Result) (ordered : arena.Ordered) (id : NodeId)
    (passage : Passage State Result) : Except Error (Passage State Result) :=
  if passage.1.contains id then .ok passage
  else
    match found : arena.node? id with
    | none => .error (.dangling id)
    | some node => do
      pass.enter node
      let (memo, state) ← node.children.attach.foldlM (fun passage child =>
        have := ordered id node found child.1 child.2
        pass.visit ordered child.1 passage) passage
      let results ← pass.arguments id node memo node.children
      let (result, next) ← pass.leave node results state
      return (memo.insert id result, next)
termination_by id.val

/-- Visits from left to right. -/
def visitAll (pass : Pass State Result) (ordered : arena.Ordered) :
    List NodeId → Passage State Result → Except Error (Passage State Result)
  | [], passage => .ok passage
  | id :: rest, passage => do pass.visitAll ordered rest (← pass.visit ordered id passage)

/-- Leaves a node whose children were visited. -/
def depart (pass : Pass State Result) (id : NodeId) (node : Node)
    (passage : Passage State Result) : Except Error (Passage State Result) := do
  let results ← pass.arguments id node passage.1 node.children
  let (result, next) ← pass.leave node results passage.2
  return (passage.1.insert id result, next)

variable {pass : Pass State Result} {ordered : arena.Ordered}

theorem visit_known {id : NodeId} {passage : Passage State Result}
    (known : passage.1.contains id) : pass.visit ordered id passage = .ok passage := by
  rw [visit, if_pos known]

theorem visit_dangling {id : NodeId} {passage : Passage State Result}
    (unknown : passage.1.contains id = false) (missing : arena.node? id = none) :
    pass.visit ordered id passage = .error (.dangling id) := by
  rw [visit, if_neg (by simp [unknown])]
  split
  · rfl
  · rename_i found
    rw [missing] at found
    cases found

private theorem foldlM_attach (list : List NodeId) (passage : Passage State Result) :
    list.attach.foldlM (fun passage child => pass.visit ordered child.1 passage) passage =
      pass.visitAll ordered list passage := by
  rw [List.foldlM_subtype (g := fun passage child => pass.visit ordered child passage)]
  · rw [List.unattach_attach]
    induction list generalizing passage with
    | nil => rfl
    | cons id rest ih =>
      rw [List.foldlM_cons, visitAll]
      cases pass.visit ordered id passage with
      | error error => rfl
      | ok next => exact ih next
  · intros
    rfl

theorem visit_found {id : NodeId} {node : Node} {passage : Passage State Result}
    (unknown : passage.1.contains id = false) (found : arena.node? id = some node) :
    pass.visit ordered id passage = (do
      pass.enter node
      pass.depart id node (← pass.visitAll ordered node.children passage)) := by
  rw [visit, if_neg (by simp [unknown])]
  split
  · rename_i missing
    rw [found] at missing
    cases missing
  · rename_i stored again
    rw [found] at again
    cases again
    rw [foldlM_attach]
    rfl

theorem depart_ok {id : NodeId} {node : Node} {passage after : Passage State Result}
    (left : pass.depart id node passage = .ok after) :
    ∃ results result, pass.arguments id node passage.1 node.children = .ok results ∧
      pass.leave node results passage.2 = .ok (result, after.2) ∧
      after.1 = passage.1.insert id result := by
  unfold depart at left
  cases gathered : pass.arguments id node passage.1 node.children with
  | error error => simp [gathered, bind, Except.bind] at left
  | ok results =>
    cases done : pass.leave node results passage.2 with
    | error error => simp [gathered, done, bind, Except.bind] at left
    | ok pair =>
      obtain ⟨result, next⟩ := pair
      simp only [gathered, done, bind, Except.bind, pure, Except.pure] at left
      cases left
      exact ⟨results, result, rfl, done, rfl⟩

theorem visitAll_cons {id : NodeId} {rest : List NodeId} {passage after : Passage State Result}
    (visited : pass.visitAll ordered (id :: rest) passage = .ok after) :
    ∃ middle, pass.visit ordered id passage = .ok middle ∧
      pass.visitAll ordered rest middle = .ok after := by
  rw [visitAll] at visited
  cases first : pass.visit ordered id passage with
  | error error => simp [first, bind, Except.bind] at visited
  | ok middle => exact ⟨middle, rfl, by simpa [first, bind, Except.bind] using visited⟩

/-- What a visit did: nothing to a known node; else it entered the node, visited its children
and left it. -/
theorem visit_ok {id : NodeId} {passage after : Passage State Result}
    (visited : pass.visit ordered id passage = .ok after) :
    (passage.1.contains id ∧ after = passage) ∨
      ∃ node middle, passage.1.contains id = false ∧ arena.node? id = some node ∧
        pass.enter node = .ok () ∧
        pass.visitAll ordered node.children passage = .ok middle ∧
        pass.depart id node middle = .ok after := by
  cases known : passage.1.contains id with
  | true =>
    rw [visit_known known] at visited
    cases visited
    exact .inl ⟨rfl, rfl⟩
  | false =>
    cases found : arena.node? id with
    | none =>
      rw [visit_dangling known found] at visited
      cases visited
    | some node =>
      rw [visit_found known found] at visited
      cases entered : pass.enter node with
      | error error => simp [entered, bind, Except.bind] at visited
      | ok entrance =>
        cases below : pass.visitAll ordered node.children passage with
        | error error => simp [entered, below, bind, Except.bind] at visited
        | ok middle =>
          have left : pass.depart id node middle = .ok after := by
            simpa [entered, below, bind, Except.bind] using visited
          exact .inr ⟨node, middle, rfl, rfl, entered, below, left⟩

/-- Visits from left to right grow the memo below a bound, if each of them does. -/
private theorem visitAll_grows {bound : Nat} {list : List NodeId}
    {passage after : Passage State Result}
    (grows : ∀ id ∈ list, ∀ before next, pass.visit ordered id before = .ok next →
      Growth bound before.1 next.1)
    (visited : pass.visitAll ordered list passage = .ok after) :
    Growth bound passage.1 after.1 := by
  induction list generalizing passage with
  | nil =>
    cases visited
    exact .refl _ _
  | cons id rest ih =>
    obtain ⟨middle, first, remaining⟩ := visitAll_cons visited
    exact (grows id (by simp) passage middle first).trans
      (ih (fun other member => grows other (by simp [member])) remaining)

theorem visit_grows {id : NodeId} {passage after : Passage State Result}
    (visited : pass.visit ordered id passage = .ok after) :
    Growth (id + 1) passage.1 after.1 := by
  induction id using NodeId.strongRecOn generalizing passage after with
  | ind id ih =>
    rcases visit_ok visited with ⟨_, same⟩ | ⟨node, middle, unknown, found, _, below, left⟩
    · rw [same]
      exact .refl _ _
    · have children : Growth id passage.1 middle.1 := visitAll_grows (fun child member before
        next done => (ih child (ordered id node found child member) done).weaken
          (ordered id node found child member)) below
      obtain ⟨_, result, _, _, inserted⟩ := depart_ok left
      rw [inserted]
      exact (children.weaken (Nat.le_succ id)).trans
        (Growth.insert (children.absent unknown (Nat.le_refl id)) result)

theorem visitAll_children_grows {id : NodeId} {node : Node} (found : arena.node? id = some node)
    {passage after : Passage State Result}
    (visited : pass.visitAll ordered node.children passage = .ok after) :
    Growth id passage.1 after.1 :=
  visitAll_grows (fun child member _ _ done => (visit_grows done).weaken
    (ordered id node found child member)) visited

theorem visitAll_retains {list : List NodeId} {passage after : Passage State Result}
    (visited : pass.visitAll ordered list passage = .ok after) {id : NodeId} {result : Result}
    (found : passage.1[id]? = some result) : after.1[id]? = some result := by
  induction list generalizing passage with
  | nil =>
    cases visited
    exact found
  | cons first rest ih =>
    obtain ⟨middle, one, remaining⟩ := visitAll_cons visited
    exact ih remaining ((visit_grows one).retains id result found)

theorem visitAll_fresh {memo : Std.HashMap NodeId Result} (list : List NodeId)
    (passage : Passage State Result)
    (kept : ∀ id, memo.contains id → passage.1.contains id) :
    pass.visitAll ordered (list.filter fun id => !memo.contains id) passage =
      pass.visitAll ordered list passage := by
  induction list generalizing passage with
  | nil => rfl
  | cons id rest ih =>
    cases known : memo.contains id with
    | true =>
      rw [List.filter_cons_of_neg (by simp [known]), ih passage kept, visitAll,
        visit_known (kept id known)]
      rfl
    | false =>
      rw [List.filter_cons_of_pos (by simp [known]), visitAll, visitAll]
      cases first : pass.visit ordered id passage with
      | error error => rfl
      | ok middle =>
        exact ih middle fun other present => (visit_grows first).contains (kept other present)

theorem loop_known {task : Task} {passage : Passage State Result}
    (known : passage.1.contains task.id) (rest : List Task) :
    pass.loop ordered (task :: rest) passage.1 passage.2 =
      pass.loop ordered rest passage.1 passage.2 := by
  rw [loop, if_pos known]

theorem loop_dangling {task : Task} {passage : Passage State Result}
    (unknown : passage.1.contains task.id = false) (missing : arena.node? task.id = none)
    (rest : List Task) :
    pass.loop ordered (task :: rest) passage.1 passage.2 = .error (.dangling task.id) := by
  rw [loop, if_neg (by simp [unknown])]
  split
  · rfl
  · rename_i found
    rw [missing] at found
    cases found

theorem loop_open {id : NodeId} {node : Node} {passage : Passage State Result}
    (unknown : passage.1.contains id = false) (found : arena.node? id = some node)
    (rest : List Task) :
    pass.loop ordered (.enter id :: rest) passage.1 passage.2 = (do
      pass.enter node
      pass.loop ordered
        ((node.children.filter fun child => !passage.1.contains child).map Task.enter ++
          Task.leave id :: rest) passage.1 passage.2) := by
  rw [loop, if_neg (by simp [Task.id, unknown])]
  split
  · rename_i missing
    rw [Task.id, found] at missing
    cases missing
  · rename_i stored again
    rw [Task.id, found] at again
    cases again
    dsimp only
    cases pass.enter node <;> rfl

theorem loop_leave {id : NodeId} {node : Node} {passage : Passage State Result}
    (unknown : passage.1.contains id = false) (found : arena.node? id = some node)
    (rest : List Task) :
    pass.loop ordered (.leave id :: rest) passage.1 passage.2 = (do
      let after ← pass.depart id node passage
      pass.loop ordered rest after.1 after.2) := by
  rw [loop, if_neg (by simp [Task.id, unknown])]
  split
  · rename_i missing
    rw [Task.id, found] at missing
    cases missing
  · rename_i stored again
    rw [Task.id, found] at again
    cases again
    dsimp only [depart]
    cases pass.arguments id node passage.1 node.children with
    | error error => rfl
    | ok results =>
      dsimp only [bind, Except.bind]
      cases pass.leave node results passage.2 <;> rfl

variable (pass ordered) in
/-- Working off a node that is to be entered is visiting it. -/
theorem loop_enter (id : NodeId) (rest : List Task) (passage : Passage State Result) :
    pass.loop ordered (.enter id :: rest) passage.1 passage.2 = (do
      let after ← pass.visit ordered id passage
      pass.loop ordered rest after.1 after.2) := by
  induction id using NodeId.strongRecOn generalizing rest passage with
  | ind id ih =>
    -- The children's part of the agenda, by the induction hypothesis at each of them.
    have enterAll (list : List NodeId) (below : ∀ child ∈ list, child < id) (tail : List Task)
        (passage : Passage State Result) :
        pass.loop ordered (list.map Task.enter ++ tail) passage.1 passage.2 = (do
          let after ← pass.visitAll ordered list passage
          pass.loop ordered tail after.1 after.2) := by
      induction list generalizing passage with
      | nil => rfl
      | cons child others step =>
        rw [List.map_cons, List.cons_append, ih child (below child (by simp)), visitAll]
        cases pass.visit ordered child passage with
        | error error => rfl
        | ok middle => exact step (fun other member => below other (by simp [member])) middle
    cases known : passage.1.contains id with
    | true =>
      rw [visit_known known]
      exact loop_known known rest
    | false =>
      cases found : arena.node? id with
      | none =>
        rw [visit_dangling known found]
        exact loop_dangling known found rest
      | some node =>
        rw [visit_found known found, loop_open known found]
        cases pass.enter node with
        | error error => rfl
        | ok entered =>
          have below : ∀ child ∈ node.children.filter fun child => !passage.1.contains child,
              child < id := fun child member =>
            ordered id node found child (List.mem_filter.mp member).1
          dsimp only [bind, Except.bind]
          rw [enterAll _ below, visitAll_fresh _ _ fun _ present => present]
          cases visited : pass.visitAll ordered node.children passage with
          | error error => rfl
          | ok middle =>
            have unknown := (visitAll_children_grows found visited).absent known (Nat.le_refl id)
            exact loop_leave unknown found rest

/-- A whole walk is a visit of the root. -/
theorem run_eq_visit (pass : Pass State Result) (formula : Formula) (state : State) :
    pass.run formula state = (do
      let after ← pass.visit formula.ordered formula.root (∅, state)
      match after.1[formula.root]? with
      | none => .error (pass.rootMissing formula.root)
      | some result => .ok (result, after.2)) := by
  have entered := loop_enter pass formula.ordered formula.root [] (∅, state)
  rw [run, entered]
  cases pass.visit formula.ordered formula.root (∅, state) with
  | error error => rfl
  | ok after =>
    cases found : after.1[formula.root]? <;> simp [bind, Except.bind, loop, found]

theorem arguments_ok {id : NodeId} {node : Node} {memo : Std.HashMap NodeId Result}
    {children : List NodeId} {results : List Result} :
    pass.arguments id node memo children = .ok results ↔
      List.Forall₂ (fun child result => memo[child]? = some result) children results := by
  induction children generalizing results with
  | nil => cases results <;> simp [arguments]
  | cons child rest ih =>
    rw [arguments]
    cases found : memo[child]? with
    | none => cases results <;> simp [found]
    | some result =>
      cases more : pass.arguments id node memo rest with
      | error error =>
        cases results with
        | nil => simp
        | cons first others => simp [← ih, more]
      | ok rests =>
        cases results with
        | nil => simp
        | cons first others => simp [← ih, more, found]

theorem run_ok {formula : Formula} {state final : State} {result : Result}
    (done : pass.run formula state = .ok (result, final)) :
    ∃ memo, pass.visit formula.ordered formula.root (∅, state) = .ok (memo, final) ∧
      memo[formula.root]? = some result := by
  rw [run_eq_visit] at done
  cases visited : pass.visit formula.ordered formula.root (∅, state) with
  | error error => simp [visited, bind, Except.bind] at done
  | ok after =>
    obtain ⟨memo, reached⟩ := after
    simp only [visited, bind, Except.bind] at done
    split at done
    · cases done
    · rename_i stored found
      cases done
      exact ⟨memo, rfl, found⟩

section Rules

variable {Within : NodeId → Prop} {Holds : Passage State Result → Prop}

theorem visitAll_sound {list : List NodeId}
    (sound : ∀ id ∈ list, ∀ before next, Holds before →
      pass.visit ordered id before = .ok next → Holds next ∧ next.1.contains id)
    {passage after : Passage State Result} (holds : Holds passage)
    (visited : pass.visitAll ordered list passage = .ok after) : Holds after := by
  induction list generalizing passage with
  | nil =>
    cases visited
    exact holds
  | cons id rest ih =>
    obtain ⟨middle, first, remaining⟩ := visitAll_cons visited
    exact ih (fun other member => sound other (by simp [member]))
      (sound id (by simp) passage middle holds first).1 remaining

/-- What every departure keeps, a visit keeps; and it leaves a result. -/
theorem visit_sound
    (closed : ∀ id node, Within id → arena.node? id = some node →
      ∀ child ∈ node.children, Within child)
    (step : ∀ id node passage after, Within id → arena.node? id = some node → Holds passage →
      passage.1.contains id = false → pass.depart id node passage = .ok after → Holds after)
    {id : NodeId} (within : Within id) {passage after : Passage State Result}
    (holds : Holds passage) (visited : pass.visit ordered id passage = .ok after) :
    Holds after ∧ after.1.contains id := by
  induction id using NodeId.strongRecOn generalizing passage after with
  | ind id ih =>
    rcases visit_ok visited with ⟨known, same⟩ | ⟨node, middle, unknown, found, _, below, left⟩
    · rw [same]
      exact ⟨holds, known⟩
    · have kept : Holds middle := visitAll_sound (fun child member before next ready done =>
        ih child (ordered id node found child member) (closed id node within found child member)
          ready done) holds below
      have absent := (visitAll_children_grows found below).absent unknown (Nat.le_refl id)
      obtain ⟨_, result, _, _, inserted⟩ := depart_ok left
      refine ⟨step id node middle after within found kept absent left, ?_⟩
      rw [inserted]
      exact Std.HashMap.contains_insert_self

/-- What every departure from a node that the root depends on keeps, holds at the end of a
walk, and the walk's result is the remembered one of the root. -/
theorem run_sound {formula : Formula} {state final : State} {result : Result}
    (start : Holds (∅, state))
    (step : ∀ id node passage after, formula.arena.Reaches formula.root id →
      formula.arena.node? id = some node → Holds passage → passage.1.contains id = false →
      pass.depart id node passage = .ok after → Holds after)
    (done : pass.run formula state = .ok (result, final)) :
    ∃ memo : Std.HashMap NodeId Result,
      Holds (memo, final) ∧ memo[formula.root]? = some result := by
  obtain ⟨memo, visited, atRoot⟩ := run_ok done
  exact ⟨memo, (visit_sound (fun id node path found child member => .child path found member)
    step .root start visited).1, atRoot⟩

end Rules

section Stateless

/-- Plain recursion, as if nothing were shared: a node is refused when it is entered, and its
children are computed from left to right before it. -/
def descend (pass : Pass Unit Result) (ordered : arena.Ordered) (id : NodeId) :
    Except Error Result :=
  match found : arena.node? id with
  | none => .error (.dangling id)
  | some node => do
    pass.enter node
    let results ← node.children.attach.mapM fun child =>
      have := ordered id node found child.1 child.2
      pass.descend ordered child.1
    let (result, _) ← pass.leave node results ()
    return result
termination_by id.val

theorem descend_missing {pass : Pass Unit Result} {id : NodeId}
    (missing : arena.node? id = none) : pass.descend ordered id = .error (.dangling id) := by
  rw [descend]
  split
  · rfl
  · rename_i found
    rw [missing] at found
    cases found

theorem descend_found {pass : Pass Unit Result} {id : NodeId} {node : Node}
    (found : arena.node? id = some node) :
    pass.descend ordered id = (do
      pass.enter node
      let results ← node.children.mapM (pass.descend ordered)
      let (result, _) ← pass.leave node results ()
      return result) := by
  rw [descend]
  split
  · rename_i missing
    rw [found] at missing
    cases missing
  · rename_i stored again
    rw [found] at again
    cases again
    rw [List.mapM_subtype (g := pass.descend ordered) (fun _ _ => rfl), List.unattach_attach]

/-- Everything remembered is what plain recursion computes. -/
def Remembers (pass : Pass Unit Result) (ordered : arena.Ordered)
    (memo : Std.HashMap NodeId Result) : Prop :=
  ∀ (id : NodeId) (result : Result), memo[id]? = some result →
    pass.descend ordered id = .ok result

/-- How a visit ends, given how plain recursion ends. -/
def VisitEnds (pass : Pass Unit Result) (ordered : arena.Ordered) (id : NodeId)
    (memo : Std.HashMap NodeId Result) : Except Error Result → Prop
  | .error error => pass.visit ordered id (memo, ()) = .error error
  | .ok result => ∃ after : Std.HashMap NodeId Result,
      pass.visit ordered id (memo, ()) = .ok (after, ()) ∧
        pass.Remembers ordered after ∧ after[id]? = some result

/-- How visits from left to right end, given how plain recursion ends. -/
def VisitsEnd (pass : Pass Unit Result) (ordered : arena.Ordered) (list : List NodeId)
    (memo : Std.HashMap NodeId Result) : Except Error (List Result) → Prop
  | .error error => pass.visitAll ordered list (memo, ()) = .error error
  | .ok results => ∃ after : Std.HashMap NodeId Result,
      pass.visitAll ordered list (memo, ()) = .ok (after, ()) ∧ pass.Remembers ordered after ∧
        List.Forall₂ (fun id result => after[id]? = some result) list results

private theorem visitAll_descend {pass : Pass Unit Result} {list : List NodeId}
    (ends : ∀ id ∈ list, ∀ memo, pass.Remembers ordered memo →
      pass.VisitEnds ordered id memo (pass.descend ordered id))
    {memo : Std.HashMap NodeId Result} (remembers : pass.Remembers ordered memo) :
    pass.VisitsEnd ordered list memo (list.mapM (pass.descend ordered)) := by
  induction list generalizing memo with
  | nil => exact ⟨memo, rfl, remembers, .nil⟩
  | cons id rest ih =>
    have first := ends id (by simp) memo remembers
    rw [List.mapM_cons]
    cases computed : pass.descend ordered id with
    | error error =>
      rw [computed] at first
      simp only [VisitEnds] at first
      simp [VisitsEnd, visitAll, first, bind, Except.bind]
    | ok result =>
      rw [computed] at first
      obtain ⟨middle, visited, kept, stored⟩ := first
      have more := ih (fun other member => ends other (by simp [member])) kept
      cases others : rest.mapM (pass.descend ordered) with
      | error error =>
        rw [others] at more
        simp only [VisitsEnd] at more
        simp [VisitsEnd, visitAll, visited, more, bind, Except.bind]
      | ok results =>
        rw [others] at more
        obtain ⟨after, remaining, keptLast, matched⟩ := more
        refine ⟨after, ?_, keptLast, .cons (visitAll_retains remaining stored) matched⟩
        simp [visitAll, visited, remaining, bind, Except.bind]

/-- A visit with a memo that remembers rightly ends as plain recursion does. -/
theorem visit_descend {pass : Pass Unit Result} (id : NodeId) {memo : Std.HashMap NodeId Result}
    (remembers : pass.Remembers ordered memo) :
    pass.VisitEnds ordered id memo (pass.descend ordered id) := by
  induction id using NodeId.strongRecOn generalizing memo with
  | ind id ih =>
    cases known : memo[id]? with
    | some result =>
      have present : memo.contains id := by
        rw [Std.HashMap.contains_eq_isSome_getElem?, known]
        rfl
      rw [remembers id result known]
      exact ⟨memo, visit_known present, remembers, known⟩
    | none =>
      have absent : memo.contains id = false := by
        rw [Std.HashMap.contains_eq_isSome_getElem?, known]
        rfl
      cases found : arena.node? id with
      | none =>
        rw [descend_missing found]
        exact visit_dangling absent found
      | some node =>
        have children := visitAll_descend (fun child member memo kept =>
          ih child (ordered id node found child member) kept) remembers
        have recursion : pass.descend ordered id = _ := descend_found found
        have visited : pass.visit ordered id (memo, ()) = _ := visit_found absent found
        cases entered : pass.enter node with
        | error error => simp [VisitEnds, recursion, visited, entered, bind, Except.bind]
        | ok entrance =>
          cases computed : node.children.mapM (pass.descend ordered) with
          | error error =>
            rw [computed] at children
            simp only [VisitsEnd] at children
            simp [VisitEnds, recursion, visited, entered, computed, children, bind, Except.bind]
          | ok results =>
            rw [computed] at children
            obtain ⟨middle, below, kept, matched⟩ := children
            have gathered : pass.arguments id node middle node.children = .ok results :=
              arguments_ok.mpr matched
            cases left : pass.leave node results () with
            | error error =>
              simp [VisitEnds, recursion, visited, entered, computed, below, depart, gathered, left,
                bind, Except.bind]
            | ok pair =>
              obtain ⟨result, _⟩ := pair
              have value : pass.descend ordered id = .ok result := by
                simp [recursion, entered, computed, left, bind, Except.bind, pure, Except.pure]
              rw [value]
              refine ⟨middle.insert id result, ?_, ?_, Std.HashMap.getElem?_insert_self⟩
              · simp [visited, entered, below, depart, gathered, left, bind, Except.bind, pure,
                  Except.pure]
              · intro other stored found
                rw [Std.HashMap.getElem?_insert] at found
                split at found
                · rename_i same
                  cases found
                  rw [← beq_iff_eq.mp same]
                  exact value
                · exact kept other stored found

/-- A stateless walk computes what plain recursion does, with the same error if there is
one. Results that are asked for are always there. -/
theorem run_eq_descend (pass : Pass Unit Result) (formula : Formula) :
    pass.run formula () =
      (pass.descend formula.ordered formula.root).map fun result => (result, ()) := by
  have nothing : pass.Remembers formula.ordered ∅ := by
    intro id result found
    simp at found
  have ended := visit_descend formula.root nothing
  rw [run_eq_visit]
  cases computed : pass.descend formula.ordered formula.root with
  | error error =>
    rw [computed] at ended
    simp only [VisitEnds] at ended
    simp [ended, bind, Except.bind, Except.map]
  | ok result =>
    rw [computed] at ended
    obtain ⟨after, visited, _, stored⟩ := ended
    simp [visited, stored, bind, Except.bind, Except.map]

end Stateless

end Pass

end Formulary
