import Formulary.Proofs.Traversal.Turns

/-! Depth-first order. The preorder of a node lists what is below it as if nothing were shared.
A walk gives results to exactly what the preorder of its root lists, and the symbols of a root
are listed in the order in which its preorder meets them first. -/
namespace Formulary

namespace Arena

variable {arena : Arena}

theorem Reaches.trans {root middle id : NodeId} (first : arena.Reaches root middle)
    (second : arena.Reaches middle id) : arena.Reaches root id := by
  induction second with
  | root => exact first
  | child _ found member ih => exact ih.child found member

theorem Reaches.le (ordered : arena.Ordered) {root id : NodeId} (path : arena.Reaches root id) :
    id ≤ root := by
  induction path with
  | root => exact Nat.le_refl root
  | child _ found member ih => exact Nat.le_trans (Nat.le_of_lt (ordered _ _ found _ member)) ih

/-- A node before its children, and these from left to right. A node that is shared is listed
each time it is met. -/
def preorder (arena : Arena) (ordered : arena.Ordered) (id : NodeId) : List NodeId :=
  match found : arena.node? id with
  | none => [id]
  | some node =>
    id :: node.children.attach.flatMap fun child =>
      have := ordered id node found child.1 child.2
      arena.preorder ordered child.1
termination_by id.val

variable {ordered : arena.Ordered}

theorem preorder_missing {id : NodeId} (missing : arena.node? id = none) :
    arena.preorder ordered id = [id] := by
  rw [preorder]
  split
  · rfl
  · rename_i found
    rw [missing] at found
    cases found

theorem preorder_found {id : NodeId} {node : Node} (found : arena.node? id = some node) :
    arena.preorder ordered id = id :: node.children.flatMap (arena.preorder ordered) := by
  rw [preorder]
  split
  · rename_i missing
    rw [found] at missing
    cases missing
  · rename_i stored again
    rw [found] at again
    cases again
    rw [List.flatMap_subtype (g := arena.preorder ordered) (fun _ _ => rfl),
      List.unattach_attach]

theorem self_mem_preorder (id : NodeId) : id ∈ arena.preorder ordered id := by
  cases found : arena.node? id with
  | none =>
    rw [preorder_missing found]
    exact List.mem_singleton_self id
  | some node =>
    rw [preorder_found found]
    exact List.mem_cons_self

theorem child_mem_preorder {root parent child : NodeId} {node : Node}
    (listed : parent ∈ arena.preorder ordered root) (found : arena.node? parent = some node)
    (member : child ∈ node.children) : child ∈ arena.preorder ordered root := by
  induction root using NodeId.strongRecOn with
  | ind root ih =>
    cases opened : arena.node? root with
    | none =>
      rw [preorder_missing opened] at listed
      rw [List.mem_singleton.mp listed, opened] at found
      cases found
    | some top =>
      rw [preorder_found opened] at listed ⊢
      apply List.mem_cons_of_mem
      rw [List.mem_flatMap]
      rcases List.mem_cons.mp listed with same | below
      · rw [same, opened] at found
        cases found
        exact ⟨child, member, self_mem_preorder child⟩
      · obtain ⟨middle, inTop, inside⟩ := List.mem_flatMap.mp below
        exact ⟨middle, inTop, ih middle (ordered root top opened middle inTop) inside⟩

/-- The preorder lists exactly what the root depends on. -/
theorem mem_preorder_iff {root id : NodeId} :
    id ∈ arena.preorder ordered root ↔ arena.Reaches root id := by
  constructor
  · induction root using NodeId.strongRecOn with
    | ind root ih =>
      intro listed
      cases found : arena.node? root with
      | none =>
        rw [preorder_missing found] at listed
        rw [List.mem_singleton.mp listed]
        exact .root
      | some node =>
        rw [preorder_found found] at listed
        rcases List.mem_cons.mp listed with rfl | below
        · exact .root
        · obtain ⟨child, member, inside⟩ := List.mem_flatMap.mp below
          have path : arena.Reaches root child := Reaches.root.child found member
          exact path.trans (ih child (ordered root node found child member) inside)
  · intro path
    induction path with
    | root => exact self_mem_preorder root
    | child _ found member ih => exact child_mem_preorder ih found member

/-- What is met along an order for the first time, apart from what was seen before. -/
def firsts (seen : NodeId → Bool) (order : List NodeId) : List NodeId :=
  (order.filter fun id => !seen id).eraseDups

theorem firsts_append (seen : NodeId → Bool) (first second : List NodeId) :
    firsts seen (first ++ second) =
      firsts seen first ++ firsts (fun id => seen id || first.contains id) second := by
  rw [firsts, List.filter_append, List.eraseDups_append, firsts, firsts, List.removeAll,
    List.filter_filter]
  congr 2
  apply List.filter_congr
  intro id _
  cases known : seen id <;> simp [known]

theorem firsts_congr {seen other : NodeId → Bool} {order : List NodeId}
    (same : ∀ id ∈ order, seen id = other id) : firsts seen order = firsts other order := by
  unfold firsts
  congr 1
  apply List.filter_congr
  intro id member
  rw [same id member]

theorem firsts_seen {seen : NodeId → Bool} {order : List NodeId}
    (all : ∀ id ∈ order, seen id = true) : firsts seen order = [] := by
  have nothing : order.filter (fun id => !seen id) = [] := by
    rw [List.filter_eq_nil_iff]
    intro id member
    simp [all id member]
  rw [firsts, nothing, List.eraseDups_nil]

theorem firsts_singleton {seen : NodeId → Bool} {id : NodeId} (unseen : seen id = false) :
    firsts seen [id] = [id] := by
  simp [firsts, unseen, List.eraseDups_cons]

/-- A node that was not seen comes before what is met below it. -/
theorem firsts_cons {seen : NodeId → Bool} {id : NodeId} (unseen : seen id = false)
    (order : List NodeId) :
    firsts seen (id :: order) =
      id :: firsts (fun other => seen other || decide (other = id)) order := by
  have split := firsts_append seen [id] order
  rw [firsts_singleton unseen] at split
  simpa using split

def symbolAt? (arena : Arena) (id : NodeId) : Option (String × TermSort) :=
  (arena.node? id).bind Node.symbol?

/-- Whatever was seen below a bound was seen with all that it depends on. -/
def Settled (arena : Arena) (ordered : arena.Ordered) (bound : Nat) (unseen : List NodeId) :
    Prop :=
  ∀ id : NodeId, id < bound → id ∉ unseen → ∀ below ∈ arena.preorder ordered id, below ∉ unseen

/-- What is still unseen after an order was gone through. -/
def remaining (unseen order : List NodeId) : List NodeId :=
  unseen.filter fun id => !order.contains id

theorem mem_remaining {unseen order : List NodeId} {id : NodeId} :
    id ∈ remaining unseen order ↔ id ∈ unseen ∧ id ∉ order := by
  simp [remaining]

theorem remaining_append (unseen first second : List NodeId) :
    remaining unseen (first ++ second) = remaining (remaining unseen first) second := by
  rw [remaining, remaining, remaining, List.filter_filter]
  apply List.filter_congr
  intro id _
  simp [Bool.and_comm]

theorem Settled.remaining {bound : Nat} {unseen : List NodeId}
    (settled : arena.Settled ordered bound unseen) (id : NodeId) :
    arena.Settled ordered bound (remaining unseen (arena.preorder ordered id)) := by
  intro seen small absent below inside listed
  rw [mem_remaining] at absent listed
  by_cases unseenBefore : seen ∈ unseen
  · -- It was seen on the way through the preorder, and so was what it depends on.
    have onTheWay : seen ∈ arena.preorder ordered id := by
      by_contra missed
      exact absent ⟨unseenBefore, missed⟩
    rw [mem_preorder_iff] at onTheWay inside
    exact listed.2 (mem_preorder_iff.mpr (onTheWay.trans inside))
  · exact settled seen small unseenBefore below inside listed.1

/-- The symbols that an order meets for the first time. -/
def symbolsAlong (arena : Arena) (unseen order : List NodeId) : List (String × TermSort) :=
  (firsts (fun id => !unseen.contains id) order).filterMap arena.symbolAt?

theorem symbolsAlong_append (unseen first second : List NodeId) :
    arena.symbolsAlong unseen (first ++ second) =
      arena.symbolsAlong unseen first ++ arena.symbolsAlong (remaining unseen first) second := by
  rw [symbolsAlong, firsts_append, List.filterMap_append]
  congr 2
  apply firsts_congr
  intro id _
  by_cases unseenBefore : id ∈ unseen <;> simp [mem_remaining, unseenBefore]

theorem symbolsAlong_singleton {unseen : List NodeId} {id : NodeId} (member : id ∈ unseen) :
    arena.symbolsAlong unseen [id] = (arena.symbolAt? id).toList := by
  rw [symbolsAlong, firsts_singleton (by simpa using member)]
  cases symbol : arena.symbolAt? id <;> simp [symbol]

theorem erase_eq_remaining {unseen : List NodeId} (once : unseen.Nodup) (id : NodeId) :
    unseen.erase id = remaining unseen [id] := by
  rw [once.erase_eq_filter, remaining]
  apply List.filter_congr
  intro other _
  simp [bne, beq_eq_decide]

/-- Working off a list first comes to collecting the symbols along an order. -/
def Collects (arena : Arena) (unseen list order : List NodeId) : Prop :=
  ∀ rest, arena.symbolsFrom unseen (list ++ rest) =
    (arena.symbolsFrom (remaining unseen order) rest).map (arena.symbolsAlong unseen order ++ ·)

namespace Collects

variable {unseen first second order later : List NodeId}

theorem seen (all : ∀ id ∈ order, id ∉ unseen)
    (skips : ∀ rest, arena.symbolsFrom unseen (first ++ rest) = arena.symbolsFrom unseen rest) :
    arena.Collects unseen first order := by
  intro rest
  have nothing : arena.symbolsAlong unseen order = [] := by
    rw [symbolsAlong, firsts_seen (by simpa using all), List.filterMap_nil]
  have everything : remaining unseen order = unseen := by
    apply List.filter_eq_self.mpr
    intro id member
    simpa using fun listed => all id listed member
  rw [skips, nothing, everything]
  cases arena.symbolsFrom unseen rest <;> rfl

theorem append (here : arena.Collects unseen first order)
    (there : arena.Collects (remaining unseen order) second later) :
    arena.Collects unseen (first ++ second) (order ++ later) := by
  intro rest
  rw [List.append_assoc, here, there, remaining_append, symbolsAlong_append]
  cases arena.symbolsFrom _ rest with
  | error error => rfl
  | ok more => simp [Except.map]

theorem all {bound : Nat} {list : List NodeId}
    (each : ∀ id ∈ list, ∀ unseen, unseen.Nodup → arena.Settled ordered bound unseen →
      arena.Collects unseen [id] (arena.preorder ordered id))
    (once : unseen.Nodup) (settled : arena.Settled ordered bound unseen) :
    arena.Collects unseen list (list.flatMap (arena.preorder ordered)) := by
  induction list generalizing unseen with
  | nil =>
    apply Collects.seen
    · simp
    · intro rest
      rfl
  | cons id others ih =>
    have here := each id List.mem_cons_self unseen once settled
    have there := ih (fun other member => each other (List.mem_cons_of_mem id member))
      (once.filter _) (settled.remaining id)
    exact here.append there

end Collects

/-- A position that was not seen is collected before what its children lead to. -/
theorem symbolsFrom_unseen {unseen : List NodeId} {id : NodeId} {node : Node}
    (found : arena.node? id = some node) (member : id ∈ unseen) (rest : List NodeId) :
    arena.symbolsFrom unseen (id :: rest) =
      (arena.symbolsFrom (unseen.erase id) (node.children ++ rest)).map
        ((arena.symbolAt? id).toList ++ ·) := by
  rw [symbolsFrom]
  simp only [found, if_pos member, symbolAt?, Option.bind_some]
  cases arena.symbolsFrom (unseen.erase id) (node.children ++ rest) <;> rfl

theorem symbolsFrom_seen {unseen : List NodeId} {id : NodeId} {node : Node}
    (found : arena.node? id = some node) (absent : id ∉ unseen) (rest : List NodeId) :
    arena.symbolsFrom unseen (id :: rest) = arena.symbolsFrom unseen rest := by
  rw [symbolsFrom]
  simp only [found, if_neg absent]

/-- Working off a position collects the symbols along its preorder. -/
theorem collects_preorder {id : NodeId} (inside : id < arena.size) {unseen : List NodeId}
    (once : unseen.Nodup) (settled : arena.Settled ordered (id + 1) unseen) :
    arena.Collects unseen [id] (arena.preorder ordered id) := by
  induction id using NodeId.strongRecOn generalizing unseen with
  | ind id ih =>
    obtain ⟨node, found⟩ : ∃ node, arena.node? id = some node :=
      ⟨arena.nodes[id], Array.getElem?_eq_getElem inside⟩
    by_cases member : id ∈ unseen
    · have settledBelow : arena.Settled ordered id (unseen.erase id) := by
        intro seen small absent below listed still
        rw [once.mem_erase_iff] at absent still
        have seenBefore : seen ∉ unseen := fun kept => absent ⟨Fin.ne_of_lt small, kept⟩
        exact settled seen (Nat.lt_succ_of_lt small) seenBefore below listed still.2
      have children : arena.Collects (unseen.erase id) node.children
          (node.children.flatMap (arena.preorder ordered)) := by
        apply Collects.all _ (once.erase id) settledBelow
        intro child listed others onceOthers settledOthers
        have smaller := ordered id node found child listed
        apply ih child smaller (Nat.lt_trans smaller inside) onceOthers
        intro seen small
        exact settledOthers seen (Nat.lt_of_lt_of_le small smaller)
      intro rest
      rw [List.singleton_append, symbolsFrom_unseen found member, children, preorder_found found,
        ← List.singleton_append, remaining_append, symbolsAlong_append,
        symbolsAlong_singleton member, ← erase_eq_remaining once]
      cases arena.symbolsFrom _ rest with
      | error error => rfl
      | ok more => simp [Except.map]
    · apply Collects.seen
      · exact settled id (Nat.lt_succ_self id) member
      · exact symbolsFrom_seen found member

theorem symbols_eq {root : NodeId} (inside : root < arena.size) :
    arena.symbols root =
      .ok ((arena.preorder ordered root).eraseDups.filterMap arena.symbolAt?) := by
  have settled : arena.Settled ordered (root + 1) arena.ids := by
    intro id small absent
    rw [mem_ids] at absent
    exact absurd (Nat.lt_of_lt_of_le small inside) absent
  have collected := collects_preorder inside arena.ids_nodup settled []
  have unseen : firsts (fun id => !arena.ids.contains id)
      (arena.preorder ordered root) = (arena.preorder ordered root).eraseDups := by
    rw [firsts, List.filter_eq_self.mpr]
    intro id listed
    have small := Nat.lt_of_le_of_lt ((mem_preorder_iff.mp listed).le ordered) inside
    simpa using mem_ids.mpr small
  rw [symbols, ← List.append_nil [root], collected, symbolsFrom, symbolsAlong, unseen]
  simp [Except.map]

end Arena

namespace Pass

variable {State Result : Type} {pass : Pass State Result} {arena : Arena} {ordered : arena.Ordered}

/-- Along an order new results have come in, and there are results for all that has one depends
on. -/
structure Covers (arena : Arena) (order : List NodeId) (before after : Std.HashMap NodeId Result) :
    Prop where
  closed : Closed arena after
  contains_iff : ∀ id, after.contains id ↔ before.contains id ∨ id ∈ order

theorem Covers.append {first second : List NodeId}
    {before middle after : Std.HashMap NodeId Result} (here : Covers arena first before middle)
    (there : Covers arena second middle after) : Covers arena (first ++ second) before after := by
  refine ⟨there.closed, fun id => ?_⟩
  rw [there.contains_iff, here.contains_iff, List.mem_append, or_assoc]

theorem visitAll_covers {list : List NodeId}
    (each : ∀ id ∈ list, ∀ before next : Passage State Result, Closed arena before.1 →
      pass.visit ordered id before = .ok next →
        Covers arena (arena.preorder ordered id) before.1 next.1)
    {passage after : Passage State Result} (closed : Closed arena passage.1)
    (visited : pass.visitAll ordered list passage = .ok after) :
    Covers arena (list.flatMap (arena.preorder ordered)) passage.1 after.1 := by
  induction list generalizing passage with
  | nil =>
    cases visited
    exact ⟨closed, by simp⟩
  | cons id rest ih =>
    obtain ⟨middle, first, others⟩ := visitAll_cons visited
    have here := each id List.mem_cons_self passage middle closed first
    have there := ih (fun other member => each other (List.mem_cons_of_mem id member))
      here.closed others
    exact here.append there

theorem visit_covers {id : NodeId} {passage after : Passage State Result}
    (closed : Closed arena passage.1) (visited : pass.visit ordered id passage = .ok after) :
    Covers arena (arena.preorder ordered id) passage.1 after.1 := by
  induction id using NodeId.strongRecOn generalizing passage after with
  | ind id ih =>
    rcases visit_ok visited with ⟨known, rfl⟩ | ⟨node, middle, _, found, _, below, left⟩
    · refine ⟨closed, fun other => ⟨.inl, ?_⟩⟩
      rintro (there | listed)
      · exact there
      · exact closed.reaches known (Arena.mem_preorder_iff.mp listed)
    · have children := visitAll_covers (fun child member before next ready done =>
        ih child (ordered id node found child member) ready done) closed below
      obtain ⟨_, result, _, _, inserted⟩ := depart_ok left
      refine ⟨depart_closed found left children.closed, fun other => ?_⟩
      rw [inserted, Std.HashMap.contains_insert, Bool.or_eq_true, beq_iff_eq,
        children.contains_iff, Arena.preorder_found found, List.mem_cons, or_left_comm,
        @eq_comm NodeId]

end Pass

end Formulary
