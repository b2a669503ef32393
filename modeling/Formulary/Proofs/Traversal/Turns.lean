import Formulary.Proofs.Traversal
import Mathlib.Data.List.Nodup

/-! Walks turn by turn. Each turn takes a task from the agenda; it leaves at most one node, and
one that has no result yet. So a walk leaves no node twice, a walk that succeeds leaves exactly
the nodes that its root depends on, and one that fails has been refused at one of them. -/
namespace Formulary

namespace Pass

variable {State Result : Type}

/-- One turn of a walk: the agenda and the passage before it, the node that it leaves, if any,
and the agenda and the passage after it. -/
inductive Turn (pass : Pass State Result) (arena : Arena) :
    List Task → Passage State Result → List NodeId → List Task → Passage State Result → Prop where
  | skip {task : Task} {rest : List Task} {passage : Passage State Result}
      (known : passage.1.contains task.id) :
      Turn pass arena (task :: rest) passage [] rest passage
  | enter {id : NodeId} {node : Node} {rest : List Task} {passage : Passage State Result}
      (unknown : passage.1.contains id = false) (found : arena.node? id = some node)
      (entered : pass.enter node = .ok ()) :
      Turn pass arena (.enter id :: rest) passage []
        ((node.children.filter fun child => !passage.1.contains child).map Task.enter ++
          Task.leave id :: rest) passage
  | leave {id : NodeId} {node : Node} {rest : List Task} {passage after : Passage State Result}
      (unknown : passage.1.contains id = false) (found : arena.node? id = some node)
      (left : pass.depart id node passage = .ok after) :
      Turn pass arena (.leave id :: rest) passage [id] rest after

/-- A turn that ends the walk with an error, and the node that it was to leave, if any. -/
inductive Fails (pass : Pass State Result) (arena : Arena) :
    List Task → Passage State Result → List NodeId → Error → Prop where
  | dangling {task : Task} {rest : List Task} {passage : Passage State Result}
      (unknown : passage.1.contains task.id = false) (missing : arena.node? task.id = none) :
      Fails pass arena (task :: rest) passage [] (.dangling task.id)
  | refused {id : NodeId} {node : Node} {rest : List Task} {passage : Passage State Result}
      {error : Error} (unknown : passage.1.contains id = false)
      (found : arena.node? id = some node) (refused : pass.enter node = .error error) :
      Fails pass arena (.enter id :: rest) passage [] error
  | lost {id : NodeId} {node : Node} {rest : List Task} {passage : Passage State Result}
      {error : Error} (unknown : passage.1.contains id = false)
      (found : arena.node? id = some node)
      (lost : pass.arguments id node passage.1 node.children = .error error) :
      Fails pass arena (.leave id :: rest) passage [] error
  | rejected {id : NodeId} {node : Node} {rest : List Task} {passage : Passage State Result}
      {results : List Result} {error : Error} (unknown : passage.1.contains id = false)
      (found : arena.node? id = some node)
      (gathered : pass.arguments id node passage.1 node.children = .ok results)
      (rejected : pass.leave node results passage.2 = .error error) :
      Fails pass arena (.leave id :: rest) passage [id] error

/-- Finitely many turns that work off an agenda, or end with an error: the nodes that are left,
in order, and the outcome. -/
inductive Walk (pass : Pass State Result) (arena : Arena) :
    List Task → Passage State Result → List NodeId → Except Error (Passage State Result) →
      Prop where
  | finish {passage : Passage State Result} : Walk pass arena [] passage [] (.ok passage)
  | fail {agenda : List Task} {passage : Passage State Result} {left : List NodeId}
      {error : Error} (failed : Fails pass arena agenda passage left error) :
      Walk pass arena agenda passage left (.error error)
  | turn {agenda next : List Task} {passage after : Passage State Result}
      {left trace : List NodeId} {outcome : Except Error (Passage State Result)}
      (first : Turn pass arena agenda passage left next after)
      (rest : Walk pass arena next after trace outcome) :
      Walk pass arena agenda passage (left ++ trace) outcome

section Turns

variable {pass : Pass State Result} {arena : Arena} {agenda next : List Task}
  {passage after : Passage State Result} {left trace : List NodeId}
  {outcome : Except Error (Passage State Result)}

theorem Turn.loop_eq (ordered : arena.Ordered)
    (turn : Turn pass arena agenda passage left next after) :
    pass.loop ordered agenda passage.1 passage.2 = pass.loop ordered next after.1 after.2 := by
  cases turn with
  | skip known => exact loop_known known _
  | enter unknown found entered =>
    rw [loop_open unknown found, entered]
    rfl
  | leave unknown found left =>
    rw [loop_leave unknown found, left]
    rfl

theorem Fails.loop_eq (ordered : arena.Ordered) {error : Error}
    (failed : Fails pass arena agenda passage left error) :
    pass.loop ordered agenda passage.1 passage.2 = .error error := by
  cases failed with
  | dangling unknown missing => exact loop_dangling unknown missing _
  | refused unknown found refused =>
    rw [loop_open unknown found, refused]
    rfl
  | lost unknown found lost =>
    rw [loop_leave unknown found, depart, lost]
    rfl
  | rejected unknown found gathered rejected =>
    rw [loop_leave unknown found, depart, gathered]
    simp [rejected, bind, Except.bind]

/-- A walk ends as working off the agenda does. -/
theorem Walk.loop_eq (ordered : arena.Ordered)
    (walk : Walk pass arena agenda passage trace outcome) :
    pass.loop ordered agenda passage.1 passage.2 = outcome := by
  induction walk with
  | finish => rw [loop]
  | fail failed => exact failed.loop_eq ordered
  | turn first _ ih => rw [first.loop_eq ordered, ih]

/-- Working off an agenda takes finitely many turns. -/
theorem loop_walks (pass : Pass State Result) (ordered : arena.Ordered) (agenda : List Task)
    (passage : Passage State Result) :
    ∃ trace, Walk pass arena agenda passage trace
      (pass.loop ordered agenda passage.1 passage.2) := by
  obtain ⟨memo, state⟩ := passage
  fun_induction pass.loop ordered agenda memo state with
  | case1 => exact ⟨_, .finish⟩
  | case2 memo state task rest known ih =>
    obtain ⟨trace, walk⟩ := ih
    exact ⟨_, .turn (.skip known) walk⟩
  | case3 memo state task rest unknown missing =>
    exact ⟨_, .fail (.dangling (eq_false_of_ne_true unknown) missing)⟩
  | case4 memo state rest node id found error refused unknown =>
    exact ⟨_, .fail (.refused (eq_false_of_ne_true unknown) found refused)⟩
  | case5 memo state rest node id found entered fresh unknown ih =>
    obtain ⟨trace, walk⟩ := ih
    exact ⟨_, .turn (.enter (eq_false_of_ne_true unknown) found entered) walk⟩
  | case6 memo state rest node id found error lost unknown =>
    exact ⟨_, .fail (.lost (eq_false_of_ne_true unknown) found lost)⟩
  | case7 memo state rest node id found results gathered error rejected unknown =>
    exact ⟨_, .fail (.rejected (eq_false_of_ne_true unknown) found gathered rejected)⟩
  | case8 memo state rest node id found results gathered result next left unknown ih =>
    obtain ⟨trace, walk⟩ := ih
    have departed : pass.depart id node (memo, state) = .ok (memo.insert id result, next) := by
      simp [depart, gathered, left, bind, Except.bind, pure, Except.pure]
    exact ⟨_, .turn (.leave (eq_false_of_ne_true unknown) found departed) walk⟩

theorem Turn.contains_iff (turn : Turn pass arena agenda passage left next after) (id : NodeId) :
    after.1.contains id ↔ passage.1.contains id ∨ id ∈ left := by
  cases turn with
  | skip | enter => simp
  | leave unknown found left =>
    obtain ⟨_, result, _, _, inserted⟩ := depart_ok left
    rw [inserted, Std.HashMap.contains_insert, Bool.or_eq_true, beq_iff_eq, List.mem_singleton,
      or_comm, @eq_comm NodeId]

theorem Turn.fresh (turn : Turn pass arena agenda passage left next after) :
    left.Nodup ∧ ∀ id ∈ left, passage.1.contains id = false := by
  cases turn with
  | skip | enter => simp
  | leave unknown => simpa using unknown

/-- Only nodes without results are left, and none of them twice. -/
theorem Walk.fresh (walk : Walk pass arena agenda passage trace outcome) :
    trace.Nodup ∧ ∀ id ∈ trace, passage.1.contains id = false := by
  induction walk with
  | finish => simp
  | fail failed =>
    cases failed with
    | dangling | refused | lost => simp
    | rejected unknown => simpa using unknown
  | @turn _ _ passage _ left trace _ first _ ih =>
    obtain ⟨distinct, unknown⟩ := ih
    have apart : ∀ id ∈ trace, passage.1.contains id = false ∧ id ∉ left := by
      intro id member
      have absent := unknown id member
      rw [← Bool.not_eq_true, first.contains_iff, not_or, Bool.not_eq_true] at absent
      exact absent
    refine ⟨List.nodup_append.mpr ⟨first.fresh.1, distinct, ?_⟩, fun id member => ?_⟩
    · rintro id here other later rfl
      exact (apart id later).2 here
    · exact (List.mem_append.mp member).elim (first.fresh.2 id) fun later => (apart id later).1

section Within

variable {Within : NodeId → Prop}

theorem Turn.within
    (closed : ∀ id node, Within id → arena.node? id = some node →
      ∀ child ∈ node.children, Within child)
    (turn : Turn pass arena agenda passage left next after)
    (within : ∀ task ∈ agenda, Within task.id) :
    (∀ id ∈ left, Within id) ∧ ∀ task ∈ next, Within task.id := by
  cases turn with
  | skip =>
    exact ⟨by simp, fun task member => within task (List.mem_cons_of_mem _ member)⟩
  | @enter id node rest passage unknown found =>
    have here : Within id := within (.enter id) List.mem_cons_self
    refine ⟨by simp, fun task member => ?_⟩
    rcases List.mem_append.mp member with below | later
    · obtain ⟨child, listed, rfl⟩ := List.mem_map.mp below
      exact closed id node here found child (List.mem_filter.mp listed).1
    · rcases List.mem_cons.mp later with rfl | old
      · exact here
      · exact within task (List.mem_cons_of_mem _ old)
  | @leave id =>
    refine ⟨?_, fun task member => within task (List.mem_cons_of_mem _ member)⟩
    intro other member
    rw [List.mem_singleton.mp member]
    exact within (.leave id) List.mem_cons_self

theorem Walk.within
    (closed : ∀ id node, Within id → arena.node? id = some node →
      ∀ child ∈ node.children, Within child)
    (walk : Walk pass arena agenda passage trace outcome)
    (within : ∀ task ∈ agenda, Within task.id) : ∀ id ∈ trace, Within id := by
  induction walk with
  | finish => simp
  | fail failed =>
    cases failed with
    | dangling | refused | lost => simp
    | @rejected id =>
      intro other member
      rw [List.mem_singleton.mp member]
      exact within (.leave id) List.mem_cons_self
  | turn first _ ih =>
    obtain ⟨here, later⟩ := first.within closed within
    intro id member
    exact (List.mem_append.mp member).elim (here id) (ih later id)

end Within

/-- Where there is a result, there are results for the children. -/
def Closed (arena : Arena) (memo : Std.HashMap NodeId Result) : Prop :=
  ∀ id node, memo.contains id → arena.node? id = some node →
    ∀ child ∈ node.children, memo.contains child

theorem found_of_contains {memo : Std.HashMap NodeId Result} {id : NodeId}
    (present : memo.contains id) : ∃ result, memo[id]? = some result := by
  rw [Std.HashMap.contains_eq_isSome_getElem?, Option.isSome_iff_exists] at present
  exact present

theorem contains_of_found {memo : Std.HashMap NodeId Result} {id : NodeId} {result : Result}
    (found : memo[id]? = some result) : memo.contains id := by
  rw [Std.HashMap.contains_eq_isSome_getElem?, found]
  rfl

theorem Closed.reaches {memo : Std.HashMap NodeId Result} (closed : Closed arena memo)
    {root id : NodeId} (known : memo.contains root) (path : arena.Reaches root id) :
    memo.contains id := by
  induction path with
  | root => exact known
  | child path found member ih => exact closed _ _ ih found _ member

theorem depart_closed {id : NodeId} {node : Node} (found : arena.node? id = some node)
    (left : pass.depart id node passage = .ok after) (closed : Closed arena passage.1) :
    Closed arena after.1 := by
  obtain ⟨results, result, gathered, _, inserted⟩ := depart_ok left
  intro other otherNode present otherFound child member
  rw [inserted, Std.HashMap.contains_insert, Bool.or_eq_true, beq_iff_eq] at present
  suffices kept : passage.1.contains child by
    rw [inserted, Std.HashMap.contains_insert, kept, Bool.or_true]
  rcases present with rfl | old
  · rw [found] at otherFound
    cases otherFound
    obtain ⟨result, remembered⟩ := related_of_mem (arguments_ok.mp gathered) member
    exact contains_of_found remembered
  · exact closed other otherNode old otherFound child member

theorem Turn.closed (turn : Turn pass arena agenda passage left next after)
    (closed : Closed arena passage.1) : Closed arena after.1 := by
  cases turn with
  | skip | enter => exact closed
  | leave unknown found left => exact depart_closed found left closed

/-- A walk that succeeds ends with results for the nodes that it left and for those that had
one before. -/
theorem Walk.succeeds (walk : Walk pass arena agenda passage trace (.ok after))
    (closed : Closed arena passage.1) :
    Closed arena after.1 ∧ ∀ id, after.1.contains id ↔ passage.1.contains id ∨ id ∈ trace := by
  generalize ended : Except.ok after = outcome at walk
  induction walk with
  | finish =>
    cases ended
    simpa using closed
  | fail => cases ended
  | turn first _ ih =>
    obtain ⟨closedAfter, present⟩ := ih (first.closed closed) ended
    refine ⟨closedAfter, fun id => ?_⟩
    rw [present, first.contains_iff, List.mem_append, or_assoc]

end Turns

/-- A whole run, turn by turn: the nodes that are left, in order, and the answer. -/
inductive Completes (pass : Pass State Result) (formula : Formula) (state : State) :
    List NodeId → Except Error (Result × State) → Prop where
  | fail {trace : List NodeId} {error : Error}
      (walk : Walk pass formula.arena [.enter formula.root] (∅, state) trace (.error error)) :
      Completes pass formula state trace (.error error)
  | missing {trace : List NodeId} {memo : Std.HashMap NodeId Result} {final : State}
      (walk : Walk pass formula.arena [.enter formula.root] (∅, state) trace (.ok (memo, final)))
      (absent : memo[formula.root]? = none) :
      Completes pass formula state trace (.error (pass.rootMissing formula.root))
  | answer {trace : List NodeId} {memo : Std.HashMap NodeId Result} {final : State}
      {result : Result}
      (walk : Walk pass formula.arena [.enter formula.root] (∅, state) trace (.ok (memo, final)))
      (atRoot : memo[formula.root]? = some result) :
      Completes pass formula state trace (.ok (result, final))

section Runs

variable {pass : Pass State Result} {formula : Formula} {state : State} {trace : List NodeId}
  {answer : Except Error (Result × State)}

theorem Completes.run_eq (completed : Completes pass formula state trace answer) :
    pass.run formula state = answer := by
  cases completed with
  | fail walk =>
    have looped := walk.loop_eq formula.ordered
    simp [run, looped]
  | missing walk absent =>
    have looped := walk.loop_eq formula.ordered
    simp [run, looped, absent]
  | answer walk atRoot =>
    have looped := walk.loop_eq formula.ordered
    simp [run, looped, atRoot]

/-- A run takes finitely many turns. -/
theorem run_completes (pass : Pass State Result) (formula : Formula) (state : State) :
    ∃ trace, Completes pass formula state trace (pass.run formula state) := by
  obtain ⟨trace, walk⟩ := loop_walks pass formula.ordered [.enter formula.root] (∅, state)
  refine ⟨trace, ?_⟩
  unfold run
  split
  · rename_i error looped
    exact .fail (looped ▸ walk)
  · rename_i memo final looped
    split
    · rename_i absent
      exact .missing (looped ▸ walk) absent
    · rename_i result atRoot
      exact .answer (looped ▸ walk) atRoot

theorem Completes.walks (completed : Completes pass formula state trace answer) :
    ∃ outcome, Walk pass formula.arena [.enter formula.root] (∅, state) trace outcome := by
  cases completed with
  | fail walk | missing walk | answer walk => exact ⟨_, walk⟩

theorem Completes.nodup (completed : Completes pass formula state trace answer) :
    trace.Nodup := by
  obtain ⟨outcome, walk⟩ := completed.walks
  exact walk.fresh.1

theorem Completes.reaches (completed : Completes pass formula state trace answer) :
    ∀ id ∈ trace, formula.arena.Reaches formula.root id := by
  obtain ⟨outcome, walk⟩ := completed.walks
  exact walk.within (fun _ _ path found _ member => path.child found member)
    (by simpa [Task.id] using Arena.Reaches.root)

/-- A run that succeeds leaves every node that the root depends on. -/
theorem Completes.covers {result : Result} {final : State}
    (completed : Completes pass formula state trace (.ok (result, final))) {id : NodeId}
    (path : formula.arena.Reaches formula.root id) : id ∈ trace := by
  cases completed with
  | answer walk atRoot =>
    rename_i memo
    obtain ⟨closed, present⟩ := walk.succeeds (by simp [Closed])
    have left : ∀ id, memo.contains id ↔ id ∈ trace := by simpa using present
    exact (left id).mp (closed.reaches (contains_of_found atRoot) path)

/-- What every departure keeps, holds at the end of a run, and then there are results for all
nodes that the root depends on. -/
theorem run_reached {Holds : Passage State Result → Prop} {result : Result} {final : State}
    (start : Holds (∅, state))
    (step : ∀ id node passage after, formula.arena.Reaches formula.root id →
      formula.arena.node? id = some node → Holds passage → passage.1.contains id = false →
      pass.depart id node passage = .ok after → Holds after)
    (done : pass.run formula state = .ok (result, final)) :
    ∃ memo : Std.HashMap NodeId Result, Holds (memo, final) ∧
      memo[formula.root]? = some result ∧
      ∀ id, formula.arena.Reaches formula.root id → ∃ result, memo[id]? = some result := by
  let Kept : Passage State Result → Prop := fun passage =>
    Holds passage ∧ Closed formula.arena passage.1
  have kept : ∀ id node passage after, formula.arena.Reaches formula.root id →
      formula.arena.node? id = some node → Kept passage → passage.1.contains id = false →
      pass.depart id node passage = .ok after → Kept after := by
    intro id node passage after path found holds unknown left
    exact ⟨step id node passage after path found holds.1 unknown left,
      depart_closed found left holds.2⟩
  obtain ⟨memo, ⟨holds, closed⟩, atRoot⟩ := run_sound ⟨start, by simp [Closed]⟩ kept done
  exact ⟨memo, holds, atRoot, fun id path =>
    found_of_contains (closed.reaches (contains_of_found atRoot) path)⟩

theorem run_left {Left : Node → Prop} {result : Result} {final : State}
    (step : ∀ id node passage after, pass.depart id node passage = .ok after → Left node)
    (done : pass.run formula state = .ok (result, final)) {id : NodeId} {node : Node}
    (path : formula.arena.Reaches formula.root id) (found : formula.arena.node? id = some node) :
    Left node := by
  let Holds : Passage State Result → Prop := fun passage =>
    ∀ id node, passage.1.contains id → formula.arena.node? id = some node → Left node
  have kept : ∀ id node passage after, formula.arena.Reaches formula.root id →
      formula.arena.node? id = some node → Holds passage → passage.1.contains id = false →
      pass.depart id node passage = .ok after → Holds after := by
    intro id node passage after _ found holds _ left other stored known there
    obtain ⟨_, _, _, _, inserted⟩ := depart_ok left
    rw [inserted, Std.HashMap.contains_insert, Bool.or_eq_true, beq_iff_eq] at known
    rcases known with rfl | known
    · rw [found] at there
      cases there
      exact step id node passage after left
    · exact holds other stored known there
  have start : Holds (∅, state) := by
    intro id node known
    simp at known
  obtain ⟨memo, holds, _, all⟩ := run_reached start kept done
  obtain ⟨stored, there⟩ := all id path
  exact holds id node (contains_of_found there) found

end Runs

section Faults

variable {pass : Pass State Result} {arena : Arena} {ordered : arena.Ordered}
  {Within : NodeId → Prop} {Holds : Passage State Result → Prop}

/-- Why a walk may fail: a node is refused when it is entered, or when it is left with the
results of its children. -/
inductive Fault (pass : Pass State Result) (arena : Arena) (Within : NodeId → Prop)
    (Holds : Passage State Result → Prop) (error : Error) : Prop where
  | entering {id : NodeId} {node : Node} (within : Within id)
      (found : arena.node? id = some node) (refused : pass.enter node = .error error)
  | leaving {id : NodeId} {node : Node} {passage : Passage State Result} {results : List Result}
      (within : Within id) (found : arena.node? id = some node) (holds : Holds passage)
      (entered : pass.enter node = .ok ())
      (gathered : List.Forall₂ (fun child result => passage.1[child]? = some result)
        node.children results)
      (rejected : pass.leave node results passage.2 = .error error)

theorem arguments_present (pass : Pass State Result) (id : NodeId) (node : Node)
    {memo : Std.HashMap NodeId Result} {children : List NodeId}
    (present : ∀ child ∈ children, memo.contains child) :
    ∃ results, pass.arguments id node memo children = .ok results := by
  induction children with
  | nil => exact ⟨[], rfl⟩
  | cons child rest ih =>
    obtain ⟨results, gathered⟩ := ih fun other member => present other (by simp [member])
    obtain ⟨result, found⟩ := found_of_contains (present child List.mem_cons_self)
    exact ⟨result :: results, by simp [arguments, found, gathered]⟩

theorem visit_contains {id : NodeId} {passage after : Passage State Result}
    (visited : pass.visit ordered id passage = .ok after) : after.1.contains id :=
  (@visit_sound _ _ _ _ _ (fun _ => True) (fun _ => True) (fun _ _ _ _ _ _ => trivial)
    (fun _ _ _ _ _ _ _ _ _ => trivial) _ trivial _ _ trivial visited).2

theorem visitAll_contains {list : List NodeId} {passage after : Passage State Result}
    (visited : pass.visitAll ordered list passage = .ok after) :
    ∀ id ∈ list, after.1.contains id := by
  induction list generalizing passage with
  | nil => simp
  | cons first rest ih =>
    obtain ⟨middle, one, remaining⟩ := visitAll_cons visited
    intro id member
    rcases List.mem_cons.mp member with rfl | later
    · obtain ⟨result, found⟩ := found_of_contains (visit_contains one)
      exact contains_of_found (visitAll_retains remaining found)
    · exact ih remaining id later

/-- Visits from left to right fail at the first visit that does. -/
theorem visitAll_fails {list : List NodeId} {error : Error}
    (sound : ∀ id ∈ list, ∀ before next, Holds before →
      pass.visit ordered id before = .ok next → Holds next ∧ next.1.contains id)
    {passage : Passage State Result} (holds : Holds passage)
    (failed : pass.visitAll ordered list passage = .error error) :
    ∃ id ∈ list, ∃ before, Holds before ∧ pass.visit ordered id before = .error error := by
  induction list generalizing passage with
  | nil => cases failed
  | cons id rest ih =>
    rw [visitAll] at failed
    cases first : pass.visit ordered id passage with
    | error here =>
      rw [first] at failed
      cases failed
      exact ⟨id, List.mem_cons_self, passage, holds, first⟩
    | ok middle =>
      rw [first] at failed
      obtain ⟨other, member, before, ready, later⟩ :=
        ih (fun other member => sound other (List.mem_cons_of_mem id member))
          (sound id List.mem_cons_self passage middle holds first).1 failed
      exact ⟨other, List.mem_cons_of_mem id member, before, ready, later⟩

theorem visit_fails
    (closed : ∀ id node, Within id → arena.node? id = some node →
      ∀ child ∈ node.children, Within child)
    (stored : ∀ id, Within id → ∃ node, arena.node? id = some node)
    (step : ∀ id node passage after, Within id → arena.node? id = some node → Holds passage →
      passage.1.contains id = false → pass.depart id node passage = .ok after → Holds after)
    {id : NodeId} (within : Within id) {passage : Passage State Result} (holds : Holds passage)
    {error : Error} (failed : pass.visit ordered id passage = .error error) :
    Fault pass arena Within Holds error := by
  induction id using NodeId.strongRecOn generalizing passage with
  | ind id ih =>
    cases known : passage.1.contains id with
    | true =>
      rw [visit_known known] at failed
      cases failed
    | false =>
      obtain ⟨node, found⟩ := stored id within
      have below : ∀ child ∈ node.children, ∀ before next, Holds before →
          pass.visit ordered child before = .ok next → Holds next ∧ next.1.contains child :=
        fun child member _ _ ready done =>
          visit_sound closed step (closed id node within found child member) ready done
      rw [visit_found known found] at failed
      cases entered : pass.enter node with
      | error refusal =>
        rw [entered] at failed
        cases failed
        exact .entering within found entered
      | ok entrance =>
        rw [entered] at failed
        cases visited : pass.visitAll ordered node.children passage with
        | error first =>
          obtain ⟨child, member, before, ready, later⟩ :=
            visitAll_fails below holds visited
          rw [visited] at failed
          cases failed
          exact ih child (ordered id node found child member)
            (closed id node within found child member) ready later
        | ok middle =>
          have ready := visitAll_sound below holds visited
          obtain ⟨results, gathered⟩ := arguments_present pass id node (visitAll_contains visited)
          rw [visited] at failed
          cases left : pass.leave node results middle.2 with
          | error refusal =>
            have same : refusal = error := by
              simpa [depart, gathered, left, bind, Except.bind] using failed
            rw [same] at left
            exact .leaving within found ready entered (arguments_ok.mp gathered) left
          | ok pair =>
            simp [depart, gathered, left, bind, Except.bind, pure, Except.pure] at failed

/-- A run fails for a fault at a node that the root depends on. -/
theorem run_fails {pass : Pass State Result} {Holds : Passage State Result → Prop}
    {formula : Formula} {state : State} {error : Error} (start : Holds (∅, state))
    (step : ∀ id node passage after, formula.arena.Reaches formula.root id →
      formula.arena.node? id = some node → Holds passage → passage.1.contains id = false →
      pass.depart id node passage = .ok after → Holds after)
    (failed : pass.run formula state = .error error) :
    Fault pass formula.arena (formula.arena.Reaches formula.root) Holds error := by
  rw [run_eq_visit] at failed
  cases visited : pass.visit formula.ordered formula.root (∅, state) with
  | error first =>
    rw [visited] at failed
    cases failed
    exact visit_fails (fun _ _ path found _ member => path.child found member)
      (fun _ path => path.found formula.ordered formula.rooted) step .root start visited
  | ok after =>
    obtain ⟨result, atRoot⟩ := found_of_contains (visit_contains visited)
    simp [visited, atRoot, bind, Except.bind] at failed

end Faults

end Pass

end Formulary
