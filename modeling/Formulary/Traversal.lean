import Formulary.Formula
import Std.Data.HashMap

/-! One walk for every computation over a formula. A node is entered before its
children and left after them; it is left once, however many parents it has, and what
was computed there is remembered. -/
namespace Formulary

/-- What a computation does at a node: refuse it when it is entered, and combine the
results of its children when it is left. The state passes from node to node. -/
structure Pass (State Result : Type) where
  enter : Node → Except Error Unit
  leave : Node → List Result → State → Except Error (Result × State)
  childMissing : NodeId → Node → NodeId → Error
  rootMissing : NodeId → Error

/-- Work still to do. -/
inductive Task where
  | enter (id : NodeId)
  | leave (id : NodeId)

def Task.id : Task → NodeId
  | enter id => id
  | leave id => id

def totalEffort : List Nat → Nat
  | [] => 0
  | first :: rest => first + totalEffort rest

private theorem totalEffort_append (left right : List Nat) :
    totalEffort (left ++ right) = totalEffort left + totalEffort right := by
  induction left with
  | nil => simp [totalEffort]
  | cons first rest ih => simp only [List.cons_append, totalEffort, ih, Nat.add_assoc]

namespace Arena

/-- An upper bound for the steps that entering a node can take. -/
def effort (arena : Arena) (ordered : arena.Ordered) (id : NodeId) : Nat :=
  match found : arena.node? id with
  | none => 1
  | some node =>
    2 + totalEffort (node.children.attach.map fun child =>
      have := ordered id node found child.1 child.2
      effort arena ordered child.1)
termination_by id.val

theorem effort_eq {arena : Arena} (ordered : arena.Ordered) {id : NodeId} {node : Node}
    (found : arena.node? id = some node) :
    arena.effort ordered id = 2 + totalEffort (node.children.map (arena.effort ordered)) := by
  rw [effort]
  split
  · rename_i missing
    rw [found] at missing
    cases missing
  · rename_i stored again
    rw [found] at again
    cases again
    simp

end Arena

def Task.effort {arena : Arena} (ordered : arena.Ordered) : Task → Nat
  | enter id => arena.effort ordered id
  | leave _ => 1

private theorem effort_filter {arena : Arena} (ordered : arena.Ordered) (keep : NodeId → Bool)
    (children : List NodeId) :
    totalEffort (((children.filter keep).map Task.enter).map (Task.effort ordered)) ≤
      totalEffort (children.map (arena.effort ordered)) := by
  induction children with
  | nil => simp
  | cons child rest ih =>
    by_cases kept : keep child
    · simp only [List.filter_cons, kept, if_true, List.map_cons, totalEffort, Task.effort]
      exact Nat.add_le_add_left ih _
    · simp only [List.filter_cons, kept, Bool.false_eq_true, if_false, List.map_cons,
        totalEffort]
      exact Nat.le_trans ih (Nat.le_add_left _ _)

private theorem effort_positive {arena : Arena} (ordered : arena.Ordered) (task : Task) :
    0 < task.effort ordered := by
  cases task with
  | enter id =>
    rw [Task.effort, Arena.effort]
    split <;> omega
  | leave id => simp [Task.effort]

namespace Pass

variable {State Result : Type}

/-- The remembered results of a node's children, from left to right. -/
def arguments (pass : Pass State Result) (id : NodeId) (node : Node)
    (memo : Std.HashMap NodeId Result) : List NodeId → Except Error (List Result)
  | [] => .ok []
  | child :: rest =>
    match memo[child]? with
    | none => .error (pass.childMissing id node child)
    | some result =>
      match pass.arguments id node memo rest with
      | .error error => .error error
      | .ok results => .ok (result :: results)

/-- Works off the agenda. Children that have results already are not entered again. -/
def loop (pass : Pass State Result) {arena : Arena} (ordered : arena.Ordered)
    (agenda : List Task) (memo : Std.HashMap NodeId Result) (state : State) :
    Except Error (Std.HashMap NodeId Result × State) :=
  match agenda with
  | [] => .ok (memo, state)
  | task :: rest =>
    if memo.contains task.id then pass.loop ordered rest memo state
    else
      match _found : arena.node? task.id with
      | none => .error (.dangling task.id)
      | some node =>
        match task with
        | .enter id =>
          match pass.enter node with
          | .error error => .error error
          | .ok () =>
            let fresh := node.children.filter fun child => !memo.contains child
            pass.loop ordered (fresh.map Task.enter ++ Task.leave id :: rest) memo state
        | .leave id =>
          match pass.arguments id node memo node.children with
          | .error error => .error error
          | .ok results =>
            match pass.leave node results state with
            | .error error => .error error
            | .ok (result, next) => pass.loop ordered rest (memo.insert id result) next
termination_by totalEffort (agenda.map (Task.effort ordered))
decreasing_by
  · have positive := effort_positive ordered task
    simp only [List.map_cons, totalEffort]
    omega
  · have bound := effort_filter ordered (fun child => !memo.contains child) node.children
    have opened := Arena.effort_eq ordered _found
    simp only [Task.id] at opened
    simp only [List.map_append, List.map_cons, totalEffort_append, totalEffort, Task.effort,
      opened]
    omega
  · simp only [List.map_cons, totalEffort, Task.effort]
    omega

/-- The result at the root, with the state that the walk ends in. -/
def run (pass : Pass State Result) (formula : Formula) (state : State) :
    Except Error (Result × State) :=
  match pass.loop formula.ordered [Task.enter formula.root] ∅ state with
  | .error error => .error error
  | .ok (memo, final) =>
    match memo[formula.root]? with
    | none => .error (pass.rootMissing formula.root)
    | some result => .ok (result, final)

end Pass

end Formulary
