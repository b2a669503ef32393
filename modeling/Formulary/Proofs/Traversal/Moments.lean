import Formulary.Proofs.Traversal.Turns

namespace Formulary

namespace Pass

variable {State Result : Type}

/-- An agenda and a passage that a run comes to, after some turns. -/
inductive Moment (pass : Pass State Result) (formula : Formula) (state : State) :
    List Task → Passage State Result → Prop where
  | start : Moment pass formula state [.enter formula.root] (∅, state)
  | turn {agenda next : List Task} {passage after : Passage State Result} {left : List NodeId}
      (before : Moment pass formula state agenda passage)
      (turn : Turn pass formula.arena agenda passage left next after) :
      Moment pass formula state next after

/-- A result that a run remembers for a node at some moment. -/
def Computes (pass : Pass State Result) (formula : Formula) (state : State) (id : NodeId)
    (result : Result) : Prop :=
  ∃ agenda passage, pass.Moment formula state agenda passage ∧ passage.1[id]? = some result

variable {pass : Pass State Result} {formula : Formula} {state : State}

/-- Tasks are about nodes that the root depends on. -/
theorem Moment.reaches {agenda : List Task} {passage : Passage State Result}
    (moment : pass.Moment formula state agenda passage) :
    ∀ task ∈ agenda, formula.arena.Reaches formula.root task.id := by
  induction moment with
  | start => simpa [Task.id] using Arena.Reaches.root
  | turn _ turn ih =>
    exact (turn.within (fun _ _ path found _ member => path.child found member) ih).2

theorem Computes.inv {id : NodeId} {result : Result}
    (computed : pass.Computes formula state id result) :
    ∃ node results, formula.arena.Reaches formula.root id ∧
      formula.arena.node? id = some node ∧
      List.Forall₂ (pass.Computes formula state) node.children results ∧
      ∃ before after, pass.leave node results before = .ok (result, after) := by
  obtain ⟨agenda, passage, moment, found⟩ := computed
  induction moment with
  | start => simp at found
  | @turn agenda next passage after left before turn ih =>
    cases turn with
    | skip | enter => exact ih found
    | @leave other node _ _ _ unknown stored departed =>
      obtain ⟨results, value, gathered, combined, inserted⟩ := depart_ok departed
      rw [inserted, Std.HashMap.getElem?_insert] at found
      split at found
      · rename_i same
        obtain rfl := beq_iff_eq.mp same
        cases found
        exact ⟨node, results, before.reaches _ List.mem_cons_self, stored,
          (arguments_ok.mp gathered).imp fun child result there => ⟨_, _, before, there⟩, _, _,
          combined⟩
      · exact ih found

theorem Walk.moment {agenda : List Task} {passage : Passage State Result} {trace : List NodeId}
    {outcome : Except Error (Passage State Result)}
    (walk : Walk pass formula.arena agenda passage trace outcome)
    (moment : pass.Moment formula state agenda passage) :
    (∀ final, outcome = .ok final → pass.Moment formula state [] final) ∧
      ∀ error, outcome = .error error → ∃ agenda passage left,
        pass.Moment formula state agenda passage ∧
          Fails pass formula.arena agenda passage left error := by
  induction walk with
  | finish =>
    refine ⟨?_, nofun⟩
    rintro final ⟨⟩
    exact moment
  | fail failed =>
    refine ⟨nofun, ?_⟩
    rintro error ⟨⟩
    exact ⟨_, _, _, moment, failed⟩
  | turn first _ ih => exact ih (moment.turn first)

theorem run_computes {result : Result} {final : State}
    (done : pass.run formula state = .ok (result, final)) :
    pass.Computes formula state formula.root result := by
  obtain ⟨trace, completed⟩ := pass.run_completes formula state
  rw [done] at completed
  cases completed with
  | answer walk atRoot => exact ⟨_, _, (walk.moment .start).1 _ rfl, atRoot⟩

theorem arguments_error {id : NodeId} {node : Node} {memo : Std.HashMap NodeId Result}
    {children : List NodeId} {error : Error}
    (lost : pass.arguments id node memo children = .error error) :
    ∃ child, error = pass.childMissing id node child := by
  induction children with
  | nil => cases lost
  | cons child rest ih =>
    rw [arguments] at lost
    split at lost
    · cases lost
      exact ⟨child, rfl⟩
    · split at lost
      · rename_i later
        cases lost
        exact ih later
      · cases lost

/-- A run fails because a node is refused when it is entered, or when it is left with results that
were computed, or because a result is asked for that is not there. -/
theorem run_fails_at {error : Error} (failed : pass.run formula state = .error error) :
    (∃ node, pass.enter node = .error error) ∨
      (∃ id node child, error = pass.childMissing id node child) ∨
      (∃ root, error = pass.rootMissing root) ∨
      ∃ node results before, List.Forall₂ (pass.Computes formula state) node.children results ∧
        pass.leave node results before = .error error := by
  obtain ⟨trace, completed⟩ := pass.run_completes formula state
  rw [failed] at completed
  cases completed with
  | missing => exact .inr (.inr (.inl ⟨_, rfl⟩))
  | fail walk =>
    obtain ⟨agenda, passage, left, moment, fails⟩ := (walk.moment .start).2 _ rfl
    cases fails with
    | dangling unknown missing =>
      obtain ⟨node, found⟩ := (moment.reaches _ List.mem_cons_self).found formula.ordered
        formula.rooted
      rw [missing] at found
      cases found
    | refused unknown found refused => exact .inl ⟨_, refused⟩
    | lost unknown found lost =>
      obtain ⟨child, blamed⟩ := arguments_error lost
      exact .inr (.inl ⟨_, _, child, blamed⟩)
    | rejected unknown found gathered rejected =>
      exact .inr (.inr (.inr ⟨_, _, _, (arguments_ok.mp gathered).imp fun child result there =>
        ⟨_, _, moment, there⟩, rejected⟩))

end Pass

end Formulary
