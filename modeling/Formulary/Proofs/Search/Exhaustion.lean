import Formulary.Proofs.Evaluation
import Formulary.Proofs.Search.OracleErasure
import Formulary.Proofs.Typing
import Formulary.Search.Finite

namespace Formulary.Search

def pointCount (domains : List Domain) : Nat := (domains.map (·.values.length)).prod

private theorem saturate_mul (size factor limit : Nat) :
    min (min size limit * factor) limit = min (size * factor) limit := by
  rcases Nat.le_total size limit with below | above
  · rw [Nat.min_eq_left below]
  · rw [Nat.min_eq_right above]
    rcases Nat.eq_zero_or_pos factor with zero | positive
    · simp [zero]
    · have large := Nat.le_mul_of_pos_right limit positive
      rw [Nat.min_eq_right large, Nat.min_eq_right]
      exact Nat.le_trans large (Nat.mul_le_mul_right factor above)

private theorem productSize_fold (domains : List Domain) (size : Nat) (small : size ≤ maxPoints) :
    domains.foldl (fun size domain => min (size * domain.values.length) maxPoints) size =
      min (size * pointCount domains) maxPoints := by
  induction domains generalizing size with
  | nil => simp [pointCount, small]
  | cons domain rest ih =>
    rw [List.foldl_cons, ih _ (Nat.min_le_right _ _), saturate_mul, Nat.mul_assoc]
    rfl

/-- Points are counted exactly up to the largest number that is counted. -/
theorem productSize_eq (domains : List Domain) :
    productSize domains = min (pointCount domains) maxPoints := by
  rw [productSize, productSize_fold domains 1 (by decide), Nat.one_mul]

theorem pointCount_eq_zero {domains : List Domain} :
    pointCount domains = 0 ↔ domains.any (·.values.isEmpty) = true := by
  induction domains with
  | nil => simp [pointCount]
  | cons domain rest ih =>
    have product : pointCount (domain :: rest) = domain.values.length * pointCount rest := rfl
    rw [product, Nat.mul_eq_zero, ih, List.any_cons, Bool.or_eq_true,
      List.isEmpty_iff_length_eq_zero]

namespace Players

variable {σ τ ω : Type} {progress : Progress σ τ ω} (players : Players σ τ ω)

theorem round_exhausted (unbounded : progress.solver.config.maxLoops = none) {state : σ}
    (asked : players.proposer.propose progress.proposer = (.ok none, state)) :
    ∃ after, players.round progress = (some (.ok .unsat), after) := by
  simp only [round, unbounded, asked]
  exact ⟨_, rfl⟩

theorem round_confirmed (alone : players.oracle = none)
    (unbounded : progress.solver.config.maxLoops = none) {candidate : Row} {state : σ}
    {guard : τ}
    (asked : players.proposer.propose progress.proposer = (.ok (some candidate), state))
    (confirmed : players.refuter.refute candidate progress.refuter = (.ok none, guard)) :
    ∃ after, players.round progress = (some (.ok (.sat candidate)), after) := by
  simp only [round, unbounded, asked, consult, alone, settle, confirmed]
  exact ⟨_, rfl⟩

theorem round_refuted (alone : players.oracle = none)
    (unbounded : progress.solver.config.maxLoops = none) {candidate witness : Row}
    {state next : σ} {guard : τ}
    (asked : players.proposer.propose progress.proposer = (.ok (some candidate), state))
    (refuted : players.refuter.refute candidate progress.refuter = (.ok (some witness), guard))
    (told : players.proposer.strengthen witness state = (.ok (), next)) :
    ∃ after, players.round progress = (none, after) ∧ after.proposer = next ∧
      after.solver.config.maxLoops = none := by
  simp only [round, unbounded, asked, consult, alone, settle, refuted, told]
  exact ⟨_, rfl, rfl, unbounded⟩

end Players

namespace FiniteProblem

variable {problem : FiniteProblem}

/-- The formula fails where a candidate meets a witness. -/
def Refutes (problem : FiniteProblem) (witness candidate : Row) : Prop :=
  problem.formula.satisfies (candidate.merge witness) = .ok false

/-- The formula holds at an outer point, whatever the inner point. -/
def Solved (problem : FiniteProblem) (outer : Nat) : Prop :=
  ∀ inner < pointCount problem.inner, problem.formula.satisfies
    ((point problem.outer outer).merge (point problem.inner inner)) = .ok true

/-- The first outer point at which the formula holds throughout. -/
def FirstSolved (problem : FiniteProblem) (outer : Nat) : Prop :=
  outer < pointCount problem.outer ∧ problem.Solved outer ∧
    ∀ earlier < outer, ¬ problem.Solved earlier

/-- The formula has a truth value wherever an outer point meets an inner one. -/
def Decided (problem : FiniteProblem) : Prop :=
  ∀ outer < pointCount problem.outer, ∀ inner < pointCount problem.inner,
    ∃ holds, problem.formula.satisfies
      ((point problem.outer outer).merge (point problem.inner inner)) = .ok holds

theorem consistent_true {candidate : Row} {witnesses : List Row}
    (kept : problem.consistent candidate witnesses = .ok true) :
    ∀ witness ∈ witnesses, problem.formula.satisfies (candidate.merge witness) = .ok true := by
  induction witnesses with
  | nil => simp
  | cons witness rest ih =>
    rw [consistent] at kept
    split at kept
    · cases kept
    · cases kept
    · rename_i satisfied
      intro other member
      rcases List.mem_cons.mp member with same | later
      · rw [same]
        exact satisfied
      · exact ih kept other later

theorem consistent_false {candidate : Row} {witnesses : List Row}
    (refused : problem.consistent candidate witnesses = .ok false) :
    ∃ witness ∈ witnesses, problem.Refutes witness candidate := by
  induction witnesses with
  | nil => cases refused
  | cons witness rest ih =>
    rw [consistent] at refused
    split at refused
    · cases refused
    · rename_i refuted
      exact ⟨witness, by simp, refuted⟩
    · obtain ⟨other, member, refuted⟩ := ih refused
      exact ⟨other, by simp [member], refuted⟩

theorem consistent_error {candidate : Row} {witnesses : List Row} {error : Error}
    (failed : problem.consistent candidate witnesses = .error error) :
    ∃ witness ∈ witnesses,
      problem.formula.satisfies (candidate.merge witness) = .error error := by
  induction witnesses with
  | nil => cases failed
  | cons witness rest ih =>
    rw [consistent] at failed
    split at failed
    · rename_i fault
      cases failed
      exact ⟨witness, by simp, fault⟩
    · cases failed
    · obtain ⟨other, member, fault⟩ := ih failed
      exact ⟨other, by simp [member], fault⟩

/-- What the proposer's search from a cursor leaves behind: refuted points up to where it
stopped, and there the reason why it stopped. -/
structure Advanced (problem : FiniteProblem) (witnesses : List Row) (cursor : Nat)
    (answer : Except Error (Option Row)) (stop : Nat) : Prop where
  forward : cursor ≤ stop
  refuted : ∀ index, cursor ≤ index → index < stop →
    ∃ witness ∈ witnesses, problem.Refutes witness (point problem.outer index)
  found : ∀ candidate, answer = .ok (some candidate) →
    stop < productSize problem.outer ∧ candidate = point problem.outer stop ∧
      ∀ witness ∈ witnesses, problem.formula.satisfies (candidate.merge witness) = .ok true
  exhausted : answer = .ok none → productSize problem.outer ≤ stop
  failed : ∀ error, answer = .error error → stop < productSize problem.outer ∧
    ∃ witness ∈ witnesses, problem.formula.satisfies
      ((point problem.outer stop).merge witness) = .error error

theorem advance_spec (problem : FiniteProblem) (witnesses : List Row) (cursor : Nat) :
    problem.Advanced witnesses cursor (problem.advance witnesses cursor).1
      (problem.advance witnesses cursor).2 := by
  fun_induction advance problem witnesses cursor with
  | case1 cursor inside candidate error fault =>
    refine ⟨Nat.le_refl _, ?_, nofun, nofun, ?_⟩
    · intro index above below
      exact absurd below (Nat.not_lt.mpr above)
    · intro other same
      cases same
      exact ⟨inside, consistent_error fault⟩
  | case2 cursor inside candidate kept =>
    refine ⟨Nat.le_refl _, ?_, ?_, nofun, nofun⟩
    · intro index above below
      exact absurd below (Nat.not_lt.mpr above)
    · intro other same
      cases same
      exact ⟨inside, rfl, consistent_true kept⟩
  | case3 cursor inside candidate refused ih =>
    refine ⟨Nat.le_of_succ_le ih.forward, ?_, ih.found, ih.exhausted, ih.failed⟩
    intro index above below
    rcases Nat.eq_or_lt_of_le above with same | later
    · subst same
      exact consistent_false refused
    · exact ih.refuted index later below
  | case4 cursor outside =>
    refine ⟨Nat.le_refl _, ?_, nofun, ?_, nofun⟩
    · intro index above below
      exact absurd below (Nat.not_lt.mpr above)
    · intro _
      exact Nat.not_lt.mp outside

/-- What the refuter's search from an index on can answer. -/
theorem refuteFrom_spec (problem : FiniteProblem) (candidate : Row) (index : Nat) :
    match problem.refuteFrom candidate index with
    | .error error => ∃ inner < productSize problem.inner,
        problem.formula.satisfies (candidate.merge (point problem.inner inner)) = .error error
    | .ok none => ∀ inner, index ≤ inner → inner < productSize problem.inner →
        problem.formula.satisfies (candidate.merge (point problem.inner inner)) = .ok true
    | .ok (some witness) => ∃ inner < productSize problem.inner,
        witness = point problem.inner inner ∧ problem.Refutes witness candidate := by
  fun_induction refuteFrom problem candidate index with
  | case1 index inside witness error fault => exact ⟨index, inside, fault⟩
  | case2 index inside witness refuted => exact ⟨index, inside, rfl, refuted⟩
  | case3 index inside witness satisfied ih =>
    split at ih
    · exact ih
    · intro inner above below
      rcases Nat.eq_or_lt_of_le above with same | later
      · subst same
        exact satisfied
      · exact ih inner later below
    · exact ih
  | case4 index outside =>
    intro inner above below
    exact absurd (Nat.lt_of_le_of_lt above below) outside

/-- Where the formula is decided, the refuter answers: it has a counterexample among the inner
points, or the candidate's point is solved. -/
theorem refute_decided (decided : problem.Decided)
    (fits : pointCount problem.inner ≤ maxPoints) {outer : Nat}
    (inside : outer < pointCount problem.outer) :
    (problem.refute (point problem.outer outer) = .ok none ∧ problem.Solved outer) ∨
      ∃ inner < pointCount problem.inner,
        problem.refute (point problem.outer outer) = .ok (some (point problem.inner inner)) ∧
        problem.Refutes (point problem.inner inner) (point problem.outer outer) := by
  have size : productSize problem.inner = pointCount problem.inner := by
    rw [productSize_eq, Nat.min_eq_left fits]
  unfold refute
  split
  · rename_i empty
    refine .inl ⟨rfl, fun inner below => ?_⟩
    rw [pointCount_eq_zero.mpr empty] at below
    exact absurd below (Nat.not_lt_zero inner)
  · have answered := problem.refuteFrom_spec (point problem.outer outer) 0
    rw [size] at answered
    split at answered
    · rename_i error failed
      obtain ⟨inner, below, fault⟩ := answered
      obtain ⟨holds, truth⟩ := decided outer inside inner below
      rw [truth] at fault
      cases fault
    · rename_i none
      exact .inl ⟨none, fun inner below => answered inner (Nat.zero_le inner) below⟩
    · rename_i witness found
      obtain ⟨inner, below, same, refuted⟩ := answered
      subst same
      exact .inr ⟨inner, below, found, refuted⟩

/-- What is known between rounds: the witnesses are inner points, and they refute every outer
point below a frontier that the cursor has not passed. -/
structure Explored (problem : FiniteProblem) (candidates : Candidates) (frontier : Nat) :
    Prop where
  inside : frontier ≤ pointCount problem.outer
  cursor : candidates.cursor ≤ frontier
  witnesses : ∀ witness ∈ candidates.witnesses,
    ∃ inner < pointCount problem.inner, witness = point problem.inner inner
  refuted : ∀ outer < frontier, ∃ witness ∈ candidates.witnesses,
    problem.Refutes witness (point problem.outer outer)

theorem explored_fresh (problem : FiniteProblem) : problem.Explored .fresh 0 :=
  ⟨Nat.zero_le _, Nat.le_refl _, by simp [Candidates.fresh], fun outer below =>
    absurd below (Nat.not_lt_zero outer)⟩

theorem Explored.unsolved {candidates : Candidates} {frontier : Nat}
    (explored : problem.Explored candidates frontier) {outer : Nat} (below : outer < frontier) :
    ¬ problem.Solved outer := by
  intro solved
  obtain ⟨witness, member, refuted⟩ := explored.refuted outer below
  obtain ⟨inner, inside, same⟩ := explored.witnesses witness member
  have satisfied := solved inner inside
  rw [← same, refuted] at satisfied
  cases satisfied

/-- The proposer's answer between rounds: no point is left, or it offers the first one that
no witness refutes, at the frontier or behind it. -/
theorem propose_decided (decided : problem.Decided)
    (fits : pointCount problem.outer ≤ maxPoints) {candidates : Candidates} {frontier : Nat}
    (explored : problem.Explored candidates frontier) :
    (∃ after, problem.propose candidates = (.ok none, after) ∧
        ∀ outer < pointCount problem.outer, ¬ problem.Solved outer) ∨
      ∃ outer, frontier ≤ outer ∧ outer < pointCount problem.outer ∧
        problem.propose candidates =
          (.ok (some (point problem.outer outer)), ⟨candidates.witnesses, outer⟩) ∧
        problem.Explored ⟨candidates.witnesses, outer⟩ outer := by
  have size : productSize problem.outer = pointCount problem.outer := by
    rw [productSize_eq, Nat.min_eq_left fits]
  unfold propose
  split
  · rename_i empty
    refine .inl ⟨candidates, rfl, fun outer below => ?_⟩
    rw [pointCount_eq_zero.mpr empty] at below
    exact absurd below (Nat.not_lt_zero outer)
  · have advanced := problem.advance_spec candidates.witnesses candidates.cursor
    generalize problem.advance candidates.witnesses candidates.cursor = reached at advanced ⊢
    obtain ⟨answer, stop⟩ := reached
    dsimp only at advanced ⊢
    -- Points before the stop are refuted, by the frontier or by the search.
    have refuted : ∀ outer < stop, ∃ witness ∈ candidates.witnesses,
        problem.Refutes witness (point problem.outer outer) := by
      intro outer below
      rcases Nat.lt_or_ge outer candidates.cursor with earlier | later
      · exact explored.refuted outer (Nat.lt_of_lt_of_le earlier explored.cursor)
      · exact advanced.refuted outer later below
    cases answer with
    | error error =>
      obtain ⟨below, witness, member, fault⟩ := advanced.failed error rfl
      obtain ⟨inner, inside, same⟩ := explored.witnesses witness member
      obtain ⟨holds, truth⟩ := decided stop (size ▸ below) inner inside
      rw [← same, fault] at truth
      cases truth
    | ok proposed =>
      cases proposed with
      | none =>
        refine .inl ⟨_, rfl, fun outer below => ?_⟩
        have reached : pointCount problem.outer ≤ stop := size ▸ advanced.exhausted rfl
        have all : problem.Explored ⟨candidates.witnesses, 0⟩ (pointCount problem.outer) :=
          ⟨Nat.le_refl _, Nat.zero_le _, explored.witnesses, fun index inside =>
            refuted index (Nat.lt_of_lt_of_le inside reached)⟩
        exact all.unsolved below
      | some candidate =>
        obtain ⟨below, same, consistent⟩ := advanced.found candidate rfl
        subst same
        refine .inr ⟨stop, ?_, size ▸ below, rfl, size ▸ Nat.le_of_lt below, Nat.le_refl _,
          explored.witnesses, refuted⟩
        -- A point below the frontier is refuted, and the offered one is not.
        by_contra behind
        obtain ⟨witness, member, refuted⟩ := explored.refuted stop (Nat.lt_of_not_le behind)
        have satisfied := consistent witness member
        rw [refuted] at satisfied
        cases satisfied

/-- A counterexample to the point at the frontier moves the frontier past it. -/
theorem Explored.refute {known : List Row} {outer inner : Nat}
    (explored : problem.Explored ⟨known, outer⟩ outer)
    (inside : outer < pointCount problem.outer) (below : inner < pointCount problem.inner)
    (refuted : problem.Refutes (point problem.inner inner) (point problem.outer outer)) :
    problem.Explored ⟨known ++ [point problem.inner inner], outer⟩ (outer + 1) := by
  refine ⟨inside, Nat.le_succ outer, ?_, ?_⟩
  · intro witness member
    rcases List.mem_append.mp member with old | new
    · exact explored.witnesses witness old
    · exact ⟨inner, below, List.mem_singleton.mp new⟩
  · intro index before
    rcases Nat.lt_succ_iff_lt_or_eq.mp before with earlier | same
    · obtain ⟨witness, member, refutes⟩ := explored.refuted index earlier
      exact ⟨witness, List.mem_append_left _ member, refutes⟩
    · subst same
      exact ⟨_, List.mem_append_right _ (List.mem_singleton.mpr rfl), refuted⟩

/-- The right outcome: the first solved point, or none because there is none. -/
def Settles (problem : FiniteProblem) : Outcome → Prop
  | .sat model => ∃ outer, problem.FirstSolved outer ∧ model = point problem.outer outer
  | .unsat => ∀ outer < pointCount problem.outer, ¬ problem.Solved outer

theorem Settles.unique {first second : Outcome} (one : problem.Settles first)
    (other : problem.Settles second) : first = second := by
  cases first with
  | sat model =>
    obtain ⟨outer, ⟨inside, solved, least⟩, same⟩ := one
    cases second with
    | sat model' =>
      obtain ⟨outer', ⟨inside', solved', least'⟩, same'⟩ := other
      rcases Nat.lt_trichotomy outer outer' with before | equal | after
      · exact absurd solved (least' outer before)
      · rw [same, same', equal]
      · exact absurd solved' (least outer' after)
    | unsat => exact absurd solved (other outer inside)
  | unsat =>
    cases second with
    | sat model =>
      obtain ⟨outer, ⟨inside, solved, _⟩, _⟩ := other
      exact absurd solved (one outer inside)
    | unsat => rfl

/-- The exhaustive players without an oracle. -/
def players (problem : FiniteProblem) : Players Candidates Unit Unit :=
  ⟨problem.proposer, problem.refuter, none⟩

/-- Each round that goes on moves the frontier, so rounds settle the problem in time. -/
theorem rounds_settle (decided : problem.Decided)
    (outerFits : pointCount problem.outer ≤ maxPoints)
    (innerFits : pointCount problem.inner ≤ maxPoints) {fuel frontier : Nat}
    {progress : Progress Candidates Unit Unit}
    (unbounded : progress.solver.config.maxLoops = none)
    (explored : problem.Explored progress.proposer frontier)
    (enough : pointCount problem.outer < frontier + fuel) :
    ∃ outcome, (problem.players.rounds fuel progress).1 = some (.ok outcome) ∧
      problem.Settles outcome := by
  induction fuel generalizing progress frontier with
  | zero => exact absurd explored.inside (Nat.not_le.mpr enough)
  | succ fuel ih =>
    rcases propose_decided decided outerFits explored with
      ⟨state, asked, unsolved⟩ | ⟨outer, behind, inside, asked, reached⟩
    · obtain ⟨after, played⟩ := problem.players.round_exhausted unbounded asked
      exact ⟨.unsat, by rw [Players.rounds, played], unsolved⟩
    · rcases refute_decided decided innerFits inside with
        ⟨confirmed, solved⟩ | ⟨inner, below, found, refuted⟩
      · obtain ⟨after, played⟩ := problem.players.round_confirmed rfl unbounded asked
          (Prod.ext confirmed rfl)
        exact ⟨.sat (point problem.outer outer), by rw [Players.rounds, played],
          outer, ⟨inside, solved, fun earlier before => reached.unsolved before⟩, rfl⟩
      · obtain ⟨after, played, proposer, still⟩ := problem.players.round_refuted rfl unbounded
          asked (Prod.ext found rfl) rfl
        have next : problem.Explored after.proposer (outer + 1) := by
          rw [proposer]
          exact reached.refute inside below refuted
        rw [Players.rounds, played]
        exact ih still next (by omega)

theorem run_settles (decided : problem.Decided)
    (outerFits : pointCount problem.outer ≤ maxPoints)
    (innerFits : pointCount problem.inner ≤ maxPoints) {ω : Type} (oracle : Option (Oracle ω))
    (answers : ∀ asked, oracle = some asked → asked.Answers) (solver : Solver)
    (unbounded : solver.config.maxLoops = none) (memory : ω) {fuel : Nat}
    (enough : problem.enoughRounds ≤ fuel) :
    ∃ outcome,
      (solver.run ⟨problem.proposer, problem.refuter, oracle⟩ fuel .fresh () memory).1 =
        some (.ok outcome) ∧ problem.Settles outcome := by
  have size : productSize problem.outer = pointCount problem.outer := by
    rw [productSize_eq, Nat.min_eq_left outerFits]
  have erased := (solver.run_exact ⟨problem.proposer, problem.refuter, oracle⟩ answers fuel
    .fresh () memory).1
  rw [erased]
  exact rounds_settle decided outerFits innerFits unbounded problem.explored_fresh
    (by rw [enoughRounds, size] at enough; omega)

end FiniteProblem

/-- Exhaustive search ends with the first outer point at which the formula holds for all inner
points, and reports that there is none exactly if there is none. The oracle has no say. -/
theorem exhaustive_search_decides (problem : FiniteProblem)
    (outerFits : pointCount problem.outer ≤ maxPoints)
    (innerFits : pointCount problem.inner ≤ maxPoints) (decided : problem.Decided) {ω : Type}
    (oracle : Option (Oracle ω)) (answers : ∀ asked, oracle = some asked → asked.Answers)
    (solver : Solver) (unbounded : solver.config.maxLoops = none) (memory : ω) :
    ∃ outcome,
      (∀ fuel, problem.enoughRounds ≤ fuel →
        (solver.run ⟨problem.proposer, problem.refuter, oracle⟩ fuel .fresh () memory).1 =
          some (.ok outcome)) ∧
      (∀ model, outcome = .sat model ↔
        ∃ outer, problem.FirstSolved outer ∧ model = point problem.outer outer) ∧
      (outcome = .unsat ↔ ¬ ∃ outer < pointCount problem.outer, problem.Solved outer) ∧
      ((∃ domain ∈ problem.outer, domain.values = []) → outcome = .unsat) ∧
      ((∀ domain ∈ problem.outer, domain.values ≠ []) →
        (∃ domain ∈ problem.inner, domain.values = []) →
          outcome = .sat (point problem.outer 0)) := by
  obtain ⟨outcome, _, settles⟩ := FiniteProblem.run_settles decided outerFits innerFits oracle
    answers solver unbounded memory (Nat.le_refl problem.enoughRounds)
  have unsat : outcome = .unsat ↔
      ¬ ∃ outer < pointCount problem.outer, problem.Solved outer := by
    constructor
    · rintro rfl ⟨outer, inside, solved⟩
      exact settles outer inside solved
    · intro none
      have nowhere : problem.Settles .unsat := fun outer inside solved =>
        none ⟨outer, inside, solved⟩
      exact settles.unique nowhere
  refine ⟨outcome, ?_, ?_, unsat, ?_, ?_⟩
  · intro fuel enough
    obtain ⟨other, answered, same⟩ := FiniteProblem.run_settles decided outerFits innerFits oracle
      answers solver unbounded memory enough
    rw [answered, same.unique settles]
  · intro model
    constructor
    · rintro rfl
      exact settles
    · intro first
      have here : problem.Settles (.sat model) := first
      exact settles.unique here
  · intro hollow
    have count : pointCount problem.outer = 0 := pointCount_eq_zero.mpr (by simpa using hollow)
    refine unsat.mpr ?_
    rintro ⟨outer, inside, _⟩
    rw [count] at inside
    exact Nat.not_lt_zero outer inside
  · intro inhabited hollow
    have none : pointCount problem.inner = 0 := pointCount_eq_zero.mpr (by simpa using hollow)
    have some : 0 < pointCount problem.outer := by
      apply Nat.pos_of_ne_zero
      intro zero
      obtain ⟨domain, member, empty⟩ := by simpa using pointCount_eq_zero.mp zero
      exact inhabited domain member empty
    have solved : problem.Solved 0 := by
      intro inner inside
      rw [none] at inside
      exact absurd inside (Nat.not_lt_zero inner)
    have here : problem.Settles (.sat (point problem.outer 0)) :=
      ⟨0, ⟨some, solved, fun earlier before => absurd before (Nat.not_lt_zero earlier)⟩, rfl⟩
    exact settles.unique here

/-- One of two truth values holds. -/
def eitherHolds : Formula where
  arena := .ofNodes #[⟨.symbol "x", [], .bool⟩, ⟨.symbol "y", [], .bool⟩, ⟨.or, [0, 1], .bool⟩]
  root := 2
  ordered := by decide
  rooted := by decide

/-- A truth value that makes one of two hold, whatever the other. -/
def eitherProblem : FiniteProblem :=
  ⟨eitherHolds, [⟨"x", [.bool false, .bool true]⟩], [⟨"y", [.bool false, .bool true]⟩]⟩

theorem eitherProblem_satisfies {outer inner : Nat} (outerInside : outer < 2)
    (innerInside : inner < 2) :
    eitherProblem.formula.satisfies
        ((point eitherProblem.outer outer).merge (point eitherProblem.inner inner)) =
      .ok (decide (outer = 1) || decide (inner = 1)) := by
  have outerCases : outer = 0 ∨ outer = 1 := by omega
  have innerCases : inner = 0 ∨ inner = 1 := by omega
  rw [Formula.satisfies, Formula.evaluate, Formula.evaluateAt_eq]
  rcases outerCases with rfl | rfl <;> rcases innerCases with rfl | rfl <;>
    exact eq_ok_of_toOption (by decide +kernel)

/-- The first value offered fails, and the second is the answer, against a fickle oracle. -/
theorem exhaustive_search_decides_either :
    pointCount eitherProblem.outer ≤ maxPoints ∧ pointCount eitherProblem.inner ≤ maxPoints ∧
      eitherProblem.Decided ∧ fickle.Answers ∧
      (∀ fuel, 3 ≤ fuel →
        ((Solver.new ⟨none, true⟩).run ⟨eitherProblem.proposer, eitherProblem.refuter,
          some fickle⟩ fuel .fresh () false).1 =
            some (.ok (.sat (point eitherProblem.outer 1)))) := by
  have answers : fickle.Answers := fun _ mood => ⟨mood, rfl⟩
  have decided : eitherProblem.Decided := fun _ outerInside _ innerInside =>
    ⟨_, eitherProblem_satisfies outerInside innerInside⟩
  have solved : eitherProblem.Solved 1 := fun _ inside =>
    eitherProblem_satisfies (by decide) inside
  have unsolved : ¬ eitherProblem.Solved 0 := by
    intro claimed
    have holds := claimed 0 (by decide)
    rw [eitherProblem_satisfies (by decide) (by decide)] at holds
    cases holds
  have first : eitherProblem.FirstSolved 1 := by
    refine ⟨by decide, solved, fun earlier before => ?_⟩
    rw [Nat.lt_one_iff.mp before]
    exact unsolved
  obtain ⟨outcome, halts, sat, _⟩ := exhaustive_search_decides eitherProblem (by decide)
    (by decide) decided (some fickle) (fun asked taken => by cases taken; exact answers)
    (Solver.new ⟨none, true⟩) rfl false
  rw [(sat (point eitherProblem.outer 1)).mpr ⟨1, first, rfl⟩] at halts
  exact ⟨by decide, by decide, decided, answers, halts⟩

end Formulary.Search
