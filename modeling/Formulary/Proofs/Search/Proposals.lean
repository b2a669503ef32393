import Formulary.Proofs.Search.Exhaustion
import Mathlib.Order.Bounds.Defs

namespace Formulary.Search

/-- What can be asked of a proposer. -/
inductive Request where
  | propose
  | strengthen (witness : Row)

/-- The counterexample that a request brings. -/
def Request.witness? : Request → Option Row
  | propose => none
  | strengthen witness => some witness

/-- The state after a request, whatever the answer was. -/
def Proposer.serve {σ : Type} (proposer : Proposer σ) (state : σ) : Request → σ
  | .propose => (proposer.propose state).2
  | .strengthen witness => (proposer.strengthen witness state).2

def Proposer.serveAll {σ : Type} (proposer : Proposer σ) (state : σ)
    (requests : List Request) : σ :=
  requests.foldl proposer.serve state

namespace FiniteProblem

variable {problem : FiniteProblem} {candidates : Candidates}

def Refuted (problem : FiniteProblem) (witnesses : List Row) (outer : Nat) : Prop :=
  ∃ witness ∈ witnesses, problem.Refutes witness (point problem.outer outer)

/-- An outer point satisfies the formula with each of the counterexamples. -/
def Consistent (problem : FiniteProblem) (witnesses : List Row) (outer : Nat) : Prop :=
  outer < pointCount problem.outer ∧ ∀ witness ∈ witnesses,
    problem.formula.satisfies ((point problem.outer outer).merge witness) = .ok true

theorem Refuted.mono {known more : List Row} {outer : Nat} (refuted : problem.Refuted known outer)
    (kept : known ⊆ more) : problem.Refuted more outer := by
  obtain ⟨witness, member, refutes⟩ := refuted
  exact ⟨witness, kept member, refutes⟩

theorem Consistent.not_refuted {witnesses : List Row} {outer : Nat}
    (consistent : problem.Consistent witnesses outer) : ¬ problem.Refuted witnesses outer := by
  rintro ⟨witness, member, refuted⟩
  have satisfied := consistent.2 witness member
  rw [refuted] at satisfied
  cases satisfied

/-- Every point behind the cursor is refuted. -/
def Swept (problem : FiniteProblem) (candidates : Candidates) : Prop :=
  ∀ outer < candidates.cursor, problem.Refuted candidates.witnesses outer

theorem swept_fresh (problem : FiniteProblem) : problem.Swept .fresh := by
  intro outer behind
  exact absurd behind (Nat.not_lt_zero outer)

theorem witnesses_propose (candidates : Candidates) :
    (problem.propose candidates).2.witnesses = candidates.witnesses := by
  unfold propose
  split <;> rfl

/-- A proposal is a search from the cursor on. Without points there is nothing to search, and
the search has no more to say. -/
theorem propose_advanced (problem : FiniteProblem) (candidates : Candidates) :
    problem.Advanced candidates.witnesses candidates.cursor (problem.propose candidates).1
      (problem.propose candidates).2.cursor := by
  by_cases empty : problem.outer.any (·.values.isEmpty) = true
  · have none : productSize problem.outer ≤ candidates.cursor := by
      rw [productSize_eq, pointCount_eq_zero.mpr empty, Nat.zero_min]
      exact Nat.zero_le candidates.cursor
    rw [propose, if_pos empty]
    refine ⟨Nat.le_refl _, ?_, nofun, fun _ => none, nofun⟩
    intro index above below
    exact absurd below (Nat.not_lt.mpr above)
  · rw [propose, if_neg empty]
    exact problem.advance_spec candidates.witnesses candidates.cursor

/-- What was refuted stays refuted, and the search passes only points that are. -/
theorem Swept.propose (swept : problem.Swept candidates) :
    problem.Swept (problem.propose candidates).2 := by
  have advanced := problem.propose_advanced candidates
  intro outer behind
  rw [witnesses_propose]
  by_cases earlier : outer < candidates.cursor
  · exact swept outer earlier
  · exact advanced.refuted outer (Nat.le_of_not_lt earlier) behind

theorem Swept.serve (swept : problem.Swept candidates) (request : Request) :
    problem.Swept (problem.proposer.serve candidates request) := by
  cases request with
  | propose => exact swept.propose
  | strengthen witness =>
    intro outer behind
    exact (swept outer behind).mono (List.subset_append_left _ _)

theorem Swept.serveAll (swept : problem.Swept candidates) (requests : List Request) :
    problem.Swept (problem.proposer.serveAll candidates requests) := by
  induction requests generalizing candidates with
  | nil => exact swept
  | cons request rest ih => exact ih (swept.serve request)

theorem witnesses_serveAll (candidates : Candidates) (requests : List Request) :
    (problem.proposer.serveAll candidates requests).witnesses =
      candidates.witnesses ++ requests.filterMap Request.witness? := by
  induction requests generalizing candidates with
  | nil => simp [Proposer.serveAll]
  | cons request rest ih =>
    have next : problem.proposer.serveAll candidates (request :: rest) =
      problem.proposer.serveAll (problem.proposer.serve candidates request) rest := rfl
    rw [next, ih]
    cases request with
    | propose =>
      have kept : (problem.proposer.serve candidates .propose).witnesses = candidates.witnesses :=
        witnesses_propose candidates
      rw [kept]
      rfl
    | strengthen witness => exact List.append_assoc candidates.witnesses [witness] _

theorem cursor_le_serve (candidates : Candidates) (request : Request) :
    candidates.cursor ≤ (problem.proposer.serve candidates request).cursor := by
  cases request with
  | propose => exact (problem.propose_advanced candidates).forward
  | strengthen witness => exact Nat.le_refl candidates.cursor

theorem cursor_le_serveAll (candidates : Candidates) (requests : List Request) :
    candidates.cursor ≤ (problem.proposer.serveAll candidates requests).cursor := by
  induction requests generalizing candidates with
  | nil => exact Nat.le_refl candidates.cursor
  | cons request rest ih => exact Nat.le_trans (cursor_le_serve candidates request) (ih _)

/-- A search that starts where another stopped stops there at once, for the same reason. -/
theorem advance_again (witnesses : List Row) (cursor : Nat) :
    problem.advance witnesses (problem.advance witnesses cursor).2 =
      problem.advance witnesses cursor := by
  fun_induction advance problem witnesses cursor with
  | case1 cursor inside candidate error fault =>
    simp only [advance, dif_pos inside, candidate, fault]
  | case2 cursor inside candidate kept =>
    simp only [advance, dif_pos inside, candidate, kept]
  | case3 cursor inside candidate refused ih => exact ih
  | case4 cursor outside => rw [advance, dif_neg outside]

theorem propose_again (candidates : Candidates) :
    problem.propose (problem.propose candidates).2 = problem.propose candidates := by
  by_cases empty : problem.outer.any (·.values.isEmpty) = true
  · simp only [propose, if_pos empty]
  · simp only [propose, if_neg empty, advance_again]

/-- Proposals that follow each other repeat the first one. -/
theorem propose_repeated (candidates : Candidates) {requests : List Request}
    (unchanged : ∀ request ∈ requests, request = .propose) :
    problem.propose (problem.proposer.serveAll (problem.propose candidates).2 requests) =
      problem.propose candidates := by
  induction requests generalizing candidates with
  | nil => exact propose_again candidates
  | cons request rest ih =>
    have first : request = .propose := unchanged request List.mem_cons_self
    subst first
    have others := ih (problem.propose candidates).2 fun other member =>
      unchanged other (List.mem_cons_of_mem _ member)
    exact others.trans (propose_again candidates)

/-- What a state of the proposer stands for, and what a proposal in it means. -/
structure Exact (problem : FiniteProblem) (candidates : Candidates) : Prop where
  /-- Points behind the cursor are refuted. -/
  swept : problem.Swept candidates
  /-- An offer is the first point that is consistent with all counterexamples. -/
  offered : ∀ candidate, (problem.propose candidates).1 = .ok (some candidate) →
    ∃ outer, candidate = point problem.outer outer ∧
      IsLeast {index | problem.Consistent candidates.witnesses index} outer
  /-- If nothing is offered, every point is refuted; there may be no points at all. -/
  exhausted : (problem.propose candidates).1 = .ok none →
    ∀ outer < pointCount problem.outer, problem.Refuted candidates.witnesses outer
  /-- A proposal fails only where evaluation does, behind nothing but refuted points. -/
  failed : ∀ error, (problem.propose candidates).1 = .error error →
    ∃ outer < pointCount problem.outer,
      (∀ earlier < outer, problem.Refuted candidates.witnesses earlier) ∧
      ∃ witness ∈ candidates.witnesses, problem.formula.satisfies
        ((point problem.outer outer).merge witness) = .error error
  /-- Without a new counterexample a proposal is the same again. -/
  repeated : ∀ requests, (∀ request ∈ requests, request = .propose) →
    problem.propose (problem.proposer.serveAll (problem.propose candidates).2 requests) =
      problem.propose candidates

/-- What a proposal says is so, once the points behind the cursor are refuted. -/
theorem Swept.exact (fits : pointCount problem.outer ≤ maxPoints)
    (swept : problem.Swept candidates) : problem.Exact candidates := by
  have size : productSize problem.outer = pointCount problem.outer := by
    rw [productSize_eq, Nat.min_eq_left fits]
  have advanced := problem.propose_advanced candidates
  have behind := swept.propose
  unfold Swept at behind
  rw [witnesses_propose] at behind
  refine ⟨swept, ?_, ?_, ?_, fun requests => propose_repeated candidates⟩
  · intro candidate offered
    obtain ⟨inside, placed, satisfied⟩ := advanced.found candidate offered
    subst placed
    refine ⟨_, rfl, ⟨size ▸ inside, satisfied⟩, fun other consistent => ?_⟩
    -- A point before the offered one is refuted, so it is not consistent.
    by_contra before
    exact consistent.not_refuted (behind other (Nat.lt_of_not_le before))
  · intro exhausted outer inside
    have passed := advanced.exhausted exhausted
    exact behind outer (Nat.lt_of_lt_of_le inside (size ▸ passed))
  · intro error fault
    obtain ⟨inside, failing⟩ := advanced.failed error fault
    exact ⟨_, size ▸ inside, behind, failing⟩

end FiniteProblem

/-- However proposals and counterexamples alternate, the exhaustive proposer knows the
counterexamples in the order in which they came, offers the first point that is consistent with
all of them, offers none only if all are refuted, and never moves its cursor back. -/
theorem proposals_exact (problem : FiniteProblem) (fits : pointCount problem.outer ≤ maxPoints)
    (requests later : List Request) :
    let candidates := problem.proposer.serveAll .fresh requests
    candidates.witnesses = requests.filterMap Request.witness? ∧ problem.Exact candidates ∧
      candidates.cursor ≤ (problem.proposer.serveAll candidates later).cursor := by
  intro candidates
  refine ⟨?_, ?_, ?_⟩
  · exact FiniteProblem.witnesses_serveAll .fresh requests
  · exact (problem.swept_fresh.serveAll requests).exact fits
  · exact FiniteProblem.cursor_le_serveAll candidates later

/-- A counterexample to the first of two truth values. -/
def eitherLow : Row := Row.empty.insert "y" (.bool false)

theorem eitherProblem_open :
    eitherProblem.formula.satisfies ((point eitherProblem.outer 1).merge .empty) =
      .error (.cell 0 "y" .unbound) := by
  let row := (point eitherProblem.outer 1).merge .empty
  have root : eitherHolds.arena.node? eitherHolds.root = some ⟨.or, [0, 1], .bool⟩ := rfl
  have second : eitherHolds.arena.node? 1 = some ⟨.symbol "y", [], .bool⟩ := rfl
  have bound : eitherHolds.arena.valueAt eitherHolds.ordered row 0 0 = .ok (.bool true) :=
    eq_ok_of_toOption (by decide +kernel)
  have unbound : eitherHolds.arena.valueAt eitherHolds.ordered row 0 1 =
      .error (.cell 0 "y" .unbound) := (Arena.valueAt_found second).trans rfl
  have evaluated : eitherHolds.evaluate row = .error (.cell 0 "y" .unbound) := by
    rw [Formula.evaluate, Formula.evaluateAt_eq, Arena.valueAt_found root, List.mapM_cons, bound,
      List.mapM_cons, unbound]
    rfl
  exact congrArg (· >>= _) evaluated

/-- A counterexample that leaves the inner variable open makes the next proposal fail, but not
before it has passed the point that the other counterexample refutes. -/
theorem proposals_exact_either :
    let known := eitherProblem.proposer.serveAll .fresh [.propose, .strengthen eitherLow]
    let confused := eitherProblem.proposer.serveAll .fresh
      [.propose, .strengthen eitherLow, .strengthen .empty, .propose]
    pointCount eitherProblem.outer ≤ maxPoints ∧
      (eitherProblem.propose known).1 = .ok (some (point eitherProblem.outer 1)) ∧
      eitherProblem.Exact known ∧ known.cursor < confused.cursor ∧
      (eitherProblem.propose confused).1 = .error (.cell 0 "y" .unbound) ∧
      eitherProblem.Refuted [eitherLow, .empty] 0 := by
  have fits : pointCount eitherProblem.outer ≤ maxPoints := by decide
  have size : productSize eitherProblem.outer = 2 := by decide
  have inhabited : eitherProblem.outer.any (·.values.isEmpty) = false := by decide
  have low : point eitherProblem.inner 0 = eitherLow := by decide
  have refuted : eitherProblem.formula.satisfies ((point eitherProblem.outer 0).merge eitherLow) =
      .ok false := low ▸ eitherProblem_satisfies (by decide) (by decide)
  have kept : eitherProblem.formula.satisfies ((point eitherProblem.outer 1).merge eitherLow) =
      .ok true := low ▸ eitherProblem_satisfies (by decide) (by decide)
  have offers : eitherProblem.propose ⟨[eitherLow], 0⟩ =
      (.ok (some (point eitherProblem.outer 1)), ⟨[eitherLow], 1⟩) := by
    simp [FiniteProblem.propose, FiniteProblem.advance, FiniteProblem.consistent, size, inhabited,
      refuted, kept]
  have fails (cursor : Nat) (below : cursor < 2) :
      eitherProblem.propose ⟨[eitherLow, .empty], cursor⟩ =
        (.error (.cell 0 "y" .unbound), ⟨[eitherLow, .empty], 1⟩) := by
    have cases : cursor = 0 ∨ cursor = 1 := by omega
    rcases cases with rfl | rfl <;>
      simp [FiniteProblem.propose, FiniteProblem.advance, FiniteProblem.consistent, size,
        inhabited, refuted, kept, eitherProblem_open]
  have reached : eitherProblem.proposer.serveAll .fresh [.propose, .strengthen eitherLow] =
      ⟨[eitherLow], 0⟩ := by
    have first : (eitherProblem.propose .fresh).2 = ⟨[], 0⟩ := by
      simp [FiniteProblem.propose, FiniteProblem.advance, FiniteProblem.consistent, size,
        inhabited, Candidates.fresh]
    simp [Proposer.serveAll, Proposer.serve, FiniteProblem.proposer, first]
  have failed : eitherProblem.proposer.serveAll .fresh
      [.propose, .strengthen eitherLow, .strengthen .empty, .propose] =
        ⟨[eitherLow, .empty], 1⟩ := by
    have later : eitherProblem.proposer.serveAll .fresh
        [.propose, .strengthen eitherLow, .strengthen .empty, .propose] =
      eitherProblem.proposer.serveAll
        (eitherProblem.proposer.serveAll .fresh [.propose, .strengthen eitherLow])
        [.strengthen .empty, .propose] := rfl
    rw [later, reached]
    exact congrArg Prod.snd (fails 0 (by decide))
  obtain ⟨_, known, _⟩ := proposals_exact eitherProblem fits [.propose, .strengthen eitherLow] []
  obtain ⟨_, confused, _⟩ := proposals_exact eitherProblem fits
    [.propose, .strengthen eitherLow, .strengthen .empty, .propose] []
  rw [reached] at known ⊢
  rw [failed] at confused ⊢
  refine ⟨fits, by rw [offers], known, Nat.zero_lt_one, by rw [fails 1 (by decide)], ?_⟩
  exact confused.swept 0 Nat.zero_lt_one

end Formulary.Search
