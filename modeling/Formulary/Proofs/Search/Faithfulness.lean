import Formulary.Proofs.Evaluation.Batches
import Formulary.Proofs.Row
import Formulary.Proofs.Search.Accounting
import Formulary.Proofs.Search.Exhaustion

/-! Faithful oracles have nothing to say in an exhaustive search. Every candidate that the
exhaustive proposer offers satisfies the formula with all counterexamples found so far, so an
oracle that tells the truth about these never rejects one; and a counterexample to such a
candidate is a new one. -/
namespace Formulary.Search

/-- An oracle that tells the truth about rows on which the formula has a value. -/
def Oracle.Faithful {ω : Type} (oracle : Oracle ω) (formula : Formula) : Prop :=
  ∀ rows state, (∀ row ∈ rows, ∃ holds, formula.satisfies row = .ok holds) →
    ∃ holds, (oracle.allHold rows state).1 = .ok holds ∧
      (holds = true ↔ ∀ row ∈ rows, formula.satisfies row = .ok true)

theorem evaluate_of_satisfies {formula : Formula} {row : Row} {truth : Bool}
    (satisfied : formula.satisfies row = .ok truth) :
    formula.evaluate row = .ok (.bool truth) := by
  rw [Formula.satisfies] at satisfied
  cases evaluated : formula.evaluate row with
  | error error => simp [evaluated, bind, Except.bind] at satisfied
  | ok value =>
    rw [evaluated] at satisfied
    cases value with
    | bool value =>
      cases satisfied
      rfl
    | int | real | bitVec => cases satisfied

theorem evaluateFrom_truths {formula : Formula} (base : Nat) {rows : List Row}
    (decided : ∀ row ∈ rows, ∃ holds, formula.satisfies row = .ok holds) :
    ∃ truths : List Bool, formula.evaluateFrom base rows = .ok (truths.map .bool) ∧
      List.Forall₂ (fun row truth => formula.satisfies row = .ok truth) rows truths := by
  induction rows generalizing base with
  | nil => exact ⟨[], rfl, .nil⟩
  | cons row rest ih =>
    obtain ⟨truth, holds⟩ := decided row List.mem_cons_self
    obtain ⟨truths, evaluated, satisfied⟩ := ih (base + 1) fun other member =>
      decided other (List.mem_cons_of_mem row member)
    have here := Formula.evaluateAt_renumber (evaluate_of_satisfies holds) base
    refine ⟨truth :: truths, ?_, .cons holds satisfied⟩
    rw [Formula.evaluateFrom, here, evaluated]
    rfl

theorem evaluating_faithful (formula : Formula) : (evaluating formula).Faithful formula := by
  intro rows state decided
  obtain ⟨truths, evaluated, satisfied⟩ := evaluateFrom_truths 0 decided
  refine ⟨truths.all id, ?_, ?_⟩
  · simp only [evaluating, Formula.evaluateRows, evaluated, Except.map, List.all_map]
    congr 2
    funext truth
    simp [Value.bool?]
  · clear evaluated decided
    induction satisfied with
    | nil => simp
    | @cons row truth rows truths here _ ih => simp [ih, here]

/-- Calls with no negative answer of the oracle. -/
def Unrejected (calls : List Call) : Prop := ∀ rows, .consult rows (.ok false) ∉ calls

theorem Unrejected.append {calls more : List Call} (one : Unrejected calls)
    (other : Unrejected more) : Unrejected (calls ++ more) := by
  intro rows member
  rcases List.mem_append.mp member with early | late
  · exact one rows early
  · exact other rows late

theorem Trial.unrejected {trial : Trial} (accepted : trial.verdict ≠ some false)
    (known : List Row) : Unrejected (trial.calls known) := by
  obtain ⟨candidate, _ | _ | _⟩ := trial
  · simp [Unrejected, calls]
  · exact absurd rfl accepted
  · simp [Unrejected, calls]

theorem Ending.mismatches_confirmed {trial : Trial} (accepted : trial.verdict ≠ some false) :
    (confirmed trial).mismatches = 0 := by
  obtain ⟨candidate, _ | _ | _⟩ := trial
  · rfl
  · exact absurd rfl accepted
  · rfl

namespace FiniteProblem

variable {problem : FiniteProblem} {ω : Type} {oracle : Option (Oracle ω)}

abbrev advised (problem : FiniteProblem) (oracle : Option (Oracle ω)) :
    Players Candidates Unit ω :=
  ⟨problem.proposer, problem.refuter, oracle⟩

/-- An offered candidate satisfies the formula with every counterexample so far. -/
theorem propose_consistent {candidates after : Candidates} {candidate : Row}
    (asked : problem.propose candidates = (.ok (some candidate), after)) :
    ∀ witness ∈ candidates.witnesses,
      problem.formula.satisfies (candidate.merge witness) = .ok true := by
  unfold propose at asked
  split at asked
  · cases asked
  · obtain ⟨answered, _⟩ := Prod.mk.inj asked
    exact ((problem.advance_spec candidates.witnesses candidates.cursor).found candidate
      answered).2.2

/-- What is known when a candidate has been offered: where it stands, and that no counterexample
so far is one to it. -/
structure Offered (problem : FiniteProblem) (known : List Row) (frontier : Nat) (candidate : Row)
    (outer : Nat) : Prop where
  forward : frontier ≤ outer
  inside : outer < pointCount problem.outer
  placed : candidate = point problem.outer outer
  explored : problem.Explored ⟨known, outer⟩ outer
  consistent : ∀ witness ∈ known,
    problem.formula.satisfies (candidate.merge witness) = .ok true

/-- What a run with faithful oracles comes to, from a frontier on. -/
structure Undisputed (problem : FiniteProblem) (known : List Row) (frontier : Nat)
    (history : List Refutation) (ending : Ending) : Prop where
  unrejected : Unrejected (transcript known history ending)
  matched : ending.mismatches = 0
  fresh : (known ++ history.map (·.witness)).Nodup
  inner : ∀ witness ∈ known ++ history.map (·.witness),
    ∃ inner < pointCount problem.inner, witness = point problem.inner inner
  outer : frontier + ((transcript known history ending).filterMap Call.candidate?).length ≤
    pointCount problem.outer

section Plays

variable {seats final : Seats Candidates Unit ω} {frontier : Nat} {rest : List Call}
  (decided : problem.Decided) (outerFits : pointCount problem.outer ≤ maxPoints)
  (explored : problem.Explored seats.proposer frontier)

include decided outerFits explored

theorem plays_propose {candidate : Row}
    (played : (problem.advised oracle).Plays seats
      (.propose (.ok (some candidate)) :: rest) final) :
    ∃ outer, problem.Offered seats.proposer.witnesses frontier candidate outer ∧
      (problem.advised oracle).Plays
        { seats with proposer := ⟨seats.proposer.witnesses, outer⟩ } rest final := by
  cases played with
  | propose asked later =>
    have consistent := propose_consistent asked
    rcases propose_decided decided outerFits explored with
      ⟨_, exhausted, _⟩ | ⟨outer, forward, inside, offered, reached⟩
    · rw [show problem.propose seats.proposer = _ from asked] at exhausted
      cases exhausted
    · rw [show problem.propose seats.proposer = _ from asked] at offered
      cases offered
      exact ⟨outer, ⟨forward, inside, rfl, reached, consistent⟩, later⟩

variable (faithful : ∀ asked, oracle = some asked → asked.Faithful problem.formula)

include faithful

theorem plays_trial {trial : Trial}
    (played : (problem.advised oracle).Plays seats
      (trial.calls seats.proposer.witnesses ++ rest) final) :
    ∃ outer memory, problem.Offered seats.proposer.witnesses frontier trial.candidate outer ∧
      trial.verdict ≠ some false ∧
      (problem.advised oracle).Plays ⟨⟨seats.proposer.witnesses, outer⟩, (), memory⟩ rest
        final := by
  obtain ⟨candidate, verdict⟩ := trial
  obtain ⟨outer, offered, later⟩ := plays_propose decided outerFits explored played
  cases verdict with
  | none => exact ⟨outer, seats.oracle, offered, nofun, later⟩
  | some holds =>
    cases later with
    | consult taken asked later =>
      have satisfied : ∀ row ∈ seats.proposer.witnesses.map candidate.merge,
          problem.formula.satisfies row = .ok true := by
        intro row member
        obtain ⟨witness, known, rfl⟩ := List.mem_map.mp member
        exact offered.consistent witness known
      obtain ⟨answer, answered, truth⟩ := faithful _ taken _ seats.oracle fun row member =>
        ⟨true, satisfied row member⟩
      rw [show Oracle.allHold _ _ seats.oracle = _ from asked] at answered
      cases answered
      have accepted : holds = true := truth.mpr satisfied
      subst accepted
      exact ⟨outer, _, offered, nofun, later⟩

theorem plays_ending {ending : Ending}
    (played : (problem.advised oracle).Plays seats (ending.calls seats.proposer.witnesses)
      final) :
    Unrejected (ending.calls seats.proposer.witnesses) ∧ ending.mismatches = 0 ∧
      frontier + (ending.exactCalls.filterMap Call.candidate?).length ≤
        pointCount problem.outer := by
  cases ending with
  | unfinished | limit | proposerFailed | exhausted =>
    exact ⟨by simp [Unrejected, Ending.calls], rfl, explored.inside⟩
  | oracleFailed candidate error =>
    obtain ⟨outer, offered, _⟩ := plays_propose decided outerFits explored played
    exact ⟨by simp [Unrejected, Ending.calls], rfl,
      Nat.lt_of_le_of_lt offered.forward offered.inside⟩
  | refuterFailed trial | witnessRefused trial =>
    obtain ⟨outer, _, offered, accepted, _⟩ :=
      plays_trial decided outerFits explored faithful played
    exact ⟨(Trial.unrejected accepted _).append (by simp [Unrejected]), rfl,
      Nat.lt_of_le_of_lt offered.forward offered.inside⟩
  | confirmed trial =>
    obtain ⟨outer, _, offered, accepted, _⟩ :=
      plays_trial decided outerFits explored faithful played
    exact ⟨(Trial.unrejected accepted _).append (by simp [Unrejected]),
      Ending.mismatches_confirmed accepted, Nat.lt_of_le_of_lt offered.forward offered.inside⟩

variable (innerFits : pointCount problem.inner ≤ maxPoints)

include innerFits

/-- What is known after a refutation: the counterexample is a new inner point, and the frontier
has moved past the candidate. -/
theorem plays_refutation {refutation : Refutation}
    (played : (problem.advised oracle).Plays seats
      (refutation.calls seats.proposer.witnesses ++ rest) final) :
    ∃ next later memory, frontier < next ∧ refutation.verdict ≠ some false ∧
      refutation.witness ∉ seats.proposer.witnesses ∧
      later.witnesses = seats.proposer.witnesses ++ [refutation.witness] ∧
      problem.Explored later next ∧
      (problem.advised oracle).Plays ⟨later, (), memory⟩ rest final := by
  obtain ⟨trial, witness⟩ := refutation
  rw [Refutation.calls, List.append_assoc] at played
  obtain ⟨outer, memory, offered, accepted, later⟩ :=
    plays_trial decided outerFits explored faithful played
  cases later with
  | refute asked later =>
    cases later with
    | strengthen told later =>
      cases told
      rcases refute_decided decided innerFits offered.inside with
        ⟨confirmed, _⟩ | ⟨inner, below, found, refuted⟩
      · rw [← offered.placed] at confirmed
        cases confirmed.symm.trans (congrArg Prod.fst asked)
      · rw [← offered.placed] at found
        cases found.symm.trans (congrArg Prod.fst asked)
        refine ⟨outer + 1, _, memory, Nat.lt_succ_of_le offered.forward, accepted, ?_, rfl,
          offered.explored.refute offered.inside below refuted, later⟩
        -- An old counterexample is none to the candidate.
        intro old
        have satisfied := offered.consistent _ old
        have refutes : problem.Refutes (point problem.inner inner) trial.candidate :=
          offered.placed ▸ refuted
        cases refutes.symm.trans satisfied

/-- The induction is on the refutations; each adds a new counterexample, and moves the frontier. -/
theorem plays_transcript (unique : seats.proposer.witnesses.Nodup) {history : List Refutation}
    {ending : Ending}
    (played : (problem.advised oracle).Plays seats
      (transcript seats.proposer.witnesses history ending) final) :
    problem.Undisputed seats.proposer.witnesses frontier history ending := by
  induction history generalizing seats frontier with
  | nil =>
    rw [transcript_nil] at played
    obtain ⟨unrejected, matched, outer⟩ :=
      plays_ending decided outerFits explored faithful played
    refine ⟨?_, matched, by simpa using unique, by simpa using explored.witnesses, ?_⟩
    · rwa [transcript_nil]
    · rwa [transcript_nil, Ending.filterMap_calls (fun _ _ => rfl)]
  | cons first rest ih =>
    rw [transcript_cons] at played
    obtain ⟨next, later, memory, forward, accepted, new, told, reached, remaining⟩ :=
      plays_refutation decided outerFits explored faithful innerFits played
    rw [← told] at remaining
    have uniqueNext : later.witnesses.Nodup := by
      rw [told]
      exact List.nodup_append.mpr ⟨unique, by simp, by
        intro old member other single
        rw [List.mem_singleton.mp single]
        rintro rfl
        exact new member⟩
    have more := @ih ⟨later, (), memory⟩ next reached uniqueNext remaining
    have same : later.witnesses ++ rest.map (·.witness) =
        seats.proposer.witnesses ++ (first :: rest).map (·.witness) := by
      rw [told]
      simp
    refine ⟨?_, more.matched, same ▸ more.fresh, same ▸ more.inner, ?_⟩
    · rw [transcript_cons, ← told]
      exact ((Trial.unrejected accepted _).append (by simp [Unrejected])).append more.unrejected
    · have count := more.outer
      rw [transcript_cons, ← told, List.filterMap_append, List.length_append,
        first.filterMap_calls (fun _ _ => rfl)]
      have one : (first.exactCalls.filterMap Call.candidate?).length = 1 := rfl
      dsimp only at count
      omega

end Plays

theorem length_le_pointCount {witnesses : List Row} (unique : witnesses.Nodup)
    (inner : ∀ witness ∈ witnesses,
      ∃ inner < pointCount problem.inner, witness = point problem.inner inner) :
    witnesses.length ≤ pointCount problem.inner := by
  have covered : witnesses ⊆ (List.range (pointCount problem.inner)).map (point problem.inner) := by
    intro witness member
    obtain ⟨index, inside, same⟩ := inner witness member
    exact List.mem_map.mpr ⟨index, List.mem_range.mpr inside, same.symm⟩
  simpa using (unique.subperm covered).length_le

end FiniteProblem

theorem Unrejected.count {calls : List Call} (unrejected : Unrejected calls) :
    (calls.filterMap Call.verdict?).count false = 0 := by
  rw [List.count_eq_zero]
  intro member
  obtain ⟨call, made, answered⟩ := List.mem_filterMap.mp member
  rcases call with _ | _ | _ | ⟨rows, _ | _ | _⟩
  all_goals cases answered
  exact unrejected rows made

/-- Equal values of a variable are written alike. -/
def WrittenAlike (domains : List Domain) : Prop :=
  ∀ one ∈ domains, ∀ other ∈ domains, one.name = other.name →
    ∀ left ∈ one.values, ∀ right ∈ other.values, left.same right → left = right

instance (domains : List Domain) : Decidable (WrittenAlike domains) :=
  inferInstanceAs (Decidable (∀ one ∈ domains, ∀ other ∈ domains, one.name = other.name →
    ∀ left ∈ one.values, ∀ right ∈ other.values, left.same right → left = right))

theorem mem_pointFrom {reversed : List Domain} {index : Nat} {row : Row} {entry : String × Literal}
    (member : entry ∈ (pointFrom reversed index row).entries) :
    (∃ domain ∈ reversed, domain.name = entry.1 ∧ entry.2 ∈ domain.values) ∨
      entry ∈ row.entries := by
  induction reversed generalizing index row with
  | nil => exact .inr member
  | cons domain rest ih =>
    rw [pointFrom] at member
    split at member
    · rename_i value chosen
      rcases ih member with ⟨other, later, bound⟩ | stored
      · exact .inl ⟨other, List.mem_cons_of_mem domain later, bound⟩
      · rcases Row.mem_insertEntry stored with rfl | old
        · exact .inl ⟨domain, List.mem_cons_self, rfl, List.mem_of_getElem? chosen⟩
        · exact .inr old
    · rcases ih member with ⟨other, later, bound⟩ | stored
      · exact .inl ⟨other, List.mem_cons_of_mem domain later, bound⟩
      · exact .inr stored

theorem mem_point {domains : List Domain} {index : Nat} {entry : String × Literal}
    (member : entry ∈ (point domains index).entries) :
    ∃ domain ∈ domains, domain.name = entry.1 ∧ entry.2 ∈ domain.values := by
  rcases mem_pointFrom member with ⟨domain, present, bound⟩ | stored
  · exact ⟨domain, List.mem_reverse.mp present, bound⟩
  · cases stored

theorem point_eq_of_same {domains : List Domain} (alike : WrittenAlike domains) {one other : Nat}
    (same : (point domains one).same (point domains other)) :
    point domains one = point domains other := by
  refine Row.eq_of_same (fun name left right stored again equal => ?_) same
  obtain ⟨first, firstHere, firstName, firstValue⟩ := mem_point (Row.mem_of_get? stored)
  obtain ⟨second, secondHere, secondName, secondValue⟩ := mem_point (Row.mem_of_get? again)
  exact alike first firstHere second secondHere (firstName.trans secondName.symm) left firstValue
    right secondValue equal

theorem Ending.candidates_le (ending : Ending) :
    (ending.exactCalls.filterMap Call.candidate?).length ≤ 1 := by
  cases ending <;> simp [exactCalls, Call.candidate?, List.filterMap_cons]

/-- In an exhaustive search a faithful oracle never rejects a candidate, and no counterexample is
found twice; so there are no more rounds than there are points. -/
theorem faithful_oracle_never_rejects (problem : FiniteProblem)
    (outerFits : pointCount problem.outer ≤ maxPoints)
    (innerFits : pointCount problem.inner ≤ maxPoints) (decided : problem.Decided) {ω : Type}
    (oracle : Option (Oracle ω))
    (faithful : ∀ asked, oracle = some asked → asked.Faithful problem.formula) (config : Config)
    (fuel : Nat) (memory : ω) :
    let final := ((Solver.new config).run ⟨problem.proposer, problem.refuter, oracle⟩ fuel .fresh
      () memory).2.solver
    final.statistics.rejections = 0 ∧ final.statistics.mismatches = 0 ∧
      final.witnesses.Nodup ∧
      (WrittenAlike problem.inner →
        final.witnesses.Pairwise fun left right => left.same right = false) ∧
      final.statistics.iterations ≤
        min (pointCount problem.outer) (pointCount problem.inner + 1) := by
  intro final
  obtain ⟨history, ending, after, finished, moved⟩ := (Solver.new config).run_moves
    ⟨problem.proposer, problem.refuter, oracle⟩ fuel .fresh () memory
  have last : final = after.solver := congrArg (·.2.solver) finished
  have books := moved.books
  have undisputed : problem.Undisputed [] 0 history ending :=
    FiniteProblem.plays_transcript decided outerFits problem.explored_fresh faithful innerFits
      List.nodup_nil moved.played
  have witnesses : after.solver.witnesses = history.map (·.witness) := by
    rw [books.witnesses, accepted_transcript]
    rfl
  have fresh : after.solver.witnesses.Nodup := witnesses ▸ undisputed.fresh
  have inner : ∀ witness ∈ after.solver.witnesses,
      ∃ inner < pointCount problem.inner, witness = point problem.inner inner :=
    witnesses ▸ undisputed.inner
  have iterations : after.solver.statistics.iterations =
      ((transcript [] history ending).filterMap Call.candidate?).length :=
    books.iterations.trans (Nat.zero_add _)
  rw [last]
  refine ⟨?_, ?_, fresh, ?_, ?_⟩
  · exact (books.rejections.trans (Nat.zero_add _)).trans undisputed.unrejected.count
  · rw [moved.noted, undisputed.matched]
    exact Solver.foldl_note_mismatches _ _
  · intro alike
    refine (List.Pairwise.and_mem.mp fresh).imp fun {left right} known => ?_
    obtain ⟨leftHere, rightHere, distinct⟩ := known
    obtain ⟨one, _, rfl⟩ := inner left leftHere
    obtain ⟨other, _, rfl⟩ := inner right rightHere
    exact eq_false_of_ne_true fun same => distinct (point_eq_of_same alike same)
  · have few := FiniteProblem.length_le_pointCount fresh inner
    have outer := undisputed.outer
    have most := ending.candidates_le
    rw [witnesses, List.length_map] at few
    rw [← iterations] at outer
    rw [candidates_transcript, List.length_append, List.length_map] at iterations
    omega

/-- The second value offered is the answer, and the oracle agrees. -/
theorem faithful_oracle_never_rejects_either :
    pointCount eitherProblem.outer ≤ maxPoints ∧ pointCount eitherProblem.inner ≤ maxPoints ∧
      eitherProblem.Decided ∧ (evaluating eitherProblem.formula).Faithful eitherProblem.formula ∧
      WrittenAlike eitherProblem.inner ∧
      let final := ((Solver.new ⟨none, true⟩).run ⟨eitherProblem.proposer, eitherProblem.refuter,
        some (evaluating eitherProblem.formula)⟩ 3 .fresh () ()).2.solver
      final.statistics.rejections = 0 ∧
        final.witnesses.Pairwise (fun left right => left.same right = false) ∧
        final.statistics.iterations ≤ 2 := by
  have decided : eitherProblem.Decided := fun _ outerInside _ innerInside =>
    ⟨_, eitherProblem_satisfies outerInside innerInside⟩
  have faithful := evaluating_faithful eitherProblem.formula
  have alike : WrittenAlike eitherProblem.inner := by decide
  obtain ⟨rejections, _, _, distinct, iterations⟩ := faithful_oracle_never_rejects eitherProblem
    (by decide) (by decide) decided (some (evaluating eitherProblem.formula))
    (fun asked taken => by cases taken; exact faithful) ⟨none, true⟩ 3 ()
  exact ⟨by decide, by decide, decided, faithful, alike, rejections, distinct alike,
    Nat.le_trans iterations (by decide)⟩

/-- A truth value is to say whether a fraction comes to a given one. -/
def recognizes (target : Ratio) : Formula where
  arena := .ofNodes #[⟨.symbol "x", [], .bool⟩, ⟨.symbol "y", [], .real⟩,
    ⟨.constant (.real target), [], .real⟩, ⟨.equals, [1, 2], .bool⟩, ⟨.iff, [0, 3], .bool⟩]
  root := 4
  ordered := of_decide_eq_true rfl
  rooted := of_decide_eq_true rfl

/-- Fractions are compared after they are rounded. -/
theorem recognizes_satisfies {target fraction : Ratio} {truth : Bool} {row : Row}
    (bound : row.get? "x" = some (.bool truth)) (stored : row.get? "y" = some (.real fraction)) :
    (recognizes target).satisfies row =
      .ok (truth == Float.beq fraction.toFloat target.toFloat) := by
  have outer : (recognizes target).arena.node? 0 = some ⟨.symbol "x", [], .bool⟩ := rfl
  have inner : (recognizes target).arena.node? 1 = some ⟨.symbol "y", [], .real⟩ := rfl
  have constant : (recognizes target).arena.node? 2 =
      some ⟨.constant (.real target), [], .real⟩ := rfl
  have equality : (recognizes target).arena.node? 3 = some ⟨.equals, [1, 2], .bool⟩ := rfl
  have root : (recognizes target).arena.node? 4 = some ⟨.iff, [0, 3], .bool⟩ := rfl
  have x : (recognizes target).arena.valueAt (recognizes target).ordered row 0 0 =
      .ok (.bool truth) := by
    rw [Arena.valueAt_found outer]
    show row.value 0 "x" .bool = _
    rw [Row.value, bound]
    rfl
  have y : (recognizes target).arena.valueAt (recognizes target).ordered row 0 1 =
      .ok (.real fraction.toFloat) := by
    rw [Arena.valueAt_found inner]
    show row.value 0 "y" .real = _
    rw [Row.value, stored]
    rfl
  have z : (recognizes target).arena.valueAt (recognizes target).ordered row 0 2 =
      .ok (.real target.toFloat) := by
    rw [Arena.valueAt_found constant]
    rfl
  have same : (recognizes target).arena.valueAt (recognizes target).ordered row 0 3 =
      .ok (.bool (Float.beq fraction.toFloat target.toFloat)) := by
    rw [Arena.valueAt_found equality]
    simp only [List.mapM_cons, y, z]
    rfl
  have value : (recognizes target).arena.valueAt (recognizes target).ordered row 0 4 =
      .ok (.bool (truth == Float.beq fraction.toFloat target.toFloat)) := by
    rw [Arena.valueAt_found root]
    simp only [List.mapM_cons, x, same]
    rfl
  have evaluated : (recognizes target).evaluate row =
      .ok (.bool (truth == Float.beq fraction.toFloat target.toFloat)) :=
    ((recognizes target).evaluateAt_eq row 0).trans value
  rw [Formula.satisfies, evaluated]
  rfl

/-- An integer that is not a double. -/
def between : Ratio := .whole 9007199254740993

theorem three_ne_zero : (3 : Int64) ≠ 0 := by decide

/-- The same number as a quotient. -/
def betweenTripled : Ratio := ⟨27021597764222979, 3, three_ne_zero⟩

/-- The double next to it. -/
def below : Ratio := .whole 9007199254740992

def roundingProblem : FiniteProblem :=
  ⟨recognizes below, [⟨"x", [.bool false, .bool true]⟩],
    [⟨"y", [.real between, .real betweenTripled]⟩]⟩

theorem roundingProblem_satisfies {outer inner : Nat} (outerInside : outer < 2)
    (innerInside : inner < 2) :
    roundingProblem.formula.satisfies
        ((point roundingProblem.outer outer).merge (point roundingProblem.inner inner)) =
      .ok (decide (outer ≠ inner)) := by
  have rounded : Float.beq between.toFloat below.toFloat = true := by decide +kernel
  have unrounded : Float.beq betweenTripled.toFloat below.toFloat = false := by decide +kernel
  have outerCases : outer = 0 ∨ outer = 1 := by omega
  have innerCases : inner = 0 ∨ inner = 1 := by omega
  rcases outerCases with rfl | rfl <;> rcases innerCases with rfl | rfl <;>
    refine (recognizes_satisfies rfl rfl).trans ?_
  · rw [rounded]
    rfl
  · rw [unrounded]
    rfl
  · rw [rounded]
    rfl
  · rw [unrounded]
    rfl

theorem roundingProblem_decided : roundingProblem.Decided := fun _ outerInside _ innerInside =>
  ⟨_, roundingProblem_satisfies outerInside innerInside⟩

theorem roundingProblem_refutes {index : Nat} (inside : index < 2) :
    roundingProblem.refute (point roundingProblem.outer index) =
      .ok (some (point roundingProblem.inner index)) := by
  rcases FiniteProblem.refute_decided roundingProblem_decided (by decide) inside with
    ⟨_, solved⟩ | ⟨inner, below, found, refuted⟩
  · have holds := solved index inside
    rw [roundingProblem_satisfies inside inside] at holds
    simp at holds
  · rw [FiniteProblem.Refutes, roundingProblem_satisfies inside below] at refuted
    have same : index = inner := by simpa using refuted
    rwa [← same] at found

/-- Two counterexamples that are the same assignment: as fractions they are equal, and only one of
them is rounded to the double that the formula asks about. -/
theorem equal_counterexamples_accepted :
    pointCount roundingProblem.outer ≤ maxPoints ∧ pointCount roundingProblem.inner ≤ maxPoints ∧
      roundingProblem.Decided ∧
      (evaluating roundingProblem.formula).Faithful roundingProblem.formula ∧
      ∃ first second, ((Solver.new ⟨none, true⟩).run ⟨roundingProblem.proposer,
          roundingProblem.refuter, some (evaluating roundingProblem.formula)⟩ 3 .fresh ()
          ()).2.solver.witnesses = [first, second] ∧ first.same second = true := by
  have faithful := evaluating_faithful roundingProblem.formula
  have refuted := roundingProblem_refutes Nat.zero_lt_two
  have refutedNext := roundingProblem_refutes Nat.one_lt_two
  have offered : roundingProblem.propose .fresh =
      (.ok (some (point roundingProblem.outer 0)), ⟨[], 0⟩) := by
    rw [FiniteProblem.propose, if_neg (by decide), FiniteProblem.advance, dif_pos (by decide)]
    rfl
  have early : roundingProblem.formula.satisfies
      ((point roundingProblem.outer 0).merge (point roundingProblem.inner 0)) = .ok false :=
    roundingProblem_satisfies (by decide) (by decide)
  have middle : roundingProblem.formula.satisfies
      ((point roundingProblem.outer 1).merge (point roundingProblem.inner 0)) = .ok true :=
    roundingProblem_satisfies (by decide) (by decide)
  have late : roundingProblem.formula.satisfies
      ((point roundingProblem.outer 1).merge (point roundingProblem.inner 1)) = .ok false :=
    roundingProblem_satisfies (by decide) (by decide)
  have offeredNext : roundingProblem.propose ⟨[point roundingProblem.inner 0], 0⟩ =
      (.ok (some (point roundingProblem.outer 1)), ⟨[point roundingProblem.inner 0], 1⟩) := by
    rw [FiniteProblem.propose, if_neg (by decide), FiniteProblem.advance, dif_pos (by decide)]
    simp only [FiniteProblem.consistent, early]
    rw [FiniteProblem.advance, dif_pos (by decide)]
    simp only [FiniteProblem.consistent, middle]
  have exhausted : roundingProblem.propose
      ⟨[point roundingProblem.inner 0, point roundingProblem.inner 1], 1⟩ =
      (.ok none, ⟨[point roundingProblem.inner 0, point roundingProblem.inner 1], 2⟩) := by
    rw [FiniteProblem.propose, if_neg (by decide), FiniteProblem.advance, dif_pos (by decide)]
    simp only [FiniteProblem.consistent, middle, late]
    rw [FiniteProblem.advance, dif_neg (by decide)]
  obtain ⟨holds, answered, _⟩ := faithful
    [(point roundingProblem.outer 1).merge (point roundingProblem.inner 0)] ()
    (by simp [middle])
  refine ⟨by decide, by decide, roundingProblem_decided, faithful, point roundingProblem.inner 0,
    point roundingProblem.inner 1, ?_, by decide⟩
  simp [Solver.run, Solver.new, Players.rounds, Players.round, Players.consult, Players.settle,
    FiniteProblem.proposer, FiniteProblem.refuter, offered, refuted, offeredNext, refutedNext,
    exhausted, answered]

end Formulary.Search
