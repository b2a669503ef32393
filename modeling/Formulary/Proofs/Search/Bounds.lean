import Formulary.Proofs.Search.Accounting
import Formulary.Proofs.Search.OracleErasure

namespace Formulary.Search

variable {σ τ ω : Type}

def Solver.within (solver : Solver) (limit : Option Nat) : Solver :=
  { solver with config := { solver.config with maxLoops := limit } }

theorem Solver.full_within (solver : Solver) (limit : Nat) :
    (solver.within (some limit)).full = decide (limit ≤ solver.statistics.iterations) := rfl

def Progress.within (progress : Progress σ τ ω) (limit : Option Nat) : Progress σ τ ω :=
  { progress with solver := progress.solver.within limit }

namespace Players

theorem consult_within (players : Players σ τ ω) (candidate : Row) (progress : Progress σ τ ω)
    (limit : Option Nat) :
    players.consult candidate (progress.within limit) =
      (players.consult candidate progress).map id (·.within limit) := by
  cases taken : players.oracle with
  | none => simp only [consult, taken, Prod.map, id]
  | some oracle =>
    rcases asked : oracle.allHold (progress.solver.witnesses.map candidate.merge)
      progress.oracle with ⟨answer, state⟩
    simp only [consult, taken, Progress.within, Solver.within, asked]
    split
    · cases answer <;> rfl
    · rfl

theorem settle_within (players : Players σ τ ω) (candidate : Row) (simulated : Option Bool)
    (progress : Progress σ τ ω) (limit : Option Nat) :
    players.settle candidate simulated (progress.within limit) =
      (players.settle candidate simulated progress).map id (·.within limit) := by
  rcases asked : players.refuter.refute candidate progress.refuter with ⟨answer, state⟩
  simp only [settle, Progress.within, Solver.within, asked]
  rcases answer with _ | _ | witness
  · rfl
  · rfl
  · rcases told : players.proposer.strengthen witness progress.proposer with ⟨accepted, next⟩
    simp only [told]
    cases accepted <;> rfl

theorem round_within (players : Players σ τ ω) {progress : Progress σ τ ω} {limit : Option Nat}
    (unbounded : progress.solver.full = false)
    (opened : (progress.solver.within limit).full = false) :
    players.round (progress.within limit) =
      (players.round progress).map id (·.within limit) := by
  have notFull : ¬ progress.solver.config.maxLoops.any
      (· ≤ progress.solver.statistics.iterations) := ne_true_of_eq_false unbounded
  have notReached : ¬ (progress.within limit).solver.config.maxLoops.any
      (· ≤ (progress.within limit).solver.statistics.iterations) := ne_true_of_eq_false opened
  rcases asked : players.proposer.propose progress.proposer with ⟨answer, state⟩
  have sameAsked : players.proposer.propose (progress.within limit).proposer = (answer, state) :=
    asked
  simp only [round, if_neg notFull, if_neg notReached, asked, sameAsked]
  rcases answer with _ | _ | candidate
  · rfl
  · rfl
  · dsimp only
    generalize reached : Progress.mk
      { progress.solver with
        statistics :=
          { progress.solver.statistics with
            iterations := progress.solver.statistics.iterations + 1 } }
      state progress.refuter progress.oracle
      (progress.calls.push (.propose (.ok (some candidate)))) = started
    have same : Progress.mk
        { (progress.within limit).solver with
          statistics :=
            { (progress.within limit).solver.statistics with
              iterations := (progress.within limit).solver.statistics.iterations + 1 } }
        state (progress.within limit).refuter (progress.within limit).oracle
        ((progress.within limit).calls.push (.propose (.ok (some candidate)))) =
          started.within limit := by
      subst started
      rfl
    rw [same, players.consult_within]
    rcases players.consult candidate started with ⟨_ | simulated, after⟩
    · rfl
    · exact players.settle_within candidate simulated after limit

theorem rounds_within (players : Players σ τ ω) (limit fuel : Nat) (progress : Progress σ τ ω)
    (unbounded : progress.solver.config.maxLoops = none)
    (left : progress.solver.statistics.iterations + fuel ≤ limit) :
    players.rounds fuel (progress.within (some limit)) =
      (players.rounds fuel progress).map id (·.within (some limit)) := by
  induction fuel generalizing progress with
  | zero => rfl
  | succ fuel ih =>
    have free : progress.solver.full = false := by simp [Solver.full, unbounded]
    have opened : (progress.solver.within (some limit)).full = false := by
      rw [Solver.full_within]
      exact decide_eq_false (by omega)
    have same := players.round_within free opened
    rcases players.round_moves progress with
      ⟨refutation, middle, _, played, moved⟩ | ⟨ending, after, _, ended, played, _⟩
    · rw [played] at same
      simp only [rounds, played, same, Prod.map, id]
      have config := moved.books.config
      obtain ⟨_, iterations⟩ := moved.refuted
      exact ih middle (by rw [config, unbounded]) (by omega)
    · obtain ⟨answer, answered⟩ :=
        Ending.answer_eq_some ended progress.solver.statistics.iterations
      rw [played, answered] at same
      simp only [rounds, played, same, answered, Prod.map, id]

/-- Rounds that are played go on from where the first of them leave off. -/
theorem rounds_add (players : Players σ τ ω) (first second : Nat) (progress : Progress σ τ ω) :
    players.rounds (first + second) progress =
      match players.rounds first progress with
      | (some answer, after) => (some answer, after)
      | (none, after) => players.rounds second after := by
  induction first generalizing progress with
  | zero => rw [Nat.zero_add, rounds]
  | succ first ih =>
    rw [Nat.succ_add]
    rcases played : players.round progress with ⟨_ | answer, after⟩
    · simp only [rounds, played, ih]
    · simp only [rounds, played]

end Players

/-- A run that knew some counterexamples at its start and has come to its limit, compared with the
whole of the run without one. -/
structure Cut (known : List Row) (limit : Nat) (whole : Progress σ τ ω)
    (answer : Option (Except Error Outcome)) (final : Progress σ τ ω) : Prop where
  answer : answer = some (.error (.undecided limit))
  proposals : (final.calls.toList.filterMap Call.proposal?).length = limit
  candidates : (final.calls.toList.filterMap Call.candidate?).length = limit
  queries : (final.calls.toList.filterMap Call.query?).length = limit
  added : final.solver.witnesses.length = known.length + limit
  /-- The counterexamples are the first of the whole run. -/
  witnesses : final.solver.witnesses = whole.solver.witnesses.take (known.length + limit)
  calls : final.calls.toList <+: whole.calls.toList

/-- A run that stops only for want of fuel has refuted a candidate in each round. -/
theorem Players.rounds_refute {players : Players σ τ ω} {fuel : Nat}
    {progress after : Progress σ τ ω} (played : players.rounds fuel progress = (none, after)) :
    ∃ history : List Refutation, history.length = fuel ∧
      players.Moves progress (transcript progress.solver.witnesses history .unfinished) 0
        after := by
  obtain ⟨history, ending, final, length, finished, moved⟩ := players.rounds_moves fuel progress
  rw [played] at finished
  rcases length with ⟨rfl, length⟩ | ⟨ended, _⟩
  · obtain ⟨_, rfl⟩ := Prod.mk.inj finished
    exact ⟨history, length, moved⟩
  · obtain ⟨answer, answered⟩ :=
      Ending.answer_eq_some ended (progress.solver.statistics.iterations + history.length)
    rw [answered] at finished
    cases finished

section Reached

variable {players : Players σ τ ω} {limit : Nat} {start middle : Progress σ τ ω}

/-- As many candidates were examined by then as the limit allows. -/
theorem Players.rounds_reached (fresh : start.solver.statistics.iterations = 0)
    (played : players.rounds limit start = (none, middle)) :
    middle.solver.statistics.iterations = limit := by
  obtain ⟨history, length, moved⟩ := rounds_refute played
  rw [moved.books.iterations, length_filterMap_unfinished (fun _ _ => rfl) fun _ => rfl, length,
    fresh, Nat.zero_add]

/-- A run under a limit stops where the run without one has refuted so many candidates. -/
theorem Players.rounds_stop (unbounded : start.solver.config.maxLoops = none)
    (fresh : start.solver.statistics.iterations = 0)
    (played : players.rounds limit start = (none, middle)) (rest : Nat) :
    players.rounds (limit + (rest + 1)) (start.within (some limit)) =
      (some (.error (.undecided limit)), middle.within (some limit)) := by
  have iterations := rounds_reached fresh played
  have reached : (middle.within (some limit)).solver.full := by
    show (middle.solver.within (some limit)).full = true
    rw [Solver.full_within, iterations]
    exact decide_eq_true (Nat.le_refl limit)
  have stopped : players.round (middle.within (some limit)) =
      (some (.error (.undecided middle.solver.statistics.iterations)),
        middle.within (some limit)) := players.round_full reached
  rw [players.rounds_add, players.rounds_within limit limit start unbounded (by omega), played]
  show players.rounds (rest + 1) (middle.within (some limit)) = _
  rw [rounds, stopped, iterations]

theorem Players.rounds_cut {fuel : Nat} (unbounded : start.solver.config.maxLoops = none)
    (fresh : start.solver.statistics.iterations = 0) (untouched : start.calls = #[])
    (played : players.rounds limit start = (none, middle)) (more : limit < fuel) :
    Cut start.solver.witnesses limit (players.rounds fuel start).2
      (players.rounds fuel (start.within (some limit))).1
      (players.rounds fuel (start.within (some limit))).2 := by
  obtain ⟨rest, rfl⟩ := Nat.exists_eq_add_of_lt more
  have whole : players.rounds (limit + (rest + 1)) start = players.rounds (rest + 1) middle := by
    rw [players.rounds_add, played]
  rw [Nat.add_assoc, rounds_stop unbounded fresh played, whole]
  obtain ⟨history, length, moved⟩ := rounds_refute played
  obtain ⟨_, _, final, _, finished, later⟩ := players.rounds_moves (rest + 1) middle
  rw [finished]
  have calls : (middle.within (some limit)).calls.toList =
      transcript start.solver.witnesses history .unfinished := by
    refine moved.logged.trans ?_
    rw [untouched]
    rfl
  have added : middle.solver.witnesses.length = start.solver.witnesses.length + limit := by
    rw [moved.books.witnesses, List.length_append,
      length_filterMap_unfinished (fun _ _ => rfl) fun _ => rfl, length]
  constructor
  · rfl
  · rw [calls, length_filterMap_unfinished (fun _ _ => rfl) fun _ => rfl, length]
  · rw [calls, length_filterMap_unfinished (fun _ _ => rfl) fun _ => rfl, length]
  · rw [calls, length_filterMap_unfinished (fun _ _ => rfl) fun _ => rfl, length]
  · exact added
  · rw [later.books.witnesses, ← added, List.take_left]
    rfl
  · exact ⟨_, later.logged.symm⟩

end Reached

/-- A run under a limit that is not reached is the run without one. -/
theorem Players.rounds_uncut {players : Players σ τ ω} {limit fuel : Nat} {start : Progress σ τ ω}
    (unbounded : start.solver.config.maxLoops = none)
    (fresh : start.solver.statistics.iterations = 0)
    (ends : ¬ (limit < fuel ∧ (players.rounds limit start).1 = none)) :
    players.rounds fuel (start.within (some limit)) =
      (players.rounds fuel start).map id (·.within (some limit)) := by
  by_cases more : limit < fuel
  · obtain ⟨rest, rfl⟩ := Nat.exists_eq_add_of_lt more
    have same := players.rounds_within limit limit start unbounded (by omega)
    rcases played : players.rounds limit start with ⟨_ | answer, after⟩
    · exact absurd ⟨more, by rw [played]⟩ ends
    · rw [played] at same
      simp only [Nat.add_assoc, players.rounds_add, played, same, Prod.map, id]
  · exact players.rounds_within limit fuel start unbounded (by omega)

/-- The number of refuted candidates, by how a run ends. -/
theorem Players.rounds_refuted (players : Players σ τ ω) (fuel : Nat) (start : Progress σ τ ω)
    (untouched : start.calls = #[]) :
    ∃ refuted : Nat,
      (players.rounds fuel start).2.solver.witnesses.length =
        start.solver.witnesses.length + refuted ∧
      ((players.rounds fuel start).1 = none ∧ refuted = fuel ∨
        (players.rounds fuel start).1 ≠ none ∧ refuted < fuel) ∧
      (∀ model, (players.rounds fuel start).1 = some (.ok (.sat model)) →
        ((players.rounds fuel start).2.calls.toList.filterMap Call.candidate?).length =
          refuted + 1) ∧
      ((players.rounds fuel start).1 = some (.ok .unsat) →
        ((players.rounds fuel start).2.calls.toList.filterMap Call.counterexample?).length =
          refuted) := by
  obtain ⟨history, ending, after, length, finished, moved⟩ := players.rounds_moves fuel start
  have logged : after.calls.toList = transcript start.solver.witnesses history ending := by
    rw [moved.logged, untouched]
    rfl
  rw [finished]
  refine ⟨history.length, ?_, ?_, ?_, ?_⟩
  · rw [moved.books.witnesses, accepted_transcript, List.length_append, List.length_map]
  · rcases length with ⟨rfl, length⟩ | ⟨ended, length⟩
    · exact .inl ⟨rfl, length⟩
    · obtain ⟨answer, answered⟩ :=
        Ending.answer_eq_some ended (start.solver.statistics.iterations + history.length)
      exact .inr ⟨by simp [answered], length⟩
  · intro model answered
    obtain ⟨verdict, rfl⟩ := Ending.confirmed_of_sat answered
    rw [logged, candidates_transcript, List.length_append, List.length_map]
    rfl
  · intro answered
    obtain rfl := Ending.exhausted_of_unsat answered
    rw [logged, filterMap_transcript (fun _ _ => rfl) fun _ => rfl, List.length_append,
      List.length_map]
    rfl

/-- A run that comes to an answer reaches the limit if it refutes so many candidates. -/
theorem Players.rounds_reach_iff {players : Players σ τ ω} {limit fuel refuted : Nat}
    {start : Progress σ τ ω} (untouched : start.calls = #[])
    (count : (players.rounds fuel start).2.solver.witnesses.length =
      start.solver.witnesses.length + refuted) (ended : refuted < fuel) :
    (limit < fuel ∧ (players.rounds limit start).1 = none) ↔ limit ≤ refuted := by
  by_cases more : limit < fuel
  -- Every round without an answer adds one counterexample, so their number counts the rounds.
  · obtain ⟨before, countBefore, known, _⟩ := players.rounds_refuted limit start untouched
    obtain ⟨rest, rfl⟩ := Nat.exists_eq_add_of_lt more
    rw [Nat.add_assoc, players.rounds_add] at count
    rcases played : players.rounds limit start with ⟨_ | answer, after⟩
    · rw [played] at count countBefore known
      obtain ⟨_, _, _, _, finished, later⟩ := players.rounds_moves (rest + 1) after
      simp only [finished, later.books.witnesses, List.length_append] at count countBefore
      simp only [more, true_and, true_iff]
      rcases known with ⟨_, same⟩ | ⟨answered, _⟩
      · omega
      · exact absurd rfl answered
    · rw [played] at count countBefore known
      simp only [reduceCtorEq, and_false, false_iff, Nat.not_le]
      rcases known with ⟨unanswered, _⟩ | ⟨_, few⟩
      · cases unanswered
      · simp only at count countBefore
        omega
  · simp only [more, false_and, false_iff, Nat.not_le]
    omega

/-- A run under a limit is the beginning of the run without one: with the same answer if that one
refutes fewer candidates than the limit allows, and else cut off at the limit. -/
theorem bounded_run_is_beginning (solver : Solver) (players : Players σ τ ω) (limit fuel : Nat)
    (proposer : σ) (refuter : τ) (oracle : ω) :
    let unbounded := (solver.within none).run players fuel proposer refuter oracle
    let bounded := (solver.within (some limit)).run players fuel proposer refuter oracle
    let same := bounded = (unbounded.1, unbounded.2.within (some limit))
    let cut := Cut solver.witnesses limit unbounded.2 bounded.1 bounded.2
    (∀ model, unbounded.1 = some (.ok (.sat model)) →
      let candidates := (unbounded.2.calls.toList.filterMap Call.candidate?).length
      (candidates ≤ limit → same) ∧ (limit < candidates → cut)) ∧
    (unbounded.1 = some (.ok .unsat) →
      let refuted := (unbounded.2.calls.toList.filterMap Call.counterexample?).length
      (refuted < limit → same) ∧ (limit ≤ refuted → cut)) ∧
    if limit < fuel ∧ ((solver.within none).run players limit proposer refuter oracle).1 = none
      then cut else same := by
  intro unbounded bounded same cut
  let start : Progress σ τ ω :=
    ⟨{ solver.within none with statistics := .initial solver.witnesses.length }, proposer, refuter,
      oracle, #[]⟩
  have reached (going : limit < fuel ∧ (players.rounds limit start).1 = none) : cut := by
    rcases played : players.rounds limit start with ⟨answer, middle⟩
    rw [played] at going
    obtain ⟨more, rfl⟩ := going
    exact Players.rounds_cut rfl rfl rfl played more
  have unreached (ends : ¬ (limit < fuel ∧ (players.rounds limit start).1 = none)) : same :=
    Players.rounds_uncut rfl rfl ends
  obtain ⟨refuted, added, ended, sat, unsat⟩ := players.rounds_refuted fuel start rfl
  have reachIff (answered : unbounded.1 ≠ none) :
      (limit < fuel ∧ (players.rounds limit start).1 = none) ↔ limit ≤ refuted := by
    rcases ended with ⟨unanswered, _⟩ | ⟨_, ended⟩
    · exact absurd unanswered answered
    · exact Players.rounds_reach_iff rfl added ended
  refine ⟨?_, ?_, ?_⟩
  · intro model answered candidates
    have reach := reachIff (by simp [answered])
    have count : candidates = refuted + 1 := sat model answered
    exact ⟨fun few => unreached fun going => absurd (reach.mp going) (by omega),
      fun many => reached (reach.mpr (by omega))⟩
  · intro answered counterexamples
    have reach := reachIff (by simp [answered])
    have count : counterexamples = refuted := unsat answered
    exact ⟨fun few => unreached fun going => absurd (reach.mp going) (by omega),
      fun many => reached (reach.mpr (by omega))⟩
  · split
    · exact reached ‹_›
    · exact unreached ‹_›

/-- The third candidate is confirmed: a limit of three changes nothing, and a limit of two cuts
the run off. -/
theorem bounded_run_is_beginning_of_three :
    let unbounded := ((Solver.new .default).within none).run (ω := Unit)
      ⟨insistent, refutingFirst, none⟩ 5 () 2 ()
    let bounded limit := ((Solver.new .default).within (some limit)).run (ω := Unit)
      ⟨insistent, refutingFirst, none⟩ 5 () 2 ()
    unbounded.1 = some (.ok (.sat .empty)) ∧
      bounded 3 = (unbounded.1, unbounded.2.within (some 3)) ∧
      Cut [] 2 unbounded.2 (bounded 2).1 (bounded 2).2 := by
  have ample := bounded_run_is_beginning (ω := Unit) (Solver.new .default)
    ⟨insistent, refutingFirst, none⟩ 3 5 () 2 ()
  have short := bounded_run_is_beginning (ω := Unit) (Solver.new .default)
    ⟨insistent, refutingFirst, none⟩ 2 5 () 2 ()
  exact ⟨rfl, (ample.1 .empty rfl).1 (by decide), (short.1 .empty rfl).2 (by decide)⟩

end Formulary.Search
