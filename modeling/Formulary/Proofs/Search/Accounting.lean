import Formulary.Proofs.Search.Transcript

/-! The books of a run agree with its calls. The counterexamples that a solver keeps are those
that its proposer took into account, in order, after those it had before; every count is a count
of calls; and the oracle is always asked about the candidate at hand with each counterexample
known by then. -/
namespace Formulary.Search

variable {σ τ ω : Type}

/-- Every question to the oracle comes right after the candidate, and is about this candidate with
each counterexample known by then. -/
def Informed (known : List Row) (calls : List Call) : Prop :=
  ∀ before rows answer later, calls = before ++ .consult rows answer :: later →
    ∃ candidate, before.getLast? = some (.propose (.ok (some candidate))) ∧
      rows = (known ++ before.filterMap Call.accepted?).map candidate.merge

/-- What a run from a solver leaves behind: its answer, its log and its books. -/
structure Accounts (solver : Solver) (players : Players σ τ ω) (start : Seats σ τ ω)
    (answer : Option (Except Error Outcome)) (final : Progress σ τ ω) : Prop where
  /-- The log holds what the players were asked and what they answered. -/
  played : players.Plays start final.calls.toList final.seats
  /-- Earlier counterexamples stay in place; those that the proposer took are added. -/
  witnesses : final.solver.witnesses =
    solver.witnesses ++ final.calls.toList.filterMap Call.accepted?
  /-- The proposer is told each counterexample that was found, once and in order. -/
  told : final.calls.toList.filterMap Call.told? =
    final.calls.toList.filterMap Call.counterexample?
  sat : ∀ model, answer = some (.ok (.sat model)) →
    final.solver.statistics.exactQueries = final.solver.statistics.iterations ∧
      final.solver.witnesses.length + 1 =
        solver.witnesses.length + final.solver.statistics.iterations
  unsat : answer = some (.ok .unsat) →
    final.solver.statistics.exactQueries = final.solver.statistics.iterations ∧
      final.solver.witnesses.length =
        solver.witnesses.length + final.solver.statistics.iterations
  counted : final.solver.statistics.witnesses = final.solver.witnesses.length
  iterations : final.solver.statistics.iterations =
    (final.calls.toList.filterMap Call.candidate?).length
  exactQueries : final.solver.statistics.exactQueries =
    (final.calls.toList.filterMap Call.query?).length
  simulations : final.solver.statistics.simulations =
    (final.calls.toList.filterMap Call.verdict?).length
  rejections : final.solver.statistics.rejections =
    (final.calls.toList.filterMap Call.verdict?).count false
  rejections_le : final.solver.statistics.rejections ≤ final.solver.statistics.simulations
  simulations_le : final.solver.statistics.simulations ≤ final.solver.statistics.iterations
  informed : Informed solver.witnesses final.calls.toList
  mismatches_le : final.solver.statistics.mismatches ≤ 1
  /-- A mismatch is a model that the oracle has rejected just before. -/
  mismatches : final.solver.statistics.mismatches = 1 ↔
    ∃ model, answer = some (.ok (.sat model)) ∧ ∃ before rows, final.calls.toList =
      before ++ [.consult rows (.ok false), .refute model (.ok none)]

namespace Informed

variable {known : List Row} {calls : List Call}

theorem silent (none : ∀ rows answer, .consult rows answer ∉ calls) : Informed known calls := by
  intro before rows answer later split
  exact absurd (by simp [split]) (none rows answer)

theorem append {more : List Call} (one : Informed known calls)
    (other : Informed (known ++ calls.filterMap Call.accepted?) more) :
    Informed known (calls ++ more) := by
  intro before rows answer later split
  rcases List.append_eq_append_iff.mp split with ⟨rest, same, tail⟩ | ⟨rest, same, tail⟩
  · obtain ⟨candidate, last, asked⟩ := other rest rows answer later tail
    refine ⟨candidate, ?_, ?_⟩
    · rw [same, List.getLast?_append, last]
      rfl
    · rw [asked, same, List.filterMap_append, List.append_assoc]
  · cases rest with
    | nil =>
      -- The second part cannot begin with a question to the oracle.
      obtain ⟨candidate, last, _⟩ := other [] rows answer later (by simpa using tail.symm)
      cases last
    | cons first rest =>
      obtain ⟨rfl, _⟩ := List.cons.inj tail
      exact one before rows answer rest same

theorem asked (candidate : Row) (answer : Except Error Bool) :
    Informed known [.propose (.ok (some candidate)),
      .consult (known.map candidate.merge) answer] := by
  intro before rows other later split
  rcases before with _ | ⟨first, _ | ⟨second, rest⟩⟩
  · simp at split
  · simp only [List.cons_append, List.nil_append, List.cons.injEq, Call.consult.injEq] at split
    obtain ⟨rfl, ⟨rfl, rfl⟩, rfl⟩ := split
    exact ⟨candidate, rfl, by simp [Call.accepted?]⟩
  · simp at split

theorem trial (known : List Row) (trial : Trial) : Informed known (trial.calls known) := by
  obtain ⟨candidate, _ | holds⟩ := trial
  · exact silent (by simp [Trial.calls])
  · exact asked candidate (.ok holds)

theorem refutation (known : List Row) (refutation : Refutation) :
    Informed known (refutation.calls known) :=
  (trial known refutation.toTrial).append (silent (by simp))

theorem ending (known : List Row) (ending : Ending) : Informed known (ending.calls known) := by
  cases ending with
  | unfinished | limit | proposerFailed | exhausted => exact silent (by simp [Ending.calls])
  | oracleFailed candidate error => exact asked candidate (.error error)
  | refuterFailed tried | confirmed tried | witnessRefused tried =>
    exact (trial known tried).append (silent (by simp))

theorem transcript (known : List Row) (history : List Refutation) (last : Ending) :
    Informed known (transcript known history last) := by
  induction history generalizing known with
  | nil =>
    rw [transcript_nil]
    exact ending known last
  | cons first rest ih =>
    have accepted : (first.calls known).filterMap Call.accepted? = [first.witness] :=
      first.filterMap_calls (fun _ _ => rfl) known
    rw [transcript_cons]
    refine (refutation known first).append ?_
    rw [accepted]
    exact ih (known ++ [first.witness])

end Informed

theorem accepted_transcript (known : List Row) (history : List Refutation) (ending : Ending) :
    (transcript known history ending).filterMap Call.accepted? = history.map (·.witness) := by
  rw [filterMap_transcript (fun _ _ => rfl) fun _ => rfl]
  have none : ending.exactCalls.filterMap Call.accepted? = [] := by
    cases ending <;> rfl
  rw [none, List.append_nil]

/-- What was found last is told last, whether the proposer takes it or not. -/
theorem told_transcript (known : List Row) (history : List Refutation) (ending : Ending) :
    (transcript known history ending).filterMap Call.told? =
      (transcript known history ending).filterMap Call.counterexample? := by
  rw [filterMap_transcript (fun _ _ => rfl) fun _ => rfl,
    filterMap_transcript (fun _ _ => rfl) fun _ => rfl]
  cases ending <;> rfl

theorem candidates_transcript (known : List Row) (history : List Refutation) (ending : Ending) :
    (transcript known history ending).filterMap Call.candidate? =
      history.map (·.candidate) ++ ending.exactCalls.filterMap Call.candidate? :=
  filterMap_transcript (fun _ _ => rfl) (fun _ => rfl) known history ending

theorem queries_transcript (known : List Row) (history : List Refutation) (ending : Ending) :
    (transcript known history ending).filterMap Call.query? =
      history.map (·.candidate) ++ ending.exactCalls.filterMap Call.query? :=
  filterMap_transcript (fun _ _ => rfl) (fun _ => rfl) known history ending

/-- A candidate is shown to the oracle at most once. -/
theorem verdicts_transcript_le (known : List Row) (history : List Refutation) (ending : Ending) :
    ((transcript known history ending).filterMap Call.verdict?).length ≤
      ((transcript known history ending).filterMap Call.candidate?).length := by
  induction history generalizing known with
  | nil =>
    rw [transcript_nil]
    rcases ending with _ | _ | _ | _ | _ | ⟨⟨_, _ | _⟩, _⟩ | ⟨_, _ | _⟩ | ⟨⟨_, _ | _⟩, _⟩ <;>
      simp [Ending.calls, Trial.calls, Call.verdict?, Call.candidate?, List.filterMap_cons]
  | cons first rest ih =>
    have once : ((first.calls known).filterMap Call.verdict?).length ≤
        ((first.calls known).filterMap Call.candidate?).length := by
      obtain ⟨⟨candidate, _ | _⟩, witness⟩ := first <;>
        simp [Refutation.calls, Trial.calls, Call.verdict?, Call.candidate?, List.filterMap_cons]
    simp only [transcript_cons, List.filterMap_append, List.length_append]
    exact Nat.add_le_add once (ih _)

theorem Ending.confirmed_of_sat {ending : Ending} {iterations : Nat} {model : Row}
    (answered : ending.answer iterations = some (.ok (.sat model))) :
    ∃ verdict, ending = .confirmed ⟨model, verdict⟩ := by
  cases ending with
  | confirmed trial =>
    obtain ⟨candidate, verdict⟩ := trial
    cases answered
    exact ⟨verdict, rfl⟩
  | unfinished | limit | proposerFailed | exhausted | oracleFailed | refuterFailed
  | witnessRefused => cases answered

theorem Ending.exhausted_of_unsat {ending : Ending} {iterations : Nat}
    (answered : ending.answer iterations = some (.ok .unsat)) : ending = .exhausted := by
  cases ending with
  | exhausted => rfl
  | unfinished | limit | proposerFailed | confirmed | oracleFailed | refuterFailed
  | witnessRefused => cases answered

theorem Ending.mismatches_le (ending : Ending) : ending.mismatches ≤ 1 := by
  unfold mismatches
  split <;> decide

theorem Ending.confirmed_of_mismatch {ending : Ending} (mismatch : ending.mismatches = 1) :
    ∃ candidate, ending = .confirmed ⟨candidate, some false⟩ := by
  unfold mismatches at mismatch
  split at mismatch
  · exact ⟨_, rfl⟩
  · cases mismatch

/-- The last two calls of a run tell whether the oracle was mistaken. -/
theorem Ending.mismatches_eq_one (known : List Row) (history : List Refutation) (ending : Ending) :
    ending.mismatches = 1 ↔
      ∃ model, ending.answer history.length = some (.ok (.sat model)) ∧ ∃ before rows,
        transcript known history ending =
          before ++ [.consult rows (.ok false), .refute model (.ok none)] := by
  constructor
  · intro mismatch
    obtain ⟨candidate, rfl⟩ := confirmed_of_mismatch mismatch
    refine ⟨candidate, rfl, refutationCalls known history ++ [.propose (.ok (some candidate))],
      (known ++ history.map (·.witness)).map candidate.merge, ?_⟩
    rw [List.append_assoc]
    rfl
  · rintro ⟨model, answered, before, rows, split⟩
    obtain ⟨verdict, rfl⟩ := confirmed_of_sat answered
    rcases verdict with _ | _ | _
    · obtain ⟨_, last⟩ := List.append_inj' split rfl
      cases last
    · rfl
    · rw [transcript, calls, Trial.calls, List.cons_append, List.append_cons] at split
      obtain ⟨_, last⟩ := List.append_inj' split rfl
      cases last

/-- The books of every run agree with its calls, however the players answer. -/
theorem run_accounts (solver : Solver) (players : Players σ τ ω) (fuel : Nat) (proposer : σ)
    (refuter : τ) (oracle : ω) :
    Accounts solver players ⟨proposer, refuter, oracle⟩
      (solver.run players fuel proposer refuter oracle).1
      (solver.run players fuel proposer refuter oracle).2 := by
  obtain ⟨history, ending, final, finished, moved⟩ :=
    solver.run_moves players fuel proposer refuter oracle
  rw [finished]
  have logged : final.calls.toList = transcript solver.witnesses history ending := moved.logged
  have books := moved.books
  have mismatches : final.solver.statistics.mismatches = ending.mismatches := by
    rw [moved.noted]
    exact (congrArg (· + ending.mismatches) (Solver.foldl_note_mismatches _ _)).trans
      (Nat.zero_add _)
  have iterations := books.iterations.trans (Nat.zero_add _)
  have exactQueries := books.exactQueries.trans (Nat.zero_add _)
  have simulations := books.simulations.trans (Nat.zero_add _)
  have rejections := books.rejections.trans (Nat.zero_add _)
  have added : final.solver.witnesses.length = solver.witnesses.length + history.length := by
    rw [books.witnesses, accepted_transcript, List.length_append, List.length_map]
  constructor
  · rw [logged]
    exact moved.played
  · rw [logged]
    exact books.witnesses
  · rw [logged, told_transcript]
  · intro model answered
    obtain ⟨verdict, rfl⟩ := Ending.confirmed_of_sat answered
    rw [candidates_transcript] at iterations
    rw [queries_transcript] at exactQueries
    simp only [iterations, exactQueries, added, List.length_append, List.length_map]
    exact ⟨rfl, rfl⟩
  · intro answered
    obtain rfl := Ending.exhausted_of_unsat answered
    rw [candidates_transcript] at iterations
    rw [queries_transcript] at exactQueries
    simp only [iterations, exactQueries, added, List.length_append, List.length_map]
    exact ⟨rfl, rfl⟩
  · exact books.counted rfl
  · rw [logged, iterations]
  · rw [logged, exactQueries]
  · rw [logged, simulations]
  · rw [logged, rejections]
  · rw [rejections, simulations]
    exact List.count_le_length
  · rw [simulations, iterations]
    exact verdicts_transcript_le _ _ _
  · rw [logged]
    exact Informed.transcript _ _ _
  · rw [mismatches]
    exact ending.mismatches_le
  · rw [mismatches, logged]
    exact ending.mismatches_eq_one _ _

end Formulary.Search
