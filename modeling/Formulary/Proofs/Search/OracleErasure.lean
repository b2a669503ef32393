import Formulary.Search.Loop

/-! Oracles are advisory. Taking the oracle out of a run in progress, with everything that
only the oracle has a part in, commutes with every round; so two runs that differ in their
oracles alone agree in all the rest. -/
namespace Formulary.Search

/-- Whether a question went to the proposer or to the refuter. -/
def Call.isExact : Call → Bool
  | consult .. => false
  | _ => true

def exactCalls (calls : Array Call) : Array Call := calls.filter Call.isExact

@[simp] theorem exactCalls_push (calls : Array Call) (call : Call) :
    exactCalls (calls.push call) =
      if call.isExact then (exactCalls calls).push call else exactCalls calls :=
  Array.filter_push

def Statistics.exact (statistics : Statistics) : Statistics :=
  { statistics with simulations := 0, rejections := 0, mismatches := 0 }

def Solver.exact (solver : Solver) : Solver :=
  ⟨{ solver.config with simulate := false }, solver.witnesses, solver.statistics.exact⟩

/-- An oracle that always has an answer, whatever it was asked before. -/
def Oracle.Answers {ω : Type} (oracle : Oracle ω) : Prop :=
  ∀ rows state, ∃ holds, (oracle.allHold rows state).1 = .ok holds

variable {σ τ ω : Type}

/-- The run in progress as it would stand without an oracle. -/
def Progress.exact (progress : Progress σ τ ω) : Progress σ τ Unit :=
  ⟨progress.solver.exact, progress.proposer, progress.refuter, (),
    exactCalls progress.calls⟩

namespace Players

def exact (players : Players σ τ ω) : Players σ τ Unit :=
  ⟨players.proposer, players.refuter, none⟩

theorem consult_exact {players : Players σ τ ω}
    (answers : ∀ oracle, players.oracle = some oracle → oracle.Answers) (candidate : Row)
    (progress : Progress σ τ ω) :
    ∃ simulated after, players.consult candidate progress = (.ok simulated, after) ∧
      after.exact = progress.exact := by
  unfold consult
  cases taken : players.oracle with
  | none => exact ⟨none, progress, rfl, rfl⟩
  | some oracle =>
    dsimp only
    split
    · obtain ⟨holds, answered⟩ :=
        answers oracle taken (progress.solver.witnesses.map candidate.merge) progress.oracle
      simp only [answered]
      exact ⟨some holds, _, rfl, by
        simp [Progress.exact, Solver.exact, Statistics.exact, Call.isExact]⟩
    · exact ⟨none, progress, rfl, rfl⟩

/-- What the oracle said about a candidate does not decide it. -/
theorem settle_exact (players : Players σ τ ω) (candidate : Row) (simulated : Option Bool)
    (progress : Progress σ τ ω) :
    (players.settle candidate simulated progress).1 =
        (players.exact.settle candidate none progress.exact).1 ∧
      (players.settle candidate simulated progress).2.exact =
        (players.exact.settle candidate none progress.exact).2 := by
  rcases asked : players.refuter.refute candidate progress.refuter with ⟨answer, state⟩
  have sameAsked : players.exact.refuter.refute candidate progress.exact.refuter =
      (answer, state) := asked
  unfold settle
  simp only [asked, sameAsked]
  cases answer with
  | error error => simp [Progress.exact, Solver.exact, Statistics.exact, Call.isExact]
  | ok found =>
    cases found with
    | none => simp [Progress.exact, Solver.exact, Statistics.exact, Call.isExact]
    | some witness =>
      rcases told : players.proposer.strengthen witness progress.proposer with
        ⟨accepted, next⟩
      have sameTold : players.exact.proposer.strengthen witness progress.exact.proposer =
          (accepted, next) := told
      simp only [told, sameTold]
      cases accepted <;> simp [Progress.exact, Solver.exact, Statistics.exact, Call.isExact]

/-- A round with an oracle is a round without one, as far as anything else can tell. -/
theorem round_exact {players : Players σ τ ω}
    (answers : ∀ oracle, players.oracle = some oracle → oracle.Answers)
    (progress : Progress σ τ ω) :
    (players.round progress).1 = (players.exact.round progress.exact).1 ∧
      (players.round progress).2.exact = (players.exact.round progress.exact).2 := by
  rcases asked : players.proposer.propose progress.proposer with ⟨answer, state⟩
  have sameAsked : players.exact.proposer.propose progress.exact.proposer =
      (answer, state) := asked
  have sameLimit : progress.exact.solver.config.maxLoops =
      progress.solver.config.maxLoops := rfl
  have sameCount : progress.exact.solver.statistics.iterations =
      progress.solver.statistics.iterations := rfl
  unfold round
  simp only [asked, sameAsked, sameLimit, sameCount]
  split
  · exact ⟨rfl, rfl⟩
  · cases answer with
    | error error => simp [Progress.exact, Call.isExact]
    | ok proposed =>
      cases proposed with
      | none => simp [Progress.exact, Call.isExact]
      | some candidate =>
        dsimp only
        generalize reached : Progress.mk
          { progress.solver with
            statistics :=
              { progress.solver.statistics with
                iterations := progress.solver.statistics.iterations + 1 } }
          state progress.refuter progress.oracle
          (progress.calls.push (.propose (.ok (some candidate)))) = started
        obtain ⟨simulated, after, consulted, kept⟩ := consult_exact answers candidate started
        have startedExact : started.exact = Progress.mk
            { progress.exact.solver with
              statistics :=
                { progress.exact.solver.statistics with
                  iterations := progress.solver.statistics.iterations + 1 } }
            state progress.exact.refuter progress.exact.oracle
            (progress.exact.calls.push (.propose (.ok (some candidate)))) := by
          subst started
          simp [Progress.exact, Solver.exact, Statistics.exact, Call.isExact]
        rw [consulted, ← startedExact, ← kept]
        exact settle_exact players candidate simulated after

/-- Whole runs keep step with their oracle-free counterparts, round by round. -/
theorem rounds_exact {players : Players σ τ ω}
    (answers : ∀ oracle, players.oracle = some oracle → oracle.Answers) (fuel : Nat)
    (progress : Progress σ τ ω) :
    (players.rounds fuel progress).1 = (players.exact.rounds fuel progress.exact).1 ∧
      (players.rounds fuel progress).2.exact =
        (players.exact.rounds fuel progress.exact).2 := by
  induction fuel generalizing progress with
  | zero => exact ⟨rfl, rfl⟩
  | succ fuel ih =>
    obtain ⟨sameAnswer, sameProgress⟩ := round_exact answers progress
    rcases played : players.round progress with ⟨answer, after⟩
    rcases playedExact : players.exact.round progress.exact with ⟨answerExact, afterExact⟩
    rw [played, playedExact] at sameAnswer sameProgress
    dsimp only at sameAnswer sameProgress
    subst answerExact afterExact
    simp only [rounds, played, playedExact]
    cases answer with
    | none => exact ih after
    | some answer => exact ⟨rfl, rfl⟩

end Players

/-- A run of any solver is a run of its oracle-free counterpart. -/
theorem Solver.run_exact (solver : Solver) (players : Players σ τ ω)
    (answers : ∀ oracle, players.oracle = some oracle → oracle.Answers)
    (fuel : Nat) (proposer : σ) (refuter : τ) (oracle : ω) :
    (solver.run players fuel proposer refuter oracle).1 =
        (solver.exact.run players.exact fuel proposer refuter ()).1 ∧
      (solver.run players fuel proposer refuter oracle).2.exact =
        (solver.exact.run players.exact fuel proposer refuter ()).2 :=
  Players.rounds_exact answers fuel _

/-- The same solver with or without asking oracles. -/
def Solver.simulating (solver : Solver) (simulate : Bool) : Solver :=
  { solver with config := { solver.config with simulate } }

/-- Two runs that differ in their oracles, and in whether these are asked at all, put the
same questions to the proposer and the refuter, and end with the same answer. -/
theorem run_ignores_oracle {ω₁ ω₂ : Type} (solver : Solver) (simulate₁ simulate₂ : Bool)
    (proposer : Proposer σ) (refuter : Refuter τ)
    (oracle₁ : Option (Oracle ω₁)) (oracle₂ : Option (Oracle ω₂))
    (answers₁ : ∀ oracle, oracle₁ = some oracle → oracle.Answers)
    (answers₂ : ∀ oracle, oracle₂ = some oracle → oracle.Answers)
    (fuel : Nat) (proposing : σ) (refuting : τ) (memory₁ : ω₁) (memory₂ : ω₂) :
    let first := (solver.simulating simulate₁).run ⟨proposer, refuter, oracle₁⟩ fuel
      proposing refuting memory₁
    let second := (solver.simulating simulate₂).run ⟨proposer, refuter, oracle₂⟩ fuel
      proposing refuting memory₂
    first.1 = second.1 ∧
      exactCalls first.2.calls = exactCalls second.2.calls ∧
      first.2.proposer = second.2.proposer ∧
      first.2.refuter = second.2.refuter ∧
      first.2.solver.witnesses = second.2.solver.witnesses ∧
      first.2.solver.statistics.iterations = second.2.solver.statistics.iterations ∧
      first.2.solver.statistics.exactQueries = second.2.solver.statistics.exactQueries ∧
      first.2.solver.statistics.witnesses = second.2.solver.statistics.witnesses := by
  intro first second
  obtain ⟨firstAnswer, firstProgress⟩ := (solver.simulating simulate₁).run_exact
    ⟨proposer, refuter, oracle₁⟩ answers₁ fuel proposing refuting memory₁
  obtain ⟨secondAnswer, secondProgress⟩ := (solver.simulating simulate₂).run_exact
    ⟨proposer, refuter, oracle₂⟩ answers₂ fuel proposing refuting memory₂
  have sameProgress : first.2.exact = second.2.exact := firstProgress.trans secondProgress.symm
  refine ⟨firstAnswer.trans secondAnswer.symm, ?_, ?_, ?_, ?_, ?_, ?_, ?_⟩
  · exact congrArg Progress.calls sameProgress
  · exact congrArg Progress.proposer sameProgress
  · exact congrArg Progress.refuter sameProgress
  · exact congrArg (·.solver.witnesses) sameProgress
  · exact congrArg (·.solver.statistics.iterations) sameProgress
  · exact congrArg (·.solver.statistics.exactQueries) sameProgress
  · exact congrArg (·.solver.statistics.witnesses) sameProgress

/-- Offers the empty row again and again. -/
def insistent : Proposer Unit where
  propose _ := (.ok (some .empty), ())
  strengthen _ _ := (.ok (), ())

/-- Has a counterexample to the first few candidates only. -/
def refutingFirst : Refuter Nat where
  refute _ left := (.ok (if left = 0 then none else some .empty), left - 1)

/-- Changes its mind with every question. -/
def fickle : Oracle Bool where
  allHold _ mood := (.ok mood, !mood)

/-- A fickle oracle rejects the model that is found; the model is found all the same. -/
theorem run_ignores_fickle_oracle :
    let fickly := ((Solver.new .default).simulating true).run
      ⟨insistent, refutingFirst, some fickle⟩ 3 () 2 true
    let alone := ((Solver.new .default).simulating false).run
      (ω := Unit) ⟨insistent, refutingFirst, none⟩ 3 () 2 ()
    fickle.Answers ∧ fickly.2.solver.statistics.mismatches = 1 ∧
      alone.2.solver.statistics.mismatches = 0 ∧ fickly.1 = alone.1 ∧
      fickly.2.solver.witnesses = alone.2.solver.witnesses := by
  have answers : fickle.Answers := fun _ mood => ⟨mood, rfl⟩
  have agree := run_ignores_oracle (Solver.new .default) true false insistent refutingFirst
    (some fickle) (none : Option (Oracle Unit))
    (fun oracle taken => by cases taken; exact answers) (fun oracle taken => by cases taken)
    3 () 2 true ()
  exact ⟨answers, rfl, rfl, agree.1, agree.2.2.2.2.1⟩

end Formulary.Search
