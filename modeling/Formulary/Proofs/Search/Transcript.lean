import Formulary.Search.Loop

/-! Runs call by call. What a run does is told by the candidates that it refutes, one after the
other, and by the way it ends. These give all its calls in order, and the calls give what the
solver has in its books. -/
namespace Formulary.Search

namespace Call

/-- The answer to a request for a candidate. -/
def proposal? : Call → Option (Except Error (Option Row))
  | propose answer => some answer
  | _ => none

def candidate? : Call → Option Row
  | propose (.ok (some candidate)) => some candidate
  | _ => none

/-- The candidate that the refuter is asked about. -/
def query? : Call → Option Row
  | refute candidate _ => some candidate
  | _ => none

def counterexample? : Call → Option Row
  | refute _ (.ok (some witness)) => some witness
  | _ => none

/-- The counterexample that the proposer is told. -/
def told? : Call → Option Row
  | strengthen witness _ => some witness
  | _ => none

/-- The counterexample that the proposer takes into account. -/
def accepted? : Call → Option Row
  | strengthen witness (.ok ()) => some witness
  | _ => none

/-- What the oracle says, if it has an answer. -/
def verdict? : Call → Option Bool
  | consult _ (.ok holds) => some holds
  | _ => none

end Call

/-- A candidate, and what the oracle said of it if it was asked. -/
structure Trial where
  candidate : Row
  verdict : Option Bool

/-- The calls about a candidate before the exact query, given the counterexamples so far. -/
def Trial.calls (known : List Row) (trial : Trial) : List Call :=
  .propose (.ok (some trial.candidate)) ::
    (trial.verdict.map fun holds =>
      .consult (known.map trial.candidate.merge) (.ok holds)).toList

/-- A candidate that was given up for a counterexample. -/
structure Refutation extends Trial where
  witness : Row

def Refutation.calls (known : List Row) (refutation : Refutation) : List Call :=
  refutation.toTrial.calls known ++
    [.refute refutation.candidate (.ok (some refutation.witness)),
      .strengthen refutation.witness (.ok ())]

/-- The calls of refutations, each of which knows the counterexamples of those before it. -/
def refutationCalls : (known : List Row) → List Refutation → List Call
  | _, [] => []
  | known, first :: rest => first.calls known ++ refutationCalls (known ++ [first.witness]) rest

/-- The last round of a run: why it gave no further counterexample. -/
inductive Ending where
  | unfinished
  | limit
  | proposerFailed (error : Error)
  | exhausted
  | oracleFailed (candidate : Row) (error : Error)
  | refuterFailed (trial : Trial) (error : Error)
  | confirmed (trial : Trial)
  | witnessRefused (trial : Trial) (witness : Row) (error : Error)

namespace Ending

def calls (known : List Row) : Ending → List Call
  | unfinished | limit => []
  | proposerFailed error => [.propose (.error error)]
  | exhausted => [.propose (.ok none)]
  | oracleFailed candidate error =>
    [.propose (.ok (some candidate)), .consult (known.map candidate.merge) (.error error)]
  | refuterFailed trial error => trial.calls known ++ [.refute trial.candidate (.error error)]
  | confirmed trial => trial.calls known ++ [.refute trial.candidate (.ok none)]
  | witnessRefused trial witness error =>
    trial.calls known ++
      [.refute trial.candidate (.ok (some witness)), .strengthen witness (.error error)]

def answer (iterations : Nat) : Ending → Option (Except Error Outcome)
  | unfinished => none
  | limit => some (.error (.undecided iterations))
  | proposerFailed error | oracleFailed _ error | refuterFailed _ error
  | witnessRefused _ _ error => some (.error error)
  | exhausted => some (.ok .unsat)
  | confirmed trial => some (.ok (.sat trial.candidate))

theorem answer_eq_some {ending : Ending} (ended : ending ≠ unfinished) (iterations : Nat) :
    ∃ answer, ending.answer iterations = some answer := by
  cases ending with
  | unfinished => exact absurd rfl ended
  | limit | proposerFailed | exhausted | oracleFailed | refuterFailed | confirmed
  | witnessRefused => exact ⟨_, rfl⟩

/-- Whether the oracle has rejected what was confirmed then. -/
def mismatches : Ending → Nat
  | confirmed ⟨_, some false⟩ => 1
  | _ => 0

end Ending

namespace Solver

/-- What a solver writes down when a call is answered. -/
def note (solver : Solver) : Call → Solver
  | .propose (.ok (some _)) =>
    { solver with
      statistics := { solver.statistics with iterations := solver.statistics.iterations + 1 } }
  | .consult _ (.ok holds) =>
    { solver with
      statistics :=
        { solver.statistics with
          simulations := solver.statistics.simulations + 1
          rejections := solver.statistics.rejections + if holds then 0 else 1 } }
  | .refute _ _ =>
    { solver with
      statistics :=
        { solver.statistics with exactQueries := solver.statistics.exactQueries + 1 } }
  | .strengthen witness (.ok ()) =>
    { solver with
      witnesses := solver.witnesses ++ [witness]
      statistics :=
        { solver.statistics with witnesses := (solver.witnesses ++ [witness]).length } }
  | _ => solver

def addMismatches (solver : Solver) (count : Nat) : Solver :=
  { solver with
    statistics := { solver.statistics with mismatches := solver.statistics.mismatches + count } }

@[simp] theorem addMismatches_zero (solver : Solver) : solver.addMismatches 0 = solver := rfl

structure Books (before : Solver) (calls : List Call) (after : Solver) : Prop where
  config : after.config = before.config
  witnesses : after.witnesses = before.witnesses ++ calls.filterMap Call.accepted?
  iterations : after.statistics.iterations =
    before.statistics.iterations + (calls.filterMap Call.candidate?).length
  exactQueries : after.statistics.exactQueries =
    before.statistics.exactQueries + (calls.filterMap Call.query?).length
  simulations : after.statistics.simulations =
    before.statistics.simulations + (calls.filterMap Call.verdict?).length
  rejections : after.statistics.rejections =
    before.statistics.rejections + (calls.filterMap Call.verdict?).count false
  counted : before.statistics.witnesses = before.witnesses.length →
    after.statistics.witnesses = after.witnesses.length

theorem note_books (solver : Solver) (call : Call) : solver.Books [call] (solver.note call) := by
  rcases call with (_ | _ | _) | ⟨witness, _ | _⟩ | _ | ⟨rows, _ | _ | _⟩ <;>
    exact ⟨rfl, by simp [note, Call.accepted?], rfl, rfl, rfl, rfl, by simp [note]⟩

theorem Books.trans {first second third : Solver} {calls more : List Call}
    (one : first.Books calls second) (other : second.Books more third) :
    first.Books (calls ++ more) third := by
  constructor
  · rw [other.config, one.config]
  · rw [other.witnesses, one.witnesses, List.filterMap_append, List.append_assoc]
  · rw [other.iterations, one.iterations, List.filterMap_append, List.length_append, Nat.add_assoc]
  · rw [other.exactQueries, one.exactQueries, List.filterMap_append, List.length_append,
      Nat.add_assoc]
  · rw [other.simulations, one.simulations, List.filterMap_append, List.length_append,
      Nat.add_assoc]
  · rw [other.rejections, one.rejections, List.filterMap_append, List.count_append, Nat.add_assoc]
  · exact fun counted => other.counted (one.counted counted)

theorem foldl_note_mismatches (solver : Solver) (calls : List Call) :
    (calls.foldl note solver).statistics.mismatches = solver.statistics.mismatches := by
  induction calls generalizing solver with
  | nil => rfl
  | cons call rest ih =>
    rw [List.foldl_cons, ih]
    rcases call with (_ | _ | _) | ⟨witness, _ | _⟩ | _ | ⟨rows, _ | _ | _⟩ <;> rfl

theorem foldl_note_books (solver : Solver) (calls : List Call) :
    solver.Books calls (calls.foldl note solver) := by
  induction calls generalizing solver with
  | nil => exact ⟨rfl, by simp, rfl, rfl, rfl, rfl, id⟩
  | cons call rest ih => exact (solver.note_books call).trans (ih (solver.note call))

/-- Whether as many candidates were examined as the settings allow. -/
def full (solver : Solver) : Bool :=
  solver.config.maxLoops.any (· ≤ solver.statistics.iterations)

end Solver

/-- The states of those who take part in a run. -/
structure Seats (σ τ ω : Type) where
  proposer : σ
  refuter : τ
  oracle : ω

variable {σ τ ω : Type}

def Progress.seats (progress : Progress σ τ ω) : Seats σ τ ω :=
  ⟨progress.proposer, progress.refuter, progress.oracle⟩

namespace Players

/-- The players answer calls one after the other, each from the state that the last call to it
left behind. -/
inductive Plays (players : Players σ τ ω) : Seats σ τ ω → List Call → Seats σ τ ω → Prop where
  | done {seats : Seats σ τ ω} : Plays players seats [] seats
  | propose {seats final : Seats σ τ ω} {answer : Except Error (Option Row)} {state : σ}
      {rest : List Call} (asked : players.proposer.propose seats.proposer = (answer, state))
      (later : Plays players { seats with proposer := state } rest final) :
      Plays players seats (.propose answer :: rest) final
  | strengthen {seats final : Seats σ τ ω} {witness : Row} {answer : Except Error Unit} {state : σ}
      {rest : List Call}
      (told : players.proposer.strengthen witness seats.proposer = (answer, state))
      (later : Plays players { seats with proposer := state } rest final) :
      Plays players seats (.strengthen witness answer :: rest) final
  | refute {seats final : Seats σ τ ω} {candidate : Row} {answer : Except Error (Option Row)}
      {state : τ} {rest : List Call}
      (asked : players.refuter.refute candidate seats.refuter = (answer, state))
      (later : Plays players { seats with refuter := state } rest final) :
      Plays players seats (.refute candidate answer :: rest) final
  | consult {seats final : Seats σ τ ω} {oracle : Oracle ω} {rows : List Row}
      {answer : Except Error Bool} {state : ω} {rest : List Call}
      (taken : players.oracle = some oracle)
      (asked : oracle.allHold rows seats.oracle = (answer, state))
      (later : Plays players { seats with oracle := state } rest final) :
      Plays players seats (.consult rows answer :: rest) final

theorem Plays.append {players : Players σ τ ω} {start middle final : Seats σ τ ω}
    {first second : List Call} (one : players.Plays start first middle)
    (other : players.Plays middle second final) : players.Plays start (first ++ second) final := by
  induction one with
  | done => exact other
  | propose asked _ ih => exact .propose asked (ih other)
  | strengthen told _ ih => exact .strengthen told (ih other)
  | refute asked _ ih => exact .refute asked (ih other)
  | consult taken asked _ ih => exact .consult taken asked (ih other)

/-- Calls that the players have answered, and that are in the log and in the books; mismatches
are noted in the books alone. -/
structure Moves (players : Players σ τ ω) (before : Progress σ τ ω) (calls : List Call)
    (mismatches : Nat) (after : Progress σ τ ω) : Prop where
  logged : after.calls.toList = before.calls.toList ++ calls
  noted : after.solver = (calls.foldl Solver.note before.solver).addMismatches mismatches
  played : players.Plays before.seats calls after.seats

namespace Moves

variable {players : Players σ τ ω} {before middle after : Progress σ τ ω}

theorem refl (progress : Progress σ τ ω) : players.Moves progress [] 0 progress :=
  ⟨(List.append_nil _).symm, rfl, .done⟩

theorem trans {first second : List Call} {mismatches : Nat}
    (one : players.Moves before first 0 middle)
    (other : players.Moves middle second mismatches after) :
    players.Moves before (first ++ second) mismatches after := by
  refine ⟨?_, ?_, one.played.append other.played⟩
  · rw [other.logged, one.logged, List.append_assoc]
  · rw [other.noted, one.noted, List.foldl_append, Solver.addMismatches_zero]

theorem books {calls : List Call} {mismatches : Nat}
    (moved : players.Moves before calls mismatches after) :
    before.solver.Books calls after.solver := by
  have noted := before.solver.foldl_note_books calls
  rw [moved.noted]
  exact ⟨noted.config, noted.witnesses, noted.iterations, noted.exactQueries, noted.simulations,
    noted.rejections, noted.counted⟩

end Moves

theorem consult_moves (players : Players σ τ ω) (candidate : Row) (progress : Progress σ τ ω) :
    (∃ verdict after, players.consult candidate progress = (.ok verdict, after) ∧
        players.Moves progress (verdict.map fun holds => .consult
          (progress.solver.witnesses.map candidate.merge) (.ok holds)).toList 0 after) ∨
      ∃ error after, players.consult candidate progress = (.error error, after) ∧
        players.Moves progress
          [.consult (progress.solver.witnesses.map candidate.merge) (.error error)] 0 after := by
  unfold consult
  cases taken : players.oracle with
  | none => exact .inl ⟨none, progress, rfl, .refl progress⟩
  | some oracle =>
    dsimp only
    split
    · rcases asked : oracle.allHold (progress.solver.witnesses.map candidate.merge)
        progress.oracle with ⟨answer, state⟩
      simp only [asked]
      cases answer with
      | error error =>
        refine .inr ⟨error, _, rfl, ?_⟩
        exact ⟨Array.toList_push, rfl, .consult taken asked .done⟩
      | ok holds =>
        refine .inl ⟨some holds, _, rfl, ?_⟩
        exact ⟨Array.toList_push, rfl, .consult taken asked .done⟩
    · exact .inl ⟨none, progress, rfl, .refl progress⟩

/-- What a query can lead to: no answer, no counterexample, one that the proposer does not take,
or one that it takes. -/
theorem settle_moves (players : Players σ τ ω) (trial : Trial) (progress : Progress σ τ ω) :
    (∃ error after,
        players.settle trial.candidate trial.verdict progress = (some (.error error), after) ∧
        players.Moves progress [.refute trial.candidate (.error error)] 0 after) ∨
      (∃ after, players.settle trial.candidate trial.verdict progress =
          (some (.ok (.sat trial.candidate)), after) ∧
        players.Moves progress [.refute trial.candidate (.ok none)]
          (Ending.confirmed trial).mismatches after) ∨
      (∃ witness error after,
        players.settle trial.candidate trial.verdict progress = (some (.error error), after) ∧
        players.Moves progress [.refute trial.candidate (.ok (some witness)),
          .strengthen witness (.error error)] 0 after) ∨
      ∃ witness after, players.settle trial.candidate trial.verdict progress = (none, after) ∧
        players.Moves progress [.refute trial.candidate (.ok (some witness)),
          .strengthen witness (.ok ())] 0 after := by
  unfold settle
  rcases asked : players.refuter.refute trial.candidate progress.refuter with ⟨answer, state⟩
  cases answer with
  | error error =>
    refine .inl ⟨error, _, rfl, ?_⟩
    exact ⟨Array.toList_push, rfl, .refute asked .done⟩
  | ok found =>
    cases found with
    | none =>
      refine .inr (.inl ⟨_, rfl, ?_⟩)
      refine ⟨Array.toList_push, ?_, .refute asked .done⟩
      obtain ⟨candidate, _ | _ | _⟩ := trial <;> rfl
    | some witness =>
      rcases told : players.proposer.strengthen witness progress.proposer with ⟨accepted, next⟩
      simp only [told]
      cases accepted with
      | error error =>
        refine .inr (.inr (.inl ⟨witness, error, _, rfl, ?_⟩))
        exact ⟨by simp, rfl, .refute asked (.strengthen told .done)⟩
      | ok accepted =>
        refine .inr (.inr (.inr ⟨witness, _, rfl, ?_⟩))
        exact ⟨by simp, rfl, .refute asked (.strengthen told .done)⟩

theorem round_full (players : Players σ τ ω) {progress : Progress σ τ ω}
    (isFull : progress.solver.full) :
    players.round progress =
      (some (.error (.undecided progress.solver.statistics.iterations)), progress) :=
  if_pos isFull

theorem round_moves (players : Players σ τ ω) (progress : Progress σ τ ω) :
    (∃ (refutation : Refutation) (after : Progress σ τ ω), progress.solver.full = false ∧
        players.round progress = (none, after) ∧
        players.Moves progress (refutation.calls progress.solver.witnesses) 0 after) ∨
      ∃ (ending : Ending) (after : Progress σ τ ω),
        (ending = .limit ↔ progress.solver.full) ∧ ending ≠ .unfinished ∧
        players.round progress =
          (ending.answer progress.solver.statistics.iterations, after) ∧
        players.Moves progress (ending.calls progress.solver.witnesses) ending.mismatches
          after := by
  by_cases isFull : progress.solver.full
  · exact .inr ⟨.limit, progress, by simp [isFull], nofun, players.round_full isFull,
      .refl progress⟩
  · rcases asked : players.proposer.propose progress.proposer with ⟨answer, state⟩
    have opened : ¬ progress.solver.config.maxLoops.any
        (· ≤ progress.solver.statistics.iterations) := isFull
    simp only [round, if_neg opened, asked]
    cases answer with
    | error error =>
      refine .inr ⟨.proposerFailed error, _, by simp [isFull], nofun, rfl, ?_⟩
      exact ⟨Array.toList_push, rfl, .propose asked .done⟩
    | ok proposed =>
      cases proposed with
      | none =>
        refine .inr ⟨.exhausted, _, by simp [isFull], nofun, rfl, ?_⟩
        exact ⟨Array.toList_push, rfl, .propose asked .done⟩
      | some candidate =>
        dsimp only
        generalize reached : Progress.mk
          { progress.solver with
            statistics :=
              { progress.solver.statistics with
                iterations := progress.solver.statistics.iterations + 1 } }
          state progress.refuter progress.oracle
          (progress.calls.push (.propose (.ok (some candidate)))) = started
        have start : players.Moves progress [.propose (.ok (some candidate))] 0 started := by
          subst started
          exact ⟨Array.toList_push, rfl, .propose asked .done⟩
        have same : started.solver.witnesses = progress.solver.witnesses := by
          subst started
          rfl
        rcases players.consult_moves candidate started with
          ⟨verdict, middle, consulted, moved⟩ | ⟨error, after, consulted, moved⟩
        · rw [same] at moved
          simp only [consulted]
          rcases players.settle_moves ⟨candidate, verdict⟩ middle with
            ⟨error, after, settled, ended⟩ | ⟨after, settled, ended⟩ |
            ⟨witness, error, after, settled, ended⟩ | ⟨witness, after, settled, ended⟩
          · exact .inr ⟨.refuterFailed ⟨candidate, verdict⟩ error, after, by simp [isFull], nofun,
              settled, (start.trans moved).trans ended⟩
          · exact .inr ⟨.confirmed ⟨candidate, verdict⟩, after, by simp [isFull], nofun, settled,
              (start.trans moved).trans ended⟩
          · exact .inr ⟨.witnessRefused ⟨candidate, verdict⟩ witness error, after,
              by simp [isFull], nofun, settled, (start.trans moved).trans ended⟩
          · exact .inl ⟨⟨⟨candidate, verdict⟩, witness⟩, after, eq_false_of_ne_true isFull, settled,
              (start.trans moved).trans ended⟩
        · rw [same] at moved
          simp only [consulted]
          exact .inr ⟨.oracleFailed candidate error, after, by simp [isFull], nofun, rfl,
            start.trans moved⟩

end Players

def transcript (known : List Row) (history : List Refutation) (ending : Ending) : List Call :=
  refutationCalls known history ++ ending.calls (known ++ history.map (·.witness))

@[simp] theorem transcript_nil (known : List Row) (ending : Ending) :
    transcript known [] ending = ending.calls known := by
  simp [transcript, refutationCalls]

@[simp] theorem transcript_cons (known : List Row) (first : Refutation) (rest : List Refutation)
    (ending : Ending) :
    transcript known (first :: rest) ending =
      first.calls known ++ transcript (known ++ [first.witness]) rest ending := by
  simp [transcript, refutationCalls]

def Refutation.exactCalls (refutation : Refutation) : List Call :=
  [.propose (.ok (some refutation.candidate)),
    .refute refutation.candidate (.ok (some refutation.witness)),
    .strengthen refutation.witness (.ok ())]

def Ending.exactCalls : Ending → List Call
  | unfinished | limit => []
  | proposerFailed error => [.propose (.error error)]
  | exhausted => [.propose (.ok none)]
  | oracleFailed candidate _ => [.propose (.ok (some candidate))]
  | refuterFailed ⟨candidate, _⟩ error =>
    [.propose (.ok (some candidate)), .refute candidate (.error error)]
  | confirmed ⟨candidate, _⟩ => [.propose (.ok (some candidate)), .refute candidate (.ok none)]
  | witnessRefused ⟨candidate, _⟩ witness error =>
    [.propose (.ok (some candidate)), .refute candidate (.ok (some witness)),
      .strengthen witness (.error error)]

section Views

variable {α : Type} {view : Call → Option α}

def Call.Blind (view : Call → Option α) : Prop :=
  ∀ rows answer, view (.consult rows answer) = none

theorem Trial.filterMap_calls (blind : Call.Blind view) (known : List Row) (trial : Trial) :
    (trial.calls known).filterMap view =
      [Call.propose (.ok (some trial.candidate))].filterMap view := by
  obtain ⟨candidate, _ | holds⟩ := trial
  · rfl
  · simp only [calls, Option.map_some, Option.toList_some, List.filterMap_cons,
      blind (known.map candidate.merge) (.ok holds)]

theorem Refutation.filterMap_calls (blind : Call.Blind view) (known : List Row)
    (refutation : Refutation) :
    (refutation.calls known).filterMap view = refutation.exactCalls.filterMap view := by
  rw [calls, List.filterMap_append, Trial.filterMap_calls blind, ← List.filterMap_append]
  rfl

theorem Ending.filterMap_calls (blind : Call.Blind view) (known : List Row) (ending : Ending) :
    (ending.calls known).filterMap view = ending.exactCalls.filterMap view := by
  cases ending with
  | unfinished | limit | proposerFailed | exhausted => rfl
  | oracleFailed candidate error =>
    simp only [calls, exactCalls, List.filterMap_cons,
      blind (known.map candidate.merge) (.error error)]
  | refuterFailed | confirmed | witnessRefused =>
    rw [calls, List.filterMap_append, Trial.filterMap_calls blind, ← List.filterMap_append]
    rfl

/-- Where each refutation shows one thing, a run shows these in order, whatever was known at its
start, and then what its ending shows. -/
theorem filterMap_transcript (blind : Call.Blind view) {shown : Refutation → α}
    (each : ∀ refutation : Refutation, refutation.exactCalls.filterMap view = [shown refutation])
    (known : List Row) (history : List Refutation) (ending : Ending) :
    (transcript known history ending).filterMap view =
      history.map shown ++ ending.exactCalls.filterMap view := by
  induction history generalizing known with
  | nil =>
    rw [transcript_nil, Ending.filterMap_calls blind]
    rfl
  | cons first rest ih =>
    rw [transcript_cons, List.filterMap_append, ih, first.filterMap_calls blind, each]
    rfl

theorem length_filterMap_unfinished (blind : Call.Blind view) {shown : Refutation → α}
    (each : ∀ refutation : Refutation, refutation.exactCalls.filterMap view = [shown refutation])
    (known : List Row) (history : List Refutation) :
    ((transcript known history .unfinished).filterMap view).length = history.length := by
  rw [filterMap_transcript blind each, List.length_append, List.length_map]
  rfl

end Views

/-- A refutation gives one more counterexample for one more candidate. -/
theorem Players.Moves.refuted {players : Players σ τ ω} {before after : Progress σ τ ω}
    {known : List Row} {refutation : Refutation} {mismatches : Nat}
    (moved : players.Moves before (refutation.calls known) mismatches after) :
    after.solver.witnesses = before.solver.witnesses ++ [refutation.witness] ∧
      after.solver.statistics.iterations = before.solver.statistics.iterations + 1 := by
  rw [moved.books.witnesses, moved.books.iterations, refutation.filterMap_calls (fun _ _ => rfl),
    refutation.filterMap_calls (fun _ _ => rfl)]
  exact ⟨rfl, rfl⟩

/-- Rounds refute candidates one after the other, until one ends the run or the fuel is used up. -/
theorem Players.rounds_moves (players : Players σ τ ω) (fuel : Nat) (progress : Progress σ τ ω) :
    ∃ history ending after,
      (ending = .unfinished ∧ history.length = fuel ∨
        ending ≠ .unfinished ∧ history.length < fuel) ∧
      players.rounds fuel progress =
        (ending.answer (progress.solver.statistics.iterations + history.length), after) ∧
      players.Moves progress (transcript progress.solver.witnesses history ending)
        ending.mismatches after := by
  induction fuel generalizing progress with
  | zero => exact ⟨[], .unfinished, progress, .inl ⟨rfl, rfl⟩, rfl, .refl progress⟩
  | succ fuel ih =>
    rcases players.round_moves progress with
      ⟨refutation, middle, _, played, moved⟩ | ⟨ending, after, _, ended, played, moved⟩
    · obtain ⟨history, ending, after, length, finished, rest⟩ := ih middle
      obtain ⟨witnesses, iterations⟩ := moved.refuted
      refine ⟨refutation :: history, ending, after, ?_, ?_, ?_⟩
      · simpa using length
      · rw [rounds, played]
        dsimp only
        rw [finished, iterations, List.length_cons, Nat.add_assoc, Nat.add_comm 1]
      · rw [witnesses] at rest
        rw [transcript_cons]
        exact moved.trans rest
    · refine ⟨[], ending, after, .inr ⟨ended, fuel.succ_pos⟩, ?_, by rwa [transcript_nil]⟩
      obtain ⟨answer, answered⟩ :=
        Ending.answer_eq_some ended progress.solver.statistics.iterations
      rw [rounds, played, List.length_nil, Nat.add_zero, answered]

theorem Solver.run_moves (solver : Solver) (players : Players σ τ ω) (fuel : Nat) (proposer : σ)
    (refuter : τ) (oracle : ω) :
    ∃ history ending after,
      solver.run players fuel proposer refuter oracle = (ending.answer history.length, after) ∧
      players.Moves
        ⟨{ solver with statistics := .initial solver.witnesses.length }, proposer, refuter, oracle,
          #[]⟩
        (transcript solver.witnesses history ending) ending.mismatches after := by
  obtain ⟨history, ending, after, _, finished, moved⟩ := players.rounds_moves fuel
    ⟨{ solver with statistics := .initial solver.witnesses.length }, proposer, refuter, oracle, #[]⟩
  refine ⟨history, ending, after, ?_, moved⟩
  rw [run, finished]
  exact congrArg (fun count => (ending.answer count, after)) (Nat.zero_add history.length)

end Formulary.Search
