import Formulary.Error
import Formulary.Row

/-! Search for values of outer variables that satisfy a formula for all values of inner
ones. A proposer offers candidates, a refuter looks for counterexamples, and the
proposer must respect every counterexample found. A batch oracle may be asked about a
candidate first; its answers are only counted. -/
namespace Formulary.Search

/-- Offers candidates, and takes counterexamples into account. -/
structure Proposer (State : Type) where
  propose : State → Except Error (Option Row) × State
  strengthen : Row → State → Except Error Unit × State

/-- Looks for a counterexample to a candidate. -/
structure Refuter (State : Type) where
  refute : Row → State → Except Error (Option Row) × State

/-- Says whether all rows satisfy the formula. -/
structure Oracle (State : Type) where
  allHold : List Row → State → Except Error Bool × State

/-- One question and its answer. -/
inductive Call where
  | propose (answer : Except Error (Option Row))
  | strengthen (witness : Row) (answer : Except Error Unit)
  | refute (candidate : Row) (answer : Except Error (Option Row))
  | consult (rows : List Row) (answer : Except Error Bool)

structure Config where
  maxLoops : Option Nat
  simulate : Bool
deriving DecidableEq

def Config.default : Config := ⟨some 1000, true⟩

inductive Outcome where
  | sat (model : Row)
  | unsat
deriving DecidableEq

structure Statistics where
  iterations : Nat
  witnesses : Nat
  exactQueries : Nat
  simulations : Nat
  rejections : Nat
  mismatches : Nat
deriving DecidableEq

namespace Statistics

def initial (witnesses : Nat) : Statistics := ⟨0, witnesses, 0, 0, 0, 0⟩

/-- The share of oracle answers that were negative. -/
def rejectionRate (statistics : Statistics) : Float :=
  if statistics.simulations = 0 then 0
  else statistics.rejections.toFloat / statistics.simulations.toFloat

def text (statistics : Statistics) (elapsed : String) : String :=
  "iterations=" ++ toString statistics.iterations ++
    " witnesses=" ++ toString statistics.witnesses ++
    " exact_queries=" ++ toString statistics.exactQueries ++
    " simulations=" ++ toString statistics.simulations ++
    " rejections=" ++ toString statistics.rejections ++ " time=" ++ elapsed

end Statistics

/-- What stays between runs: the settings, the counterexamples accepted so far, and the
counts of the last run. -/
structure Solver where
  config : Config
  witnesses : List Row
  statistics : Statistics

def Solver.new (config : Config) : Solver := ⟨config, [], .initial 0⟩

/-- Those who take part in a run. -/
structure Players (σ τ ω : Type) where
  proposer : Proposer σ
  refuter : Refuter τ
  oracle : Option (Oracle ω)

/-- A run in progress, with all calls made so far. -/
structure Progress (σ τ ω : Type) where
  solver : Solver
  proposer : σ
  refuter : τ
  oracle : ω
  calls : Array Call

namespace Players

variable {σ τ ω : Type}

/-- Asks the oracle about a candidate and every accepted counterexample, if it takes
part and there are any. -/
def consult (players : Players σ τ ω) (candidate : Row) (progress : Progress σ τ ω) :
    Except Error (Option Bool) × Progress σ τ ω :=
  let solver := progress.solver
  match players.oracle with
  | none => (.ok none, progress)
  | some oracle =>
    if solver.config.simulate && !solver.witnesses.isEmpty then
      let rows := solver.witnesses.map candidate.merge
      let (answer, state) := oracle.allHold rows progress.oracle
      let progress :=
        { progress with oracle := state, calls := progress.calls.push (.consult rows answer) }
      match answer with
      | .error error => (.error error, progress)
      | .ok passed =>
        let statistics :=
          { solver.statistics with
            simulations := solver.statistics.simulations + 1
            rejections := solver.statistics.rejections + if passed then 0 else 1 }
        (.ok (some passed), { progress with solver := { solver with statistics } })
    else (.ok none, progress)

/-- Confirms a candidate or refutes it for good. -/
def settle (players : Players σ τ ω) (candidate : Row) (simulated : Option Bool)
    (progress : Progress σ τ ω) : Option (Except Error Outcome) × Progress σ τ ω :=
  let (answer, state) := players.refuter.refute candidate progress.refuter
  let solver := progress.solver
  let counted :=
    { solver.statistics with exactQueries := solver.statistics.exactQueries + 1 }
  let progress :=
    { progress with
      refuter := state
      calls := progress.calls.push (.refute candidate answer)
      solver := { solver with statistics := counted } }
  match answer with
  | .error error => (some (.error error), progress)
  | .ok none =>
    let mismatch := if simulated = some false then 1 else 0
    let statistics := { counted with mismatches := counted.mismatches + mismatch }
    (some (.ok (.sat candidate)), { progress with solver := { solver with statistics } })
  | .ok (some witness) =>
    let (accepted, state) := players.proposer.strengthen witness progress.proposer
    let progress :=
      { progress with
        proposer := state, calls := progress.calls.push (.strengthen witness accepted) }
    match accepted with
    | .error error => (some (.error error), progress)
    | .ok () =>
      let witnesses := solver.witnesses ++ [witness]
      let statistics := { counted with witnesses := witnesses.length }
      (none, { progress with solver := { solver with witnesses, statistics } })

/-- One round: a candidate, then its confirmation or refutation. Without an answer the
run goes on. -/
def round (players : Players σ τ ω) (progress : Progress σ τ ω) :
    Option (Except Error Outcome) × Progress σ τ ω :=
  let solver := progress.solver
  let iterations := solver.statistics.iterations
  if solver.config.maxLoops.any (· ≤ iterations) then
    (some (.error (.undecided iterations)), progress)
  else
    let (answer, state) := players.proposer.propose progress.proposer
    let progress :=
      { progress with proposer := state, calls := progress.calls.push (.propose answer) }
    match answer with
    | .error error => (some (.error error), progress)
    | .ok none => (some (.ok .unsat), progress)
    | .ok (some candidate) =>
      let statistics := { solver.statistics with iterations := iterations + 1 }
      let progress := { progress with solver := { solver with statistics } }
      match players.consult candidate progress with
      | (.error error, progress) => (some (.error error), progress)
      | (.ok simulated, progress) => players.settle candidate simulated progress

/-- Rounds up to the first answer, but no more than the fuel allows. -/
def rounds (players : Players σ τ ω) :
    (fuel : Nat) → Progress σ τ ω → Option (Except Error Outcome) × Progress σ τ ω
  | 0, progress => (none, progress)
  | fuel + 1, progress =>
    match players.round progress with
    | (some answer, progress) => (some answer, progress)
    | (none, progress) => players.rounds fuel progress

end Players

/-- A run from the solver's counterexamples; the counts start anew. -/
def Solver.run {σ τ ω : Type} (solver : Solver) (players : Players σ τ ω) (fuel : Nat)
    (proposer : σ) (refuter : τ) (oracle : ω) :
    Option (Except Error Outcome) × Progress σ τ ω :=
  let fresh := { solver with statistics := .initial solver.witnesses.length }
  players.rounds fuel ⟨fresh, proposer, refuter, oracle, #[]⟩

end Formulary.Search
