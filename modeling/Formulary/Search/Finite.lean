import Formulary.Evaluation
import Formulary.Search.Domain
import Formulary.Search.Loop

namespace Formulary.Search

structure FiniteProblem where
  formula : Formula
  outer : List Domain
  inner : List Domain

/-- Points before the cursor are refuted by some witness, for good. -/
structure Candidates where
  witnesses : List Row
  cursor : Nat
deriving DecidableEq

def Candidates.fresh : Candidates := ⟨[], 0⟩

namespace FiniteProblem

/-- Whether a candidate satisfies the formula with every witness; the first one that
fails decides. -/
def consistent (problem : FiniteProblem) (candidate : Row) : List Row → Except Error Bool
  | [] => .ok true
  | witness :: rest =>
    match problem.formula.satisfies (candidate.merge witness) with
    | .error error => .error error
    | .ok false => .ok false
    | .ok true => problem.consistent candidate rest

/-- The first consistent point from the cursor on, and where the search stopped. -/
def advance (problem : FiniteProblem) (witnesses : List Row) (cursor : Nat) :
    Except Error (Option Row) × Nat :=
  if _inside : cursor < productSize problem.outer then
    let candidate := point problem.outer cursor
    match problem.consistent candidate witnesses with
    | .error error => (.error error, cursor)
    | .ok true => (.ok (some candidate), cursor)
    | .ok false => problem.advance witnesses (cursor + 1)
  else (.ok none, cursor)
termination_by productSize problem.outer - cursor

def propose (problem : FiniteProblem) (candidates : Candidates) :
    Except Error (Option Row) × Candidates :=
  if problem.outer.any (·.values.isEmpty) then (.ok none, candidates)
  else
    let (answer, cursor) := problem.advance candidates.witnesses candidates.cursor
    (answer, { candidates with cursor })

/-- The first inner point from an index on at which the candidate fails. -/
def refuteFrom (problem : FiniteProblem) (candidate : Row) (index : Nat) :
    Except Error (Option Row) :=
  if _inside : index < productSize problem.inner then
    let witness := point problem.inner index
    match problem.formula.satisfies (candidate.merge witness) with
    | .error error => .error error
    | .ok false => .ok (some witness)
    | .ok true => problem.refuteFrom candidate (index + 1)
  else .ok none
termination_by productSize problem.inner - index

def refute (problem : FiniteProblem) (candidate : Row) : Except Error (Option Row) :=
  if problem.inner.any (·.values.isEmpty) then .ok none
  else problem.refuteFrom candidate 0

def proposer (problem : FiniteProblem) : Proposer Candidates where
  propose := problem.propose
  strengthen witness candidates :=
    (.ok (), { candidates with witnesses := candidates.witnesses ++ [witness] })

def refuter (problem : FiniteProblem) : Refuter Unit where
  refute candidate _ := (problem.refute candidate, ())

/-- A round that goes on moves the cursor, so a run needs no more rounds than this. -/
def enoughRounds (problem : FiniteProblem) : Nat := productSize problem.outer + 1

end FiniteProblem

/-- An oracle that evaluates a formula on every row. -/
def evaluating (formula : Formula) : Oracle Unit where
  allHold rows _ :=
    ((formula.evaluateRows rows).map fun values =>
      values.all fun value => value.bool? = some true, ())

end Formulary.Search
