import Formulary.Proofs.Session.Bench
import Formulary.Proofs.Session.Course

namespace Formulary.Session

theorem Enters.eq_of_chosen {session entered : Session} {directory : Path}
    (enters : Enters session directory entered) (chosen : session.workDirectory?.isSome) :
    entered = session := by
  cases enters with
  | known _ => rfl
  | made unknown =>
    rw [unknown] at chosen
    cases chosen

section Calls

variable {World : Type} {host : Host (StateM World)} {standing : Standing Session World}

theorem Leaves.of_failed {α : Type} {step : SessionM (StateM World) α} {stopped : Session → Prop}
    {made : α → Session → Prop} (leaves : Leaves step standing stopped made)
    (failed : (Call.ended step standing).1 = false) :
    stopped (Call.ended step standing).2.state := by
  rcases leaves.ended with ⟨after, ended, left⟩ | ⟨_, after, ended, _⟩
  · rw [ended]
    exact left
  · rw [ended] at failed
    cases failed

theorem inDirectory_chosen {directory : Path} (next : Path → Session → Call)
    (chosen : standing.state.workDirectory? = some directory) :
    (Call.inDirectory host next standing).2 =
      (next directory standing.state).make host standing := by
  have entered : perform (workDirectory host) standing = (.ok directory, standing) :=
    perform_workDirectory chosen
  simp only [Call.inDirectory, entered]

theorem generateTo_failed {formula : Formula} {path : Path}
    (failed : ((Call.generateTo formula path).make host standing).1 = false) :
    ((Call.generateTo formula path).make host standing).2.state = standing.state :=
  (generateTo_leaves host standing.state standing.world formula path).of_failed failed

theorem simulate_failed {input output : Path}
    (failed : ((Call.simulate input output).make host standing).1 = false) :
    ((Call.simulate input output).make host standing).2.state = standing.state :=
  (simulate_leaves host standing.state standing.world input output).of_failed failed

/-- A compilation may stop before it has entered the directory, or in it. -/
theorem compile_failed (chosen : standing.state.workDirectory?.isSome)
    (failed : (Call.compile.make host standing).1 = false) :
    (Call.compile.make host standing).2.state = standing.state := by
  have left := (compile_leaves host standing.state standing.world).of_failed failed
  rcases left with same | ⟨directory, enters⟩
  · exact same
  · exact enters.eq_of_chosen chosen

theorem make_failed (chosen : standing.state.workDirectory?.isSome) {call : Call}
    (plain : ∀ rows, call ≠ .allSatisfied rows) (failed : (call.make host standing).1 = false) :
    (call.make host standing).2.state = standing.state := by
  obtain ⟨directory, known⟩ := Option.isSome_iff_exists.mp chosen
  cases call with
  | generate formula =>
    rw [generate_make, inDirectory_chosen _ known] at failed ⊢
    exact generateTo_failed failed
  | generateTo formula path => exact generateTo_failed failed
  | compile => exact compile_failed chosen failed
  | addRows rows =>
    exact (addRows_leaves standing.state standing.world rows).of_failed failed
  | clearRows => cases failed
  | simulate input output => exact simulate_failed failed
  | runPending =>
    rw [runPending_make, inDirectory_chosen _ known] at failed ⊢
    exact simulate_failed failed
  | allSatisfied rows => exact absurd rfl (plain rows)

theorem generateTo_unlowered {formula : Formula} {error : Error}
    (unlowered : formula.program = .error error) (path : Path) :
    perform (generateTo host formula path) standing = (.error error, standing) := by
  unfold generateTo
  rw [unlowered]
  exact perform_bind_error (perform_except _ _)

theorem generate_unlowered {formula : Formula} {error : Error} {directory : Path}
    (unlowered : formula.program = .error error)
    (chosen : standing.state.workDirectory? = some directory) :
    perform (generate host formula) standing = (.error error, standing) := by
  have entered : perform (workDirectory host) standing = (.ok directory, standing) :=
    perform_workDirectory chosen
  unfold generate
  rw [perform_bind_ok entered, perform_get_bind]
  exact generateTo_unlowered unlowered _

end Calls

/-- A call that fails leaves a session that has its directory as it was: its settings, columns,
source, program, waiting rows and statistics. Only the oracle's call drops rows before it can
fail. A generation that fails for its formula leaves the world as it was, too. -/
theorem failed_calls_change_nothing {World : Type} (host : Host (StateM World))
    (standing : Standing Session World) (chosen : standing.state.workDirectory?.isSome) :
    (∀ call : Call, (∀ rows, call ≠ .allSatisfied rows) → (call.make host standing).1 = false →
      (call.make host standing).2.state = standing.state) ∧
    ∀ formula error, formula.program = .error error →
      perform (generate host formula) standing = (.error error, standing) ∧
      ∀ path, perform (generateTo host formula path) standing = (.error error, standing) := by
  constructor
  · intro call plain failed
    exact make_failed chosen plain failed
  · intro formula error unlowered
    obtain ⟨directory, known⟩ := Option.isSome_iff_exists.mp chosen
    exact ⟨generate_unlowered unlowered known, generateTo_unlowered unlowered⟩

def twoWaiting : Session :=
  { Session.new (Bench.workshop ⟨"work"⟩) with
    columns := ⟨[⟨"a", "v_a", .bool⟩]⟩
    source := some ⟨"work/formula.rs"⟩
    program := some ⟨"work/formula_eval"⟩
    batch := ⟨[["1"], ["0"]]⟩
    statistics := ⟨1, 0, 0⟩ }

/-- The evaluator stops after one of the rows, which the session learns from the results. Of the
rows to be added, the last one is no good. There is no program for arrays. -/
theorem failed_calls_twoWaiting :
    let curt : Path → List String → Bench → Effect := fun _ arguments _ =>
      ⟨.ok ⟨some 0, "", ""⟩, (arguments[1]?.map fun output => (⟨output⟩, "1\n")).toList⟩
    let host := Bench.host curt
    let standing : Standing Session Bench :=
      ⟨twoWaiting, Bench.put (.command 1) ⟨fun _ => none, 1⟩ (⟨"work/formula_eval"⟩, "")⟩
    let batch := [Row.empty.insert "a" (.bool true), .empty]
    twoWaiting.workDirectory?.isSome ∧
      (perform (runPending host) standing).1 = .error (.execution (.rowCount 2 1)) ∧
      (Call.runPending.make host standing).2.state = twoWaiting ∧
      ((Call.addRows batch).make host standing).1 = false ∧
      ((Call.addRows batch).make host standing).2.state = twoWaiting ∧
      perform (generate host (.lone "a" (.array .int .int))) standing =
        (.error (.sort (.array .int .int) .unrepresented), standing) := by
  intro curt host standing batch
  have chosen : standing.state.workDirectory?.isSome := rfl
  obtain ⟨kept, unlowered⟩ := failed_calls_change_nothing host standing chosen
  have short : (perform (runPending host) standing).1 = .error (.execution (.rowCount 2 1)) := by
    simp only [host, standing, curt]
    cbv
  have stopped : (Call.runPending.make host standing).1 = false := by
    rw [Call.make, Call.ended, short]
    rfl
  have refused : ((Call.addRows batch).make host standing).1 = false := rfl
  have arrays : (Formula.lone "a" (.array .int .int)).program =
      .error (.sort (.array .int .int) .unrepresented) := by cbv
  refine ⟨chosen, short, ?_, refused, ?_, (unlowered _ _ arrays).1⟩
  · apply kept .runPending _ stopped
    intro rows same
    cases same
  · apply kept (.addRows batch) _ refused
    intro rows same
    cases same

end Formulary.Session
