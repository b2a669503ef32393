import Formulary.Proofs.Pattern
import Formulary.Proofs.Session.Course

/-! The history of a session. Whatever is asked of a session and whatever its host answers, the
rows that wait suit its columns, its program is that of the last formula, and its statistics
count what has succeeded. -/
namespace Formulary.Session

/-- A compilation has succeeded, and no generation since then. -/
def UpToDate (log : List Record) : Prop :=
  ∃ before record after, log = before ++ record :: after ∧ record.compiled = true ∧
    ∀ later ∈ after, later.generated = false

theorem UpToDate.append {log : List Record} (upToDate : UpToDate log) {record : Record}
    (ungenerated : record.generated = false) : UpToDate (log ++ [record]) := by
  obtain ⟨before, compilation, after, rfl, compiled, kept⟩ := upToDate
  refine ⟨before, compilation, after ++ [record], by simp, compiled, fun later member => ?_⟩
  rcases List.mem_append.mp member with old | last
  · exact kept later old
  · rw [List.mem_singleton.mp last, ungenerated]

/-- The rows that waited when simulations succeeded, over all of them. -/
def simulatedRows : List Record → Nat
  | [] => 0
  | record :: rest => (if record.simulated then record.pending else 0) + simulatedRows rest

theorem simulatedRows_append (log : List Record) (record : Record) :
    simulatedRows (log ++ [record]) =
      simulatedRows log + if record.simulated then record.pending else 0 := by
  induction log with
  | nil => simp [simulatedRows]
  | cons first rest ih =>
    rw [List.cons_append, simulatedRows, ih, simulatedRows, Nat.add_assoc]

/-- What is known of a session after recorded calls. -/
structure Sound (session : Session) (log : List Record) : Prop where
  /-- The waiting rows are encoded under the columns. -/
  pending : ∀ line ∈ session.batch.rows, line.length = session.columns.list.length ∧
    ∃ (row : Row) (index : Nat), row.cells index session.columns = .ok line
  /-- A program is that of the source. -/
  compiled : session.program.isSome → session.source.isSome ∧ UpToDate log
  compilations : session.statistics.compilations = log.countP Record.compiled
  simulations : session.statistics.simulations = log.countP Record.simulated
  rows : session.statistics.rows = simulatedRows log

namespace Sound

variable {session : Session} {log : List Record}

theorem new (config : SessionConfig) : Sound (.new config) [] where
  pending := fun line member => by cases member
  compiled := fun present => by cases present
  compilations := rfl
  simulations := rfl
  rows := rfl

theorem scratch (sound : Sound session log) (scratch : Option Path) :
    Sound { session with scratch } log :=
  ⟨sound.pending, sound.compiled, sound.compilations, sound.simulations, sound.rows⟩

theorem regenerate (sound : Sound session log) (columns : Columns) (path : Path) :
    Sound (session.generated columns path) log where
  pending := fun line member => by cases member
  compiled := fun present => by cases present
  compilations := sound.compilations
  simulations := sound.simulations
  rows := sound.rows

theorem clear (sound : Sound session log) : Sound { session with batch := .empty } log where
  pending := fun line member => by cases member
  compiled := sound.compiled
  compilations := sound.compilations
  simulations := sound.simulations
  rows := sound.rows

theorem add (sound : Sound session log) {base : Nat} {rows : List Row}
    {lines : List (List String)} (encoded : encodeRows session.columns base rows = .ok lines) :
    Sound { session with batch := session.batch.append lines } log := by
  refine ⟨fun line member => ?_, sound.compiled, sound.compilations, sound.simulations,
    sound.rows⟩
  rcases List.mem_append.mp member with old | fresh
  · exact sound.pending line old
  · obtain ⟨row, index, made⟩ := related_of_mem (encodeRows_ok encoded).flip fresh
    exact ⟨(mapM_ok.mp made).length_eq.symm, row, index, made⟩

/-- A call that is not counted, and does not leave a program if it generates a source. -/
theorem note (sound : Sound session log) {record : Record} (uncompiled : record.compiled = false)
    (unsimulated : record.simulated = false)
    (invalidates : record.generated = true → session.program = none) :
    Sound session (log ++ [record]) where
  pending := sound.pending
  compiled := by
    intro present
    obtain ⟨source, upToDate⟩ := sound.compiled present
    refine ⟨source, upToDate.append (Bool.eq_false_iff.mpr fun generated => ?_)⟩
    rw [invalidates generated] at present
    cases present
  compilations := by simp [sound.compilations, uncompiled]
  simulations := by simp [sound.simulations, unsimulated]
  rows := by simp [sound.rows, simulatedRows_append, unsimulated]

theorem compile (sound : Sound session log) (source : session.source.isSome)
    {record : Record} (compiled : record.compiled = true) (unsimulated : record.simulated = false)
    (directory : Path) : Sound (session.compiled directory) (log ++ [record]) where
  pending := sound.pending
  compiled := fun _ => ⟨source, log, record, [], rfl, compiled, by simp⟩
  compilations := by simp [Session.compiled, sound.compilations, compiled]
  simulations := by simp [Session.compiled, sound.simulations, unsimulated]
  rows := by simp [Session.compiled, sound.rows, simulatedRows_append, unsimulated]

theorem simulate (sound : Sound session log) {record : Record}
    (uncompiled : record.compiled = false) (simulated : record.simulated = true)
    (ungenerated : record.generated = false) (counted : record.pending = session.batch.size) :
    Sound (session.counted session.batch.size) (log ++ [record]) where
  pending := sound.pending
  compiled := fun present =>
    ⟨(sound.compiled present).1, (sound.compiled present).2.append ungenerated⟩
  compilations := by simp [Session.counted, sound.compilations, uncompiled]
  simulations := by simp [Session.counted, sound.simulations, simulated]
  rows := by simp [Session.counted, sound.rows, simulatedRows_append, simulated, counted]

end Sound

/-- What is known of a session is known after its next step. -/
theorem Sound.step {session after : Session} {log records : List Record}
    (sound : Sound session log) (next : Step session records after) :
    Sound after (log ++ records) := by
  cases next with
  | enter enters =>
    obtain ⟨scratch, rfl⟩ := enters.same
    rw [List.append_nil]
    exact sound.scratch scratch
  | generate path _ => exact (sound.regenerate _ path).note rfl rfl fun _ => rfl
  | compile source _ => exact sound.compile source rfl rfl _
  | add encoded => exact (sound.add encoded).note rfl rfl nofun
  | clear => exact sound.clear.note rfl rfl nofun
  | simulate input output => exact sound.simulate rfl rfl rfl rfl
  | note uncompiled unsimulated current =>
    refine sound.note uncompiled unsimulated fun generated => ?_
    rw [Record.generated_eq, Option.isSome_iff_exists] at generated
    obtain ⟨formula, generation⟩ := generated
    exact (current formula generation).1

theorem history_sound {World : Type} {host : Host (StateM World)}
    {standing : Standing Session World} {log : List Record} (calls : List Call) (sound : Sound standing.state log) :
    Sound (history host calls standing).2.state (log ++ (history host calls standing).1) :=
  Run.keeps (fun _ _ _ _ known next => known.step next) sound (history_run calls)

/-- Whatever is asked of a new session, and whatever its host answers, the waiting rows suit
the columns, a program is that of the last source, and the statistics count the calls that
have succeeded. -/
theorem new_session_sound {World : Type} (host : Host (StateM World)) (config : SessionConfig)
    (world : World) (calls : List Call) :
    let outcome := history host calls ⟨.new config, world⟩
    Sound outcome.2.state outcome.1 := by
  have start : Sound (⟨.new config, world⟩ : Standing Session World).state [] := .new config
  exact history_sound calls start

end Formulary.Session
