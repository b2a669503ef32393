import Formulary.Proofs.Session.Steps

/-! The course of a session. Calls may make further calls; each of them comes down to steps that
enter a directory, generate, compile, add or drop rows, simulate, or leave the session alone. -/
namespace Formulary.Session

/-- What can be asked of a session. -/
inductive Call where
  | generate (formula : Formula)
  | generateTo (formula : Formula) (path : Path)
  | compile
  | addRows (rows : List Row)
  | clearRows
  | simulate (input output : Path)
  | runPending
  | allSatisfied (rows : List Row)

/-- A call, how many rows waited when it was made, and whether it succeeded. -/
structure Record where
  call : Call
  pending : Nat
  succeeded : Bool

namespace Record

def generated (record : Record) : Bool :=
  match record.call with
  | .generate _ | .generateTo .. => record.succeeded
  | _ => false

def compiled (record : Record) : Bool :=
  match record.call with
  | .compile => record.succeeded
  | _ => false

def simulated (record : Record) : Bool :=
  match record.call with
  | .simulate .. => record.succeeded
  | _ => false

end Record

section Histories

variable {World : Type} (host : Host (StateM World))

namespace Call

/-- Whether a step succeeds, and what it leaves. -/
def ended {World α : Type} (step : SessionM (StateM World) α) (standing : Standing Session World) :
    Bool × Standing Session World :=
  let outcome := perform step standing
  (outcome.1.isOk, outcome.2)

def make : Call → Standing Session World → Bool × Standing Session World
  | generate formula => ended (Session.generate host formula)
  | generateTo formula path => ended (Session.generateTo host formula path)
  | compile => ended (Session.compile host)
  | addRows rows => ended (Session.addRows rows)
  | clearRows => ended Session.clearRows
  | simulate input output => ended (Session.simulate host input output)
  | runPending => ended (Session.runPending host)
  | allSatisfied rows => ended (Session.allSatisfied host rows)

def record (call : Call) (standing : Standing Session World) : Record :=
  ⟨call, standing.state.batch.size, (call.make host standing).1⟩

/-- Makes a call in the session's directory, once there is one. Also gives its record. -/
def inDirectory (next : Path → Session → Call) (standing : Standing Session World) :
    List Record × Bool × Standing Session World :=
  match perform (workDirectory host) standing with
  | (.error _, after) => ([], false, after)
  | (.ok directory, ready) =>
    let call := next directory ready.state
    ([call.record host ready], call.make host ready)

/-- The call that generating in the session's directory comes down to. -/
def generation (formula : Formula) (directory : Path) (session : Session) : Call :=
  .generateTo formula (session.config.sourcePath directory)

/-- The call that running the waiting rows comes down to. -/
def simulation (directory : Path) (session : Session) : Call :=
  .simulate (session.config.patternPath directory) (session.config.resultPath directory)

/-- The records of the calls that a call makes itself, and then its own. -/
def records : Call → Standing Session World → List Record
  | generate formula, standing =>
    (inDirectory host (generation formula) standing).1 ++ [(generate formula).record host standing]
  | runPending, standing =>
    (inDirectory host simulation standing).1 ++ [runPending.record host standing]
  | allSatisfied rows, standing =>
    let cleared := (clearRows.make host standing).2
    let added := (addRows rows).make host cleared
    [clearRows.record host standing, (addRows rows).record host cleared] ++
      (if added.1 then
        (inDirectory host simulation added.2).1 ++ [runPending.record host added.2]
      else []) ++
      [(allSatisfied rows).record host standing]
  | call, standing => [call.record host standing]

end Call

/-- The records of calls that are made one after the other, and what they leave. -/
def history : List Call → Standing Session World → List Record × Standing Session World
  | [], standing => ([], standing)
  | call :: rest, standing =>
    let later := history rest (call.make host standing).2
    (call.records host standing ++ later.1, later.2)

end Histories

/-- The formula whose program a call has written. -/
def Record.generation? (record : Record) : Option Formula :=
  match record.call with
  | .generate formula | .generateTo formula _ => if record.succeeded then some formula else none
  | _ => none

theorem Record.generated_eq (record : Record) : record.generated = record.generation?.isSome := by
  rcases record with ⟨call, pending, succeeded⟩
  cases call <;> cases succeeded <;> rfl

def lastGeneration? (log : List Record) : Option Formula :=
  (log.filterMap Record.generation?).getLast?

/-- What a session does at once, and what it then records. -/
inductive Step (session : Session) : List Record → Session → Prop where
  | enter {directory : Path} {entered : Session} (enters : Enters session directory entered) :
      Step session [] entered
  | generate {formula : Formula} {program : Code.Program} (path : Path)
      (lowered : formula.program = .ok program) :
      Step session [⟨.generateTo formula path, session.batch.size, true⟩]
        (session.generated program.columns path)
  | compile {directory : Path} (source : session.source.isSome)
      (has : session.workDirectory? = some directory) :
      Step session [⟨.compile, session.batch.size, true⟩] (session.compiled directory)
  | add {rows : List Row} {lines : List (List String)}
      (encoded : encodeRows session.columns session.batch.size rows = .ok lines) :
      Step session [⟨.addRows rows, session.batch.size, true⟩]
        { session with batch := session.batch.append lines }
  | clear : Step session [⟨.clearRows, session.batch.size, true⟩] { session with batch := .empty }
  | simulate (input output : Path) :
      Step session [⟨.simulate input output, session.batch.size, true⟩]
        (session.counted session.batch.size)
  /-- A call that has failed, or whose work was done by calls that it made itself. -/
  | note {record : Record} (uncompiled : record.compiled = false)
      (unsimulated : record.simulated = false)
      (current : ∀ formula ∈ record.generation?, session.program = none ∧
        ∃ program, formula.program = .ok program ∧ session.columns = program.columns) :
      Step session [record] session

/-- Step after step. -/
inductive Run (start : Session) : List Record → Session → Prop where
  | refl : Run start [] start
  | step {log records : List Record} {middle after : Session} (run : Run start log middle)
      (next : Step middle records after) : Run start (log ++ records) after

namespace Run

variable {start middle after : Session} {log records : List Record}

theorem single (next : Step start records after) : Run start records after := by
  simpa using Run.refl.step next

theorem trans (first : Run start log middle) (later : Run middle records after) :
    Run start (log ++ records) after := by
  induction later with
  | refl => simpa using first
  | step _ next ih =>
    rw [← List.append_assoc]
    exact ih.step next

theorem keeps {holds : Session → List Record → Prop}
    (each : ∀ session log records after, holds session log → Step session records after →
      holds after (log ++ records))
    {past : List Record} (start_holds : holds start past) (run : Run start log after) :
    holds after (past ++ log) := by
  induction run with
  | refl => simpa using start_holds
  | step _ next ih =>
    rw [← List.append_assoc]
    exact each _ _ _ _ ih next

end Run

section Calls

variable {World : Type} {host : Host (StateM World)} {standing : Standing Session World}

theorem Leaves.ended {α : Type} {step : SessionM (StateM World) α} {failed : Session → Prop}
    {succeeded : α → Session → Prop} (leaves : Leaves step standing failed succeeded) :
    (∃ after, Call.ended step standing = (false, after) ∧ failed after.state) ∨
      ∃ value after, Call.ended step standing = (true, after) ∧ succeeded value after.state := by
  unfold Leaves at leaves
  unfold Call.ended
  generalize perform step standing = outcome at leaves ⊢
  rcases outcome with ⟨_ | value, after⟩
  · exact .inl ⟨after, rfl, leaves⟩
  · exact .inr ⟨value, after, rfl, leaves⟩

theorem Leaves.run {α : Type} {step : SessionM (StateM World) α} {failed : Session → Prop}
    {succeeded : α → Session → Prop} (leaves : Leaves step standing failed succeeded) {call : Call}
    (made : call.make host standing = Call.ended step standing)
    (onFailure : ∀ after, failed after →
      Run standing.state [⟨call, standing.state.batch.size, false⟩] after)
    (onSuccess : ∀ value after, succeeded value after →
      Run standing.state [⟨call, standing.state.batch.size, true⟩] after) :
    Run standing.state [call.record host standing] (call.make host standing).2.state := by
  rw [Call.record, made]
  rcases leaves.ended with ⟨after, ended, left⟩ | ⟨value, after, ended, left⟩
  · rw [ended]
    exact onFailure after.state left
  · rw [ended]
    exact onSuccess value after.state left

theorem run_failed {session after : Session} {call : Call} {pending : Nat}
    (entered : after = session ∨ ∃ directory, Enters session directory after) :
    Run session [⟨call, pending, false⟩] after := by
  have noted : Step after [⟨call, pending, false⟩] after := by
    cases call <;> exact .note rfl rfl nofun
  rcases entered with rfl | ⟨directory, enters⟩
  · exact .single noted
  · exact (Run.single (.enter enters)).step noted

theorem generateTo_run (formula : Formula) (path : Path) :
    let call := Call.generateTo formula path
    Run standing.state [call.record host standing] (call.make host standing).2.state := by
  refine (generateTo_leaves host standing.state standing.world formula path).run rfl ?_ ?_
  · exact fun after same => run_failed (.inl same)
  · rintro _ _ ⟨program, lowered, rfl⟩
    exact .single (.generate path lowered)

theorem compile_run :
    Run standing.state [Call.compile.record host standing]
      (Call.compile.make host standing).2.state := by
  refine (compile_leaves host standing.state standing.world).run rfl ?_ ?_
  · exact fun after entered => run_failed entered
  · rintro _ _ ⟨source, directory, entered, enters, rfl⟩
    have compiled : Step entered [⟨.compile, standing.state.batch.size, true⟩]
        (entered.compiled directory) := by
      have has := enters.workDirectory?
      obtain ⟨scratch, rfl⟩ := enters.same
      exact .compile source has
    exact (Run.single (.enter enters)).step compiled

theorem addRows_run (rows : List Row) :
    let call := Call.addRows rows
    Run standing.state [call.record host standing] (call.make host standing).2.state := by
  refine (addRows_leaves standing.state standing.world rows).run rfl ?_ ?_
  · exact fun after same => run_failed (.inl same)
  · rintro _ _ ⟨lines, encoded, rfl⟩
    exact .single (.add encoded)

theorem clearRows_run :
    Run standing.state [Call.clearRows.record host standing]
      (Call.clearRows.make host standing).2.state := .single .clear

theorem simulate_run (input output : Path) :
    let call := Call.simulate input output
    Run standing.state [call.record host standing] (call.make host standing).2.state := by
  refine (simulate_leaves host standing.state standing.world input output).run rfl ?_ ?_
  · exact fun after same => run_failed (.inl same)
  · rintro _ _ rfl
    exact .single (.simulate input output)

/-- What a generation leaves. -/
theorem generateTo_current {formula : Formula} {path : Path}
    (succeeded : ((Call.generateTo formula path).make host standing).1 = true) :
    let after := ((Call.generateTo formula path).make host standing).2.state
    after.program = none ∧
      ∃ program, formula.program = .ok program ∧ after.columns = program.columns := by
  rcases (generateTo_leaves host standing.state standing.world formula path).ended with
    ⟨after, made, _⟩ | ⟨_, after, made, program, lowered, same⟩
  · rw [show (Call.generateTo formula path).make host standing = _ from made] at succeeded
    cases succeeded
  · rw [show (Call.generateTo formula path).make host standing = _ from made]
    exact same ▸ ⟨rfl, program, lowered, rfl⟩

theorem ended_bind {α β : Type} (step : SessionM (StateM World) α)
    (next : α → SessionM (StateM World) β) (standing : Standing Session World) :
    Call.ended (step >>= next) standing =
      match perform step standing with
      | (.error _, after) => (false, after)
      | (.ok value, after) => Call.ended (next value) after := by
  rw [Call.ended, perform_bind]
  rcases perform step standing with ⟨_ | value, after⟩ <;> rfl

theorem ended_then {α : Type} (step : SessionM (StateM World) Unit)
    (next : SessionM (StateM World) α) (standing : Standing Session World) :
    Call.ended (step >>= fun _ => next) standing =
      if (Call.ended step standing).1 then Call.ended next (Call.ended step standing).2
      else (false, (Call.ended step standing).2) := by
  rw [ended_bind, Call.ended]
  rcases perform step standing with ⟨_ | value, after⟩ <;> rfl

theorem ended_get {α : Type} (next : Session → SessionM (StateM World) α)
    (standing : Standing Session World) :
    Call.ended (get >>= next) standing = Call.ended (next standing.state) standing := rfl

/-- What is done with the result of a step does not change how it ends. -/
theorem ended_map {α β : Type} (step : SessionM (StateM World) α) (f : α → β)
    (standing : Standing Session World) :
    Call.ended (step >>= fun value => pure (f value)) standing = Call.ended step standing := by
  rw [ended_bind, Call.ended]
  rcases perform step standing with ⟨_ | value, after⟩ <;> rfl

theorem ended_keeps {α β : Type} (step : SessionM (StateM World) α)
    {next : α → SessionM (StateM World) β} (keeps : ∀ value, Keeps (next value))
    (standing : Standing Session World) :
    (Call.ended (step >>= next) standing).2.state = (Call.ended step standing).2.state := by
  rw [ended_bind, Call.ended]
  rcases perform step standing with ⟨_ | value, after⟩
  · rfl
  · exact keeps value after

theorem generate_make (formula : Formula) :
    (Call.generate formula).make host standing =
      (Call.inDirectory host (Call.generation formula) standing).2 := by
  rw [Call.make, generate, ended_bind, Call.inDirectory]
  rcases perform (workDirectory host) standing with ⟨_ | directory, ready⟩
  · rfl
  · exact ended_get _ ready

theorem runPending_make :
    Call.runPending.make host standing =
      (Call.inDirectory host Call.simulation standing).2 := by
  rw [Call.make, runPending, ended_bind, Call.inDirectory]
  rcases perform (workDirectory host) standing with ⟨_ | directory, ready⟩
  · rfl
  · exact (ended_get _ ready).trans (ended_map _ _ ready)

/-- The rows are run, if they can be added; what is then read does not matter to the session. -/
theorem allSatisfied_make (rows : List Row) :
    let added := (Call.addRows rows).make host (Call.clearRows.make host standing).2
    ((Call.allSatisfied rows).make host standing).2.state =
      if added.1 then (Call.runPending.make host added.2).2.state else added.2.state := by
  intro added
  have opened : (Call.allSatisfied rows).make host standing =
      Call.ended (allSatisfied host rows) standing := rfl
  have cleared : (Call.ended clearRows standing).1 = true := rfl
  rw [opened, allSatisfied, ended_then, if_pos cleared, ended_then]
  change (if added.1 then _ else (false, added.2)).2.state = _
  split
  · exact ended_keeps (runPending host) (checkAllSatisfied_keeps host) added.2
  · rfl

theorem inDirectory_run {next : Path → Session → Call}
    (each : ∀ directory (ready : Standing Session World),
      let call := next directory ready.state
      Run ready.state [call.record host ready] (call.make host ready).2.state) :
    let outcome := Call.inDirectory host next standing
    Run standing.state outcome.1 outcome.2.2.state := by
  have leaves := workDirectory_leaves host standing.state standing.world
  unfold Leaves at leaves
  unfold Call.inDirectory
  generalize perform (workDirectory host) standing = outcome at leaves ⊢
  rcases outcome with ⟨_ | directory, ready⟩
  · have same : ready.state = standing.state := leaves
    exact same ▸ .refl
  · have enters : Enters standing.state directory ready.state := leaves
    exact (Run.single (.enter enters)).trans (each directory ready)

theorem generate_run (formula : Formula) :
    let call := Call.generate formula
    Run standing.state (call.records host standing) (call.make host standing).2.state := by
  intro call
  rw [Call.records, generate_make]
  refine (inDirectory_run fun directory ready => generateTo_run formula _).step
    (.note rfl rfl fun generated isGenerated => ?_)
  obtain ⟨succeeded, same⟩ := Option.ite_none_right_eq_some.mp isGenerated
  cases same
  have succeeded : (call.make host standing).1 = true := succeeded
  rw [generate_make] at succeeded
  revert succeeded
  unfold Call.inDirectory
  split
  · intro succeeded
    cases succeeded
  · intro succeeded
    exact generateTo_current succeeded

theorem runPending_run :
    Run standing.state ((Call.inDirectory host Call.simulation standing).1 ++
        [Call.runPending.record host standing])
      (Call.runPending.make host standing).2.state := by
  rw [runPending_make]
  exact (inDirectory_run fun directory ready => simulate_run _ _).step (.note rfl rfl nofun)

theorem allSatisfied_run (rows : List Row) :
    let call := Call.allSatisfied rows
    Run standing.state (call.records host standing) (call.make host standing).2.state := by
  intro call
  let cleared := (Call.clearRows.make host standing).2
  let added := (Call.addRows rows).make host cleared
  let simulation := (Call.inDirectory host Call.simulation added.2).1 ++
    [Call.runPending.record host added.2]
  have refilled : Run standing.state ([Call.clearRows.record host standing] ++
      [(Call.addRows rows).record host cleared]) added.2.state :=
    clearRows_run.trans (addRows_run rows)
  have inner : Run standing.state ([Call.clearRows.record host standing] ++
      [(Call.addRows rows).record host cleared] ++ if added.1 then simulation else [])
      (call.make host standing).2.state := by
    rw [allSatisfied_make]
    by_cases succeeded : added.1 = true
    · rw [if_pos succeeded, if_pos succeeded]
      exact refilled.trans runPending_run
    · rw [if_neg succeeded, if_neg succeeded, List.append_nil]
      exact refilled
  exact inner.step (.note rfl rfl nofun)

theorem make_run (call : Call) :
    Run standing.state (call.records host standing) (call.make host standing).2.state := by
  cases call with
  | generate formula => exact generate_run formula
  | generateTo formula path => exact generateTo_run formula path
  | compile => exact compile_run
  | addRows rows => exact addRows_run rows
  | clearRows => exact clearRows_run
  | simulate input output => exact simulate_run input output
  | runPending => exact runPending_run
  | allSatisfied rows => exact allSatisfied_run rows

/-- Whatever is asked of a session and whatever its host answers, it takes these steps only. -/
theorem history_run (calls : List Call) :
    Run standing.state (history host calls standing).1
      (history host calls standing).2.state := by
  induction calls generalizing standing with
  | nil => exact .refl
  | cons call rest ih => exact (make_run call).trans ih

end Calls

end Formulary.Session
