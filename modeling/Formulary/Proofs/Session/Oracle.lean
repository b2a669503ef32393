import Formulary.Proofs.Session.Bench
import Formulary.Proofs.Session.History

/-! Sessions as oracles. However a session has got there, once the program of its last formula
is compiled and its host serves it, it answers for every batch whether all rows satisfy the
formula. -/
namespace Formulary.Session

section Currency

variable {config : SessionConfig} {session after : Session} {log records : List Record}
variable {record : Record}

theorem upToDate_append (upToDate : UpToDate (log ++ [record]))
    (uncompiled : record.compiled = false) : UpToDate log ∧ record.generated = false := by
  obtain ⟨before, compilation, later, parts, compiled, kept⟩ := upToDate
  rcases List.eq_nil_or_concat' later with rfl | ⟨earlier, last, rfl⟩
  · obtain ⟨_, same⟩ := List.append_inj' parts rfl
    cases same
    rw [compiled] at uncompiled
    cases uncompiled
  · rw [← List.cons_append, ← List.append_assoc] at parts
    obtain ⟨rfl, same⟩ := List.append_inj' parts rfl
    cases same
    exact ⟨⟨before, compilation, earlier, rfl, compiled, fun other member =>
      kept other (List.mem_append_left _ member)⟩, kept record (by simp)⟩

theorem lastGeneration?_append (log : List Record) (record : Record) :
    lastGeneration? (log ++ [record]) = record.generation?.or (lastGeneration? log) := by
  rw [lastGeneration?, List.filterMap_append, List.getLast?_append]
  cases generated : record.generation? <;> simp [generated, lastGeneration?]

/-- A session whose columns are those of the last formula, and whose program stands in its
directory while it is up to date. -/
structure Current (config : SessionConfig) (session : Session) (log : List Record) : Prop where
  settings : session.config = config
  columns : ∀ formula, lastGeneration? log = some formula →
    ∃ program, formula.program = .ok program ∧ session.columns = program.columns
  program : UpToDate log → ∃ directory, session.workDirectory? = some directory ∧
    session.program = some (config.programPath directory)

namespace Current

theorem new (config : SessionConfig) : Current config (.new config) [] where
  settings := rfl
  columns := nofun
  program := by
    rintro ⟨before, compilation, later, parts, _⟩
    simp at parts

theorem note (current : Current config session log) (ungenerated : record.generation? = none)
    (uncompiled : record.compiled = false) : Current config session (log ++ [record]) where
  settings := current.settings
  columns := by
    rw [lastGeneration?_append, ungenerated, Option.none_or]
    exact current.columns
  program upToDate := current.program (upToDate_append upToDate uncompiled).1

theorem generate {formula : Formula} {program : Code.Program} (settings : session.config = config)
    (lowered : formula.program = .ok program) (columns : session.columns = program.columns)
    (generated : record.generation? = some formula) (uncompiled : record.compiled = false) :
    Current config session (log ++ [record]) where
  settings := settings
  columns := by
    rw [lastGeneration?_append, generated, Option.some_or]
    rintro _ ⟨rfl⟩
    exact ⟨program, lowered, columns⟩
  program upToDate := by
    have ungenerated := (upToDate_append upToDate uncompiled).2
    rw [Record.generated_eq, generated] at ungenerated
    cases ungenerated

theorem step (current : Current config session log) (next : Step session records after) :
    Current config after (log ++ records) := by
  cases next with
  | enter enters =>
    rw [List.append_nil]
    cases enters with
    | known _ => exact current
    | made unknown =>
      refine ⟨current.settings, current.columns, fun upToDate => ?_⟩
      obtain ⟨_, has, _⟩ := current.program upToDate
      rw [unknown] at has
      cases has
  | generate path lowered => exact .generate current.settings lowered rfl rfl rfl
  | compile source has =>
    refine ⟨current.settings, ?_, fun _ => ⟨_, has, ?_⟩⟩
    · rw [lastGeneration?_append]
      exact current.columns
    · rw [← current.settings]
      rfl
  | add encoded => exact .note ⟨current.settings, current.columns, current.program⟩ rfl rfl
  | clear => exact .note ⟨current.settings, current.columns, current.program⟩ rfl rfl
  | simulate input output =>
    exact .note ⟨current.settings, current.columns, current.program⟩ rfl rfl
  | @note record uncompiled _ generations =>
    cases generated : record.generation? with
    | none => exact current.note generated uncompiled
    | some formula =>
      obtain ⟨_, program, lowered, columns⟩ := generations formula generated
      exact .generate current.settings lowered columns generated uncompiled

end Current

theorem history_current {World : Type} (host : Host (StateM World)) (config : SessionConfig)
    (world : World) (calls : List Call) :
    let outcome := history host calls ⟨.new config, world⟩
    Current config outcome.2.state outcome.1 := by
  have start : Current config (⟨.new config, world⟩ : Standing Session World).state [] :=
    .new config
  exact Run.keeps (fun _ _ _ _ known next => known.step next) start (history_run calls)

end Currency

section Asking

variable {World : Type} {host : Host (StateM World)} {formula : Formula} {session : Session}
variable {world : World} {directory : Path} {rows : List Row}

theorem perform_clearRows :
    perform (clearRows : SessionM (StateM World) Unit) ⟨session, world⟩ =
      (.ok (), ⟨{ session with batch := .empty }, world⟩) := rfl

/-- Rows that cannot be encoded are not asked about. The rows that waited are gone. -/
theorem allSatisfied_refused {error : Error}
    (refused : encodeRows session.columns 0 rows = .error error) :
    perform (allSatisfied host rows) ⟨session, world⟩ =
      (.error error, ⟨{ session with batch := .empty }, world⟩) := by
  unfold allSatisfied
  rw [perform_bind_ok perform_clearRows]
  exact perform_bind_error (perform_addRows_refused refused)

/-- The rows that waited do not matter, and no line is misread. -/
theorem allSatisfied_served {directory : Path} {lines : List (List String)} {values : List Value}
    (serves : Serves host formula session.columns (session.config.programPath directory)
      (session.config.patternPath directory) (session.config.resultPath directory) world)
    (known : session.workDirectory? = some directory)
    (compiled : session.program = some (session.config.programPath directory))
    (encoded : encodeRows session.columns 0 rows = .ok lines)
    (evaluated : formula.evaluateRows rows = .ok values) :
    ∃ after, perform (allSatisfied host rows) ⟨session, world⟩ =
      (.ok (values.all fun value => value.cell = truthy),
        ⟨counted { session with batch := ⟨lines⟩ } values.length, after⟩) := by
  let filled : Session := { session with batch := ⟨lines⟩ }
  have added : perform (addRows rows : SessionM (StateM World) Unit)
      ⟨{ session with batch := .empty }, world⟩ = (.ok (), ⟨filled, world⟩) :=
    perform_addRows encoded
  obtain ⟨after, ran, holds⟩ :=
    runPending_served filled serves known compiled encoded evaluated rfl
  refine ⟨(host.read (filled.config.resultPath directory) after).2, ?_⟩
  unfold allSatisfied
  rw [perform_bind_ok perform_clearRows, perform_bind_ok added, perform_bind_ok ran]
  exact perform_checkAllSatisfied _ holds

end Asking

/-- A session that answers whether all rows of a batch satisfy a formula. -/
structure Oracle {World : Type} (host : Host (StateM World)) (formula : Formula)
    (standing : Standing Session World) : Prop where
  /-- A row can be asked about when it satisfies the formula or not. -/
  accepts : ∀ row, standing.state.columns.Accept row ↔
    ∃ truth, formula.satisfies row = .ok truth
  satisfied : ∀ rows, (∀ row ∈ rows, formula.satisfies row = .ok true) →
    (perform (allSatisfied host rows) standing).1 = .ok true
  unsatisfied : ∀ rows, (∀ row ∈ rows, standing.state.columns.Accept row) →
    (∃ row ∈ rows, formula.satisfies row ≠ .ok true) →
    (perform (allSatisfied host rows) standing).1 = .ok false
  /-- Whatever rows waited before, the batch waits afterwards. -/
  pending : ∀ rows, (∀ row ∈ rows, standing.state.columns.Accept row) →
    encodeRows standing.state.columns 0 rows =
      .ok (perform (allSatisfied host rows) standing).2.state.batch.rows
  /-- A batch is refused for its first row that cannot be asked about, and then none waits. -/
  refused : ∀ rows, (∃ row ∈ rows, ¬ standing.state.columns.Accept row) →
    ∃ before row after, rows = before ++ row :: after ∧
      (∀ earlier ∈ before, standing.state.columns.Accept earlier) ∧
      ¬ standing.state.columns.Accept row ∧
      (∃ name fault, (perform (allSatisfied host rows) standing).1 =
        .error (.cell before.length name fault)) ∧
      (perform (allSatisfied host rows) standing).2.state.batch = .empty
  append : ∀ first second,
    (∀ row ∈ first ++ second, standing.state.columns.Accept row) →
    ∃ left right, (perform (allSatisfied host first) standing).1 = .ok left ∧
      (perform (allSatisfied host second) standing).1 = .ok right ∧
      (perform (allSatisfied host (first ++ second)) standing).1 = .ok (left && right)

section Answering

variable {World : Type} {host : Host (StateM World)} {formula : Formula} {session : Session}
variable {world : World} {directory : Path} {function : Code.Function}

theorem all_truths {rows : List Row} {truths : List Bool}
    (each : List.Forall₂ (fun row truth => formula.satisfies row = .ok truth) rows truths) :
    ((truths.map Value.bool).all fun value => value.cell = truthy) = true ↔
      ∀ row ∈ rows, formula.satisfies row = .ok true := by
  induction each with
  | nil => simp
  | @cons row truth rows truths satisfied _ ih =>
    have cell : (Value.bool truth).cell = truthy ↔ truth = true := by
      cases truth <;> decide
    rw [List.map_cons, List.all_cons, Bool.and_eq_true, ih, List.forall_mem_cons, satisfied,
      decide_eq_true_iff, cell, Except.ok.injEq]

/-- The verdict on a batch that can be asked about. -/
theorem allSatisfied_answers (sorted : formula.WellSorted)
    (boolean : formula.arena.sortOf formula.root = .ok .bool)
    (lowered : formula.lower = .ok function) (columns : session.columns = function.columns)
    (known : session.workDirectory? = some directory)
    (compiled : session.program = some (session.config.programPath directory))
    (serves : Serves host formula session.columns (session.config.programPath directory)
      (session.config.patternPath directory) (session.config.resultPath directory) world)
    {rows : List Row} (accepted : ∀ row ∈ rows, session.columns.Accept row) :
    ∃ verdict lines after, perform (allSatisfied host rows) ⟨session, world⟩ =
        (.ok verdict, ⟨counted { session with batch := ⟨lines⟩ } rows.length, after⟩) ∧
      encodeRows session.columns 0 rows = .ok lines ∧
      (verdict = true ↔ ∀ row ∈ rows, formula.satisfies row = .ok true) := by
  obtain ⟨lines, encoded⟩ := encodeRows_accepted 0 accepted
  obtain ⟨truths, evaluated, satisfied⟩ :=
    Code.accepted_truths sorted boolean lowered 0 (columns ▸ accepted)
  obtain ⟨after, answered⟩ := allSatisfied_served serves known compiled encoded evaluated
  rw [← (Formula.evaluateFrom_ok evaluated).length_eq] at answered
  exact ⟨_, lines, after, answered, encoded, all_truths satisfied⟩

theorem accept_iff (sorted : formula.WellSorted)
    (boolean : formula.arena.sortOf formula.root = .ok .bool)
    (lowered : formula.lower = .ok function) (row : Row) :
    function.columns.Accept row ↔ ∃ truth, formula.satisfies row = .ok truth := by
  constructor
  · intro accepted
    obtain ⟨truth, _, satisfied⟩ := Code.accepted_truth sorted boolean lowered accepted
    exact ⟨truth, satisfied⟩
  · rintro ⟨truth, satisfied⟩
    have same : SameRefusal (row.cells 0 function.columns) (formula.evaluate row) :=
      Code.row_refused sorted lowered
    rcases same.outcomes with ⟨line, _, encoded, _⟩ | ⟨_, _, _, _, _, failed⟩
    · exact ⟨0, line, encoded⟩
    · rw [Formula.satisfies, failed] at satisfied
      cases satisfied

theorem oracle_of_served (sorted : formula.WellSorted)
    (boolean : formula.arena.sortOf formula.root = .ok .bool)
    (lowered : formula.lower = .ok function) (columns : session.columns = function.columns)
    (known : session.workDirectory? = some directory)
    (compiled : session.program = some (session.config.programPath directory))
    (serves : Serves host formula session.columns (session.config.programPath directory)
      (session.config.patternPath directory) (session.config.resultPath directory) world) :
    Oracle host formula ⟨session, world⟩ := by
  have accepts : ∀ row, session.columns.Accept row ↔ ∃ truth, formula.satisfies row = .ok truth :=
    fun row => columns ▸ accept_iff sorted boolean lowered row
  have answers : ∀ rows : List Row, (∀ row ∈ rows, session.columns.Accept row) → _ :=
    fun rows accepted =>
      allSatisfied_answers sorted boolean lowered columns known compiled serves accepted
  refine ⟨accepts, fun rows satisfied => ?_, fun rows accepted failing => ?_,
    fun rows accepted => ?_, fun rows failing => ?_, fun first second accepted => ?_⟩
  · have accepted : ∀ row ∈ rows, session.columns.Accept row :=
      fun row member => (accepts row).mpr ⟨true, satisfied row member⟩
    obtain ⟨verdict, lines, after, answered, _, exactly⟩ := answers rows accepted
    rw [answered, exactly.mpr satisfied]
  · obtain ⟨verdict, lines, after, answered, _, exactly⟩ := answers rows accepted
    obtain ⟨row, member, unsatisfied⟩ := failing
    have refuted : verdict = false :=
      Bool.eq_false_iff.mpr fun holds => unsatisfied (exactly.mp holds row member)
    rw [answered, refuted]
  · obtain ⟨verdict, lines, after, answered, encoded, _⟩ := answers rows accepted
    rw [answered, encoded]
    rfl
  · obtain ⟨failing, member, unaccepted⟩ := failing
    cases encoded : encodeRows session.columns 0 rows with
    | ok lines => exact absurd (accept_of_encodeRows encoded failing member) unaccepted
    | error error =>
      rw [allSatisfied_refused encoded]
      obtain ⟨before, row, after, parts, accepted, unaccepted, cells⟩ :=
        encodeRows_refused encoded
      obtain ⟨name, fault, rfl⟩ := Row.cells_refused cells
      rw [Nat.zero_add]
      exact ⟨before, row, after, parts, accepted, unaccepted, ⟨name, fault, rfl⟩, rfl⟩
  · have parts := List.forall_mem_append.mp accepted
    obtain ⟨left, _, _, answeredLeft, _, exactlyLeft⟩ := answers first parts.1
    obtain ⟨right, _, _, answeredRight, _, exactlyRight⟩ := answers second parts.2
    obtain ⟨both, _, _, answeredBoth, _, exactlyBoth⟩ := answers (first ++ second) accepted
    have conjunction : both = (left && right) := by
      rw [Bool.eq_iff_iff, Bool.and_eq_true, exactlyLeft, exactlyRight, exactlyBoth,
        List.forall_mem_append]
    rw [answeredLeft, answeredRight, answeredBoth, conjunction]
    exact ⟨left, right, rfl, rfl, rfl⟩

end Answering

/-- However a session has got there, and whatever rows wait: once the program of its last formula
is compiled and its host serves it, the session is an oracle for the formula. -/
theorem session_oracle {World : Type} (host : Host (StateM World)) (config : SessionConfig)
    (start : World) (calls : List Call) (formula : Formula) (sorted : formula.WellSorted)
    (boolean : formula.arena.sortOf formula.root = .ok .bool) :
    let outcome := history host calls ⟨.new config, start⟩
    lastGeneration? outcome.1 = some formula → UpToDate outcome.1 →
    (∀ directory, outcome.2.state.workDirectory? = some directory →
      Serves host formula outcome.2.state.columns (config.programPath directory)
        (config.patternPath directory) (config.resultPath directory) outcome.2.world) →
    Oracle host formula outcome.2 := by
  intro outcome generated upToDate serves
  have current : Current config outcome.2.state outcome.1 :=
    history_current host config start calls
  obtain ⟨program, made, columns⟩ := current.columns formula generated
  obtain ⟨directory, known, compiled⟩ := current.program upToDate
  have served := serves directory known
  rw [← current.settings] at compiled served
  obtain ⟨function, lowered, same⟩ := Formula.program_ok made
  rw [same] at columns
  exact oracle_of_served sorted boolean lowered columns known compiled served

theorem flag_wellSorted : (Formula.lone "a" .bool).WellSorted := by
  intro id node _ found
  have member := Arena.mem_nodes found
  simp only [Formula.lone, Arena.push, Arena.empty, List.push_toArray, List.nil_append,
    List.mem_singleton] at member
  rw [member]
  exact ⟨⟨[], _, rfl, .symbol "a" .bool⟩, fun absent => (by cases absent), trivial⟩

/-- The row that waits does not satisfy the formula, and is not asked about. -/
theorem session_oracle_flag :
    let host := Bench.host Bench.copyist
    let flag := Formula.lone "a" .bool
    let calls := [.generate flag, .compile, .addRows [Row.empty.insert "a" (.bool false)]]
    let outcome := history host calls ⟨.new (Bench.workshop ⟨"work"⟩), ⟨fun _ => none, 0⟩⟩
    lastGeneration? outcome.1 = some flag ∧ UpToDate outcome.1 ∧
      outcome.2.state.batch = ⟨[["0"]]⟩ ∧ Oracle host flag outcome.2 := by
  intro host flag calls outcome
  let start : Standing Session Bench := ⟨.new (Bench.workshop ⟨"work"⟩), ⟨fun _ => none, 0⟩⟩
  let columns : Columns := ⟨[⟨"a", "v_a", .bool⟩]⟩
  let function : Code.Function := ⟨columns, [], ⟨.argument "v_a", .bool, false⟩⟩
  have lowered : flag.lower = .ok function := by cbv
  have made : flag.program = .ok ⟨columns, function.text⟩ := by
    rw [Formula.program, lowered]
    rfl
  let source := (Bench.workshop ⟨"work"⟩).sourcePath ⟨"work"⟩
  let first : Standing Session Bench :=
    ⟨start.state.generated columns source, start.world.put .other (source, function.text)⟩
  let second : Standing Session Bench := ⟨first.state.compiled ⟨"work"⟩, first.world.built ⟨"work"⟩⟩
  let third : Standing Session Bench := ⟨{ second.state with batch := ⟨[["0"]]⟩ }, second.world⟩
  have generated : (Call.generate flag).make host start = (true, first) := by
    rw [Call.make, Call.ended, Bench.generate_written rfl made]
    rfl
  have compiled : Call.compile.make host first = (true, second) := by
    rw [Call.make, Call.ended, Bench.compile_built rfl rfl]
    rfl
  have added : (Call.addRows [Row.empty.insert "a" (.bool false)]).make host second =
      (true, third) := by
    have encoded : encodeRows columns 0 [Row.empty.insert "a" (.bool false)] = .ok [["0"]] := by
      cbv
    rw [Call.make, Call.ended, perform_addRows encoded]
    rfl
  have after : outcome.2 = third := by
    change (history host calls start).2 = third
    simp only [calls, history, generated, compiled, added]
  have log : ∃ before : List Record, outcome.1 = before ++ [⟨.generate flag, 0, true⟩] ++
      [⟨.compile, 0, true⟩] ++ [⟨.addRows [Row.empty.insert "a" (.bool false)], 0, true⟩] := by
    refine ⟨(Call.inDirectory host (Call.generation flag) start).1, ?_⟩
    change (history host calls start).1 = _
    simp only [calls, history, Call.records, Call.record, generated, compiled, added,
      List.append_assoc, List.append_nil]
    rfl
  obtain ⟨before, log⟩ := log
  have current : lastGeneration? outcome.1 = some flag := by
    rw [log, lastGeneration?_append, lastGeneration?_append, lastGeneration?_append]
    rfl
  have upToDate : UpToDate outcome.1 := by
    rw [log]
    exact ⟨_, _, _, List.append_assoc _ _ _, rfl, by decide⟩
  refine ⟨current, upToDate, by rw [after], ?_⟩
  refine session_oracle host (Bench.workshop ⟨"work"⟩) ⟨fun _ => none, 0⟩ calls flag
    flag_wellSorted rfl current upToDate ?_
  intro directory known
  change outcome.2.state.workDirectory? = some directory at known
  change Serves host flag outcome.2.state.columns _ _ _ outcome.2.world
  rw [after] at known ⊢
  cases known
  have unmasked : ∀ width, TermSort.bool ≠ .bitVec width := by simp
  exact Bench.built_serves unmasked first.world ⟨"work"⟩ _ _

end Formulary.Session
