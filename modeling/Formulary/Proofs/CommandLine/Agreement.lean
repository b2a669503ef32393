import Formulary.Proofs.Arena.Loading
import Formulary.Proofs.CommandLine.Steps
import Formulary.Proofs.Session.Bench

/-! Simulation and evaluation from the command line. Both print the cells of the rows' values,
and then a verdict: evaluation on the values, simulation on the cells. The two agree on truth
values; on other values only evaluation tells a one from a truth. -/
namespace Formulary.CommandLine

variable {World : Type}

section Evaluating

variable {host : Host (StateM World)} {work : Work} {world : World} {after : Standing Work World}

def evaluationLines (values : List Value) : List String :=
  rowLines (values.map Value.cell) ++
    [verdictLine (values.all fun value => value.bool? = some true)]

theorem perform_evaluate {path patterns : Path} {formula : Formula} {rows : List Row}
    {values : List Value}
    (found : loaded Format.formulaText path (host.read path world).1 = .ok formula)
    (listed : loaded (Format.decodeText Format.rows) patterns
      (host.read patterns (host.read path world).2).1 = .ok rows)
    (computed : formula.evaluateRows rows = .ok values) :
    perform (evaluate host path patterns) ⟨work, world⟩ =
      (.ok (), ⟨{ work with output := work.output ++ Text.page (evaluationLines values) },
        (host.read patterns (host.read path world).2).2⟩) := by
  unfold evaluate loadFormula loadRows
  rw [perform_bind_ok (perform_load_ok found), perform_bind_ok (perform_load_ok listed), computed,
    perform_bind_ok (perform_settle _ _), perform_bind_ok (perform_printLines _), perform_printLine,
    evaluationLines, Text.page_append, String.append_assoc]

theorem evaluate_ok {path patterns : Path}
    (done : perform (evaluate host path patterns) ⟨work, world⟩ = (.ok (), after)) :
    ∃ formula rows values,
      loaded Format.formulaText path (host.read path world).1 = .ok formula ∧
      loaded (Format.decodeText Format.rows) patterns
        (host.read patterns (host.read path world).2).1 = .ok rows ∧
      formula.evaluateRows rows = .ok values := by
  unfold evaluate at done
  obtain ⟨formula, _, loading, done⟩ := perform_bind_inv done
  obtain ⟨found, rfl⟩ := perform_load_inv loading
  obtain ⟨rows, _, listing, done⟩ := perform_bind_inv done
  obtain ⟨listed, rfl⟩ := perform_load_inv listing
  obtain ⟨values, _, computing, _⟩ := perform_bind_inv done
  rw [perform_settle] at computing
  cases computed : formula.evaluateRows rows with
  | error error =>
    rw [computed] at computing
    cases computing
  | ok values => exact ⟨formula, rows, values, found, listed, computed⟩

end Evaluating

section Simulating

section Standings

variable (host : Host (StateM World)) (request : SimulationRequest) (patterns : Path)
variable (formula : Formula) (world : World)

/-- Where a simulation stands when it sets out to generate a program. -/
def opened : Standing Session World :=
  ⟨.new (Request.simulate request).config, (host.read request.formula world).2⟩

/-- Where it stands when the program is there, and the rows have been read. -/
def drafted : Standing Session World :=
  let standing := (perform (Session.generate host formula) (opened host request world)).2
  ⟨standing.state, (host.read patterns standing.world).2⟩

/-- What it reads the rows from. -/
def listing : Except OsFault (Except OsFault Text.Bytes) :=
  (host.read patterns
    (perform (Session.generate host formula) (opened host request world)).2.world).1

/-- Where it stands when the program is compiled. -/
def built : Standing Session World :=
  (perform (Session.compile host) (drafted host request patterns formula world)).2

/-- The simulation has come so far. -/
structure Prepared (rows : List Row) : Prop where
  source : request.rows = .file patterns
  found : loaded Format.formulaText request.formula (host.read request.formula world).1 =
    .ok formula
  generated : ∃ columns,
    (perform (Session.generate host formula) (opened host request world)).1 = .ok columns
  listed : loaded (Format.decodeText Format.rows) patterns
    (listing host request patterns formula world) = .ok rows
  compiled : (perform (Session.compile host) (drafted host request patterns formula world)).1 =
    .ok ()

end Standings

variable {host : Host (StateM World)} {request : SimulationRequest} {patterns : Path}
variable {formula : Formula} {rows : List Row} {world : World} {after : Standing Work World}

theorem Prepared.generates (prepared : Prepared host request patterns formula world rows) :
    ∃ columns, perform (Session.generate host formula) (opened host request world) =
      (.ok columns, (perform (Session.generate host formula) (opened host request world)).2) := by
  obtain ⟨columns, generated⟩ := prepared.generated
  exact ⟨columns, Prod.ext generated rfl⟩

theorem Prepared.compiles (prepared : Prepared host request patterns formula world rows) :
    perform (Session.compile host) (drafted host request patterns formula world) =
      (.ok (), built host request patterns formula world) :=
  Prod.ext prepared.compiled rfl

theorem Prepared.prepares (prepared : Prepared host request patterns formula world rows) :
    perform (prepare host request) (beginning (.simulate request) world) =
      (.ok (formula, rows), ⟨⟨(built host request patterns formula world).state, "", []⟩,
        (built host request patterns formula world).world⟩) := by
  obtain ⟨columns, generates⟩ := prepared.generates
  have compiles : perform (Session.compile host)
      ⟨(perform (Session.generate host formula) (opened host request world)).2.state,
        (host.read patterns
          (perform (Session.generate host formula) (opened host request world)).2.world).2⟩ =
        (.ok (), built host request patterns formula world) := prepared.compiles
  unfold prepare loadFormula beginning
  rw [perform_bind_ok (perform_load_ok prepared.found), perform_bind_ok (perform_step_ok generates),
    prepared.source]
  unfold rowsOf loadRows
  rw [perform_bind_ok (perform_load_ok prepared.listed), perform_bind_ok (perform_step_ok compiles)]
  rfl

theorem prepared_of_done (source : request.rows = .file patterns)
    (done : perform (prepare host request) (beginning (.simulate request) world) =
      (.ok (formula, rows), after)) : Prepared host request patterns formula world rows := by
  unfold prepare loadFormula beginning at done
  obtain ⟨_, _, loading, done⟩ := perform_bind_inv done
  obtain ⟨found, rfl⟩ := perform_load_inv loading
  obtain ⟨columns, _, generating, done⟩ := perform_bind_inv done
  obtain ⟨standing, generated, rfl⟩ := perform_step_inv generating
  rw [source] at done
  unfold rowsOf loadRows at done
  obtain ⟨_, _, listing, done⟩ := perform_bind_inv done
  obtain ⟨listed, rfl⟩ := perform_load_inv listing
  obtain ⟨_, _, compiling, done⟩ := perform_bind_inv done
  obtain ⟨compiled, compiles, rfl⟩ := perform_step_inv compiling
  cases done
  have generates : perform (Session.generate host formula) (opened host request world) =
      (.ok columns, standing) := generated
  have drawn : drafted host request patterns formula world =
      ⟨standing.state, (host.read patterns standing.world).2⟩ := by
    rw [drafted, generates]
  have compiles : perform (Session.compile host) (drafted host request patterns formula world) =
      (.ok (), compiled) := drawn ▸ compiles
  refine ⟨source, found, ⟨columns, by rw [generates]⟩, ?_, by rw [compiles]⟩
  rwa [CommandLine.listing, generates]

/-- A session that is built has a program in its directory, and no rows. -/
theorem Prepared.session (prepared : Prepared host request patterns formula world rows) :
    let session := (built host request patterns formula world).state
    session.batch = .empty ∧ ∃ directory, session.workDirectory? = some directory ∧
      session.program = some (session.config.programPath directory) := by
  obtain ⟨_, generates⟩ := prepared.generates
  obtain ⟨program, _, prior, _, _, generated⟩ :=
    (Session.generate_leaves host _ _ formula).of_ok generates
  obtain ⟨_, directory, entered, enters, compiled⟩ :=
    (Session.compile_leaves host _ _).of_ok prepared.compiles
  intro session
  have reached : session = entered.compiled directory := compiled
  rw [reached]
  refine ⟨?_, directory, enters.workDirectory?, rfl⟩
  obtain ⟨scratch, rfl⟩ := enters.same
  change (drafted host request patterns formula world).state.batch = .empty
  rw [drafted, generated]
  rfl

section Running

variable {session : Session} {printed : String} {notes : List String} {path : Path}

theorem runRows_ok
    (done : perform (runRows host rows) ⟨⟨session, printed, notes⟩, world⟩ = (.ok path, after)) :
    ∃ lines ran, encodeRows session.columns session.batch.size rows = .ok lines ∧
      perform (Session.runPending host)
        ⟨{ session with batch := session.batch.append lines }, world⟩ = (.ok path, ran) ∧
      after = ⟨⟨ran.state, printed, notes⟩, ran.world⟩ := by
  obtain ⟨_, _, adding, done⟩ := perform_bind_inv done
  obtain ⟨filled, adds, rfl⟩ := perform_step_inv adding
  obtain ⟨ran, runs, rfl⟩ := perform_step_inv done
  cases encoded : encodeRows session.columns session.batch.size rows with
  | error error =>
    rw [Session.perform_addRows_refused encoded] at adds
    cases adds
  | ok lines =>
    rw [Session.perform_addRows encoded] at adds
    cases adds
    exact ⟨lines, ran, rfl, runs, rfl⟩

theorem runRows_served {directory : Path} {lines : List (List String)} {values : List Value}
    (serves : Session.Serves host formula session.columns (session.config.programPath directory)
      (session.config.patternPath directory) (session.config.resultPath directory) world)
    (known : session.workDirectory? = some directory)
    (compiled : session.program = some (session.config.programPath directory))
    (empty : session.batch = .empty) (encoded : encodeRows session.columns 0 rows = .ok lines)
    (evaluated : formula.evaluateRows rows = .ok values) :
    ∃ filled left, perform (runRows host rows) ⟨⟨session, printed, notes⟩, world⟩ =
        (.ok (session.config.resultPath directory), ⟨⟨filled, printed, notes⟩, left⟩) ∧
      Session.Holds host (session.config.resultPath directory) (Session.resultFile values)
        left := by
  let filled : Session := { session with batch := ⟨lines⟩ }
  have added : perform (Session.addRows rows : SessionM (StateM World) Unit) ⟨session, world⟩ =
      (.ok (), ⟨filled, world⟩) := by
    have counted : session.batch.size = 0 := by
      rw [empty]
      rfl
    rw [Session.perform_addRows (counted ▸ encoded), empty]
    rfl
  obtain ⟨left, running, holds⟩ :=
    Session.runPending_served filled serves known compiled encoded evaluated rfl
  refine ⟨filled.counted values.length, left, ?_, holds⟩
  unfold runRows
  rw [perform_bind_ok (perform_step_ok added), perform_step_ok running]

end Running

section Concluding

variable {session : Session} {printed : String} {notes : List String} {path : Path}
variable {content : Text.Bytes} {results : List String} {values : List Value} {again : World}

/-- Results do not disagree with themselves. -/
theorem disagreements_self (cells : List String) : disagreements cells cells = [] := by
  rw [disagreements, List.filterMap_eq_nil_iff]
  rintro ⟨index, pair⟩ member
  obtain ⟨position, inside, same⟩ := List.mem_mapIdx.mp member
  cases same
  simp

theorem verifyRows_agree {work : Work} (evaluated : formula.evaluateRows rows = .ok values)
    (none : disagreements (values.map Value.cell) results = []) :
    perform (verifyRows formula rows results) ⟨work, world⟩ =
      (.ok (), ⟨{ work with
        output := work.output ++ Text.page [verifiedLine rows.length] }, world⟩) := by
  unfold verifyRows
  rw [evaluated, perform_bind_ok (perform_settle _ _), none]
  exact perform_printLine _

theorem verifyRows_differ {work : Work} {first : Nat} {rest : List Nat}
    (evaluated : formula.evaluateRows rows = .ok values)
    (found : disagreements (values.map Value.cell) results = first :: rest) :
    perform (verifyRows formula rows results) ⟨work, world⟩ =
      (.error (.disagreement (rest.length + 1) rows.length first), ⟨work, world⟩) := by
  unfold verifyRows
  rw [evaluated, perform_bind_ok (perform_settle _ _), found]
  rfl

/-- Results that disagree are printed, and the simulation fails. -/
theorem conclude_differ {first : Nat} {rest : List Nat}
    (read : host.read path world = (.ok (.ok content), again))
    (listed : Session.linesOf path content = .ok results)
    (evaluated : formula.evaluateRows rows = .ok values)
    (found : disagreements (values.map Value.cell) results = first :: rest) :
    perform (conclude host true formula rows path) ⟨⟨session, printed, notes⟩, world⟩ =
      (.error (.disagreement (rest.length + 1) rows.length first),
        ⟨⟨session, printed ++ Text.page (rowLines results), notes⟩, again⟩) := by
  have reading := Session.readResults_eq_linesOf session read
  rw [listed] at reading
  unfold conclude
  rw [perform_bind_ok (perform_step_ok reading), perform_bind_ok (perform_printLines _), if_pos rfl,
    perform_bind_error (verifyRows_differ evaluated found)]

theorem conclude_agree (verify : Bool) {left : World}
    (read : host.read path world = (.ok (.ok content), again))
    (listed : Session.linesOf path content = .ok results)
    (readAgain : host.read path again = (.ok (.ok content), left))
    (evaluated : formula.evaluateRows rows = .ok values)
    (none : disagreements (values.map Value.cell) results = []) :
    perform (conclude host verify formula rows path) ⟨⟨session, printed, notes⟩, world⟩ =
      (.ok (), ⟨⟨session, printed ++ Text.page (rowLines results ++
        (if verify then [verifiedLine rows.length] else []) ++
        [verdictLine (results.all (· = Session.truthy))]), notes⟩, left⟩) := by
  have reading := Session.readResults_eq_linesOf session read
  have checking := Session.checkAllSatisfied_eq_allTruthy session readAgain
  rw [listed] at reading
  rw [Session.allTruthy_of_linesOf listed] at checking
  unfold conclude
  rw [perform_bind_ok (perform_step_ok reading), perform_bind_ok (perform_printLines _)]
  cases verify with
  | false =>
    simp only [Bool.false_eq_true, if_false]
    rw [perform_bind_ok (perform_step_ok checking), perform_printLine]
    simp only [List.append_nil, Text.page_append, String.append_assoc]
  | true =>
    simp only [if_true]
    rw [perform_bind_ok (verifyRows_agree evaluated none),
      perform_bind_ok (perform_step_ok checking), perform_printLine]
    simp only [Text.page_append, String.append_assoc]

theorem simulate_steps (request : SimulationRequest) :
    (Request.simulate request).steps host = prepare host request >>= fun found =>
      runRows host found.2 >>= conclude host request.verify found.1 found.2 := rfl

theorem simulate_ok {ready ran last : Standing Work World}
    (prepared : perform (prepare host request) (beginning (.simulate request) world) =
      (.ok (formula, rows), ready))
    (running : perform (runRows host rows) ready = (.ok path, ran))
    (concluded : perform (conclude host request.verify formula rows path) ran = (.ok (), last)) :
    perform ((Request.simulate request).steps host) (beginning (.simulate request) world) =
      (.ok (), last) := by
  rw [simulate_steps, perform_bind_ok prepared, perform_bind_ok running, concluded]

/-- What simulation prints, on values of which the evaluator has left the cells. -/
def simulationLines (verify : Bool) (values : List Value) : List String :=
  rowLines (values.map Value.cell) ++ (if verify then [verifiedLine values.length] else []) ++
    [verdictLine (values.all fun value => value.cell = Session.truthy)]

theorem conclude_served (verify : Bool)
    (holds : Session.Holds host path (Session.resultFile values) world)
    (evaluated : formula.evaluateRows rows = .ok values) :
    ∃ left, perform (conclude host verify formula rows path) ⟨⟨session, printed, notes⟩, world⟩ =
      (.ok (), ⟨⟨session, printed ++ Text.page (simulationLines verify values), notes⟩, left⟩) := by
  have listed := Session.linesOf_resultFile path values
  have same := disagreements_self (values.map Value.cell)
  refine ⟨(host.read path (host.read path world).2).2, ?_⟩
  rw [conclude_agree verify holds.now listed holds.again.now evaluated same, simulationLines,
    (Formula.evaluateFrom_ok evaluated).length_eq, List.all_map]
  rfl

end Concluding

end Simulating

section Verdicts

theorem bool?_eq_some_true (value : Value) :
    decide (value.bool? = some true) =
      (decide (value.cell = Session.truthy) && value.bool?.isSome) := by
  cases value with
  | bool truth => cases truth <;> decide
  | int | real | bitVec => simp [Value.bool?]

theorem all_true (values : List Value) :
    (values.all fun value => value.bool? = some true) =
      ((values.all fun value => value.cell = Session.truthy) &&
        values.all fun value => value.bool?.isSome) := by
  rw [Bool.eq_iff_iff]
  simp only [List.all_eq_true, Bool.and_eq_true, bool?_eq_some_true]
  constructor
  · intro all
    exact ⟨fun value member => (all value member).1, fun value member => (all value member).2⟩
  · rintro ⟨ones, truths⟩ value member
    exact ⟨ones value member, truths value member⟩

theorem verdicts_eq_iff (values : List Value) :
    ((values.all fun value => value.cell = Session.truthy) =
      values.all fun value => value.bool? = some true) ↔
      (∀ value ∈ values, value.bool?.isSome = true) ∨
        ∃ value ∈ values, value.cell ≠ Session.truthy := by
  rw [all_true, Bool.eq_iff_iff, Bool.and_eq_true]
  simp only [List.all_eq_true, decide_eq_true_eq]
  constructor
  · intro agree
    by_cases ones : ∀ value ∈ values, value.cell = Session.truthy
    · exact .inl (agree.mp ones).2
    · push Not at ones
      exact .inr ones
  · rintro (truths | ⟨value, member, other⟩)
    · exact ⟨fun ones => ⟨ones, truths⟩, And.left⟩
    · exact ⟨fun ones => absurd (ones value member) other, And.left⟩

end Verdicts

section Reports

variable {host : Host (StateM World)} {world : World}

theorem evaluation_report {path patterns : Path}
    (succeeded : ((Request.evaluate path patterns).perform host world).1.failure = none) :
    ∃ formula rows values,
      loaded Format.formulaText path (host.read path world).1 = .ok formula ∧
      loaded (Format.decodeText Format.rows) patterns
        (host.read patterns (host.read path world).2).1 = .ok rows ∧
      formula.evaluateRows rows = .ok values ∧
      ((Request.evaluate path patterns).perform host world).1.output =
        Text.page (evaluationLines values) := by
  obtain ⟨after, done, output⟩ := report_succeeded succeeded
  obtain ⟨formula, rows, values, found, listed, computed⟩ := evaluate_ok done
  refine ⟨formula, rows, values, found, listed, computed, ?_⟩
  cases done.symm.trans (perform_evaluate found listed computed)
  rw [output, String.empty_append]

variable {request : SimulationRequest} {patterns : Path} {formula : Formula}

def ServesBuilt (host : Host (StateM World)) (request : SimulationRequest) (patterns : Path)
    (formula : Formula) (world : World) : Prop :=
  let standing := built host request patterns formula world
  ∀ directory, standing.state.workDirectory? = some directory →
    Session.Serves host formula standing.state.columns
      (standing.state.config.programPath directory)
      (standing.state.config.patternPath directory)
      (standing.state.config.resultPath directory) standing.world

theorem simulation_report {rows : List Row} {values : List Value}
    (source : request.rows = .file patterns)
    (found : loaded Format.formulaText request.formula (host.read request.formula world).1 =
      .ok formula)
    (listed : loaded (Format.decodeText Format.rows) patterns
      (listing host request patterns formula world) = .ok rows)
    (computed : formula.evaluateRows rows = .ok values)
    (serves : ServesBuilt host request patterns formula world)
    (succeeded : ((Request.simulate request).perform host world).1.failure = none) :
    ((Request.simulate request).perform host world).1.output =
      Text.page (simulationLines request.verify values) := by
  obtain ⟨after, done, output⟩ := report_succeeded succeeded
  obtain ⟨⟨_, _⟩, _, preparing, done⟩ := perform_bind_inv done
  have prepared := prepared_of_done source preparing
  cases found.symm.trans prepared.found
  cases listed.symm.trans prepared.listed
  cases preparing.symm.trans prepared.prepares
  obtain ⟨path, _, running, done⟩ := perform_bind_inv done
  obtain ⟨lines, _, encoded, _, _⟩ := runRows_ok running
  obtain ⟨empty, directory, known, compiled⟩ := prepared.session
  rw [empty] at encoded
  obtain ⟨_, _, runs, holds⟩ :=
    runRows_served (serves directory known) known compiled empty encoded computed
  cases running.symm.trans runs
  obtain ⟨_, concluded⟩ := conclude_served request.verify holds computed
  cases done.symm.trans concluded
  rw [output, String.empty_append]

end Reports

/-- Simulation and evaluation of a pattern file, where both succeed. The file is as it was when
the program has been generated, and the host serves the session that has compiled the program.
Both print the cells of the same values. The verdicts differ exactly when all cells are ones and
some value is not a truth value. -/
theorem simulation_agrees {World : Type} (host : Host (StateM World))
    (request : SimulationRequest) (patterns : Path) (formula : Formula) (world : World)
    (source : request.rows = .file patterns)
    (found : loaded Format.formulaText request.formula (host.read request.formula world).1 =
      .ok formula)
    (undisturbed : listing host request patterns formula world =
      (host.read patterns (host.read request.formula world).2).1)
    (serves : ServesBuilt host request patterns formula world) :
    let simulation := ((Request.simulate request).perform host world).1
    let evaluation := ((Request.evaluate request.formula patterns).perform host world).1
    simulation.failure = none → evaluation.failure = none →
    ∃ rows values,
      loaded (Format.decodeText Format.rows) patterns
        (host.read patterns (host.read request.formula world).2).1 = .ok rows ∧
      formula.evaluateRows rows = .ok values ∧
      ∃ simulated evaluated,
        simulation.output = Text.page (rowLines (values.map Value.cell) ++
          (if request.verify then [verifiedLine values.length] else []) ++
          [verdictLine simulated]) ∧
        evaluation.output = Text.page (rowLines (values.map Value.cell) ++
          [verdictLine evaluated]) ∧
        (simulated = evaluated ↔ (∀ value ∈ values, value.bool?.isSome = true) ∨
          ∃ value ∈ values, value.cell ≠ Session.truthy) := by
  intro simulation evaluation simulates evaluates
  obtain ⟨sameFormula, rows, values, foundAgain, listed, computed, evaluated⟩ :=
    evaluation_report evaluates
  cases found.symm.trans foundAgain
  have simulated := simulation_report source found (undisturbed ▸ listed) computed serves simulates
  exact ⟨rows, values, listed, computed, _, _, simulated, evaluated, verdicts_eq_iff values⟩

section Count

def countFormula : String :=
  "\x7b\"nodes\":[\x7b\"op\":\x7b\"Symbol\":\"x\"\x7d,\"children\":[],\"sort\":\"Int\"\x7d]," ++
    "\"root\":0\x7d"

def countRows : String := "[\x7b\"x\":\x7b\"Int\":1\x7d\x7d]"

def countBench : Bench :=
  (Bench.put .other ⟨fun _ => none, 0⟩ (⟨"f.json"⟩, countFormula)).put .other
    (⟨"p.json"⟩, countRows)

def countRequest : SimulationRequest where
  formula := ⟨"f.json"⟩
  rows := .file ⟨"p.json"⟩
  workDirectory := some ⟨"work"⟩
  compiler := none
  optimization := 3
  verify := false

theorem load_lone (name : String) (sort : TermSort) :
    Formula.load ⟨[⟨.symbol name, [], sort⟩], 0⟩ = .ok (.lone name sort) := by
  have distinct : (Formula.lone name sort).arena.Distinct :=
    Arena.distinct_iff.mpr (List.nodup_singleton _)
  have storable : ∀ node ∈ (Formula.lone name sort).arena.nodes, node.isStorable := by
    intro node listed
    cases List.mem_singleton.mp (Array.mem_toList_iff.mpr listed)
    rfl
  exact (Formula.lone name sort).load_toFile rfl
    ⟨(Formula.lone name sort).ordered, distinct, storable⟩ (show 1 ≤ Word.halfSize by decide)

theorem count_found :
    loaded Format.formulaText ⟨"f.json"⟩
      ((Bench.host Bench.copyist).read ⟨"f.json"⟩ countBench).1 = .ok (.lone "x" .int) := by
  have there : countBench.files ⟨"f.json"⟩ = some ⟨countFormula, .other⟩ := by
    rw [countBench, Bench.files_put_other (by decide)]
    exact Bench.files_put_self
  have decoded : Format.formulaText countFormula = .ok (.lone "x" .int) := by
    have file : Format.decodeText FormulaFile.ofJson countFormula =
        .ok ⟨[⟨.symbol "x", [], .int⟩], 0⟩ := by cbv
    rw [Format.formulaText, file]
    exact load_lone "x" .int
  rw [Bench.read_found there]
  exact loaded_ascii _ (by cbv) decoded

theorem count_listed :
    loaded (Format.decodeText Format.rows) ⟨"p.json"⟩ (.ok (.ok (.ofText countRows))) =
      .ok [Row.empty.insert "x" (.int 1)] :=
  loaded_ascii _ (by cbv) (by cbv)

/-- The simulation comes as far as a compiled program that the bench can run. -/
theorem count_prepared :
    let host := Bench.host Bench.copyist
    let formula := Formula.lone "x" .int
    Prepared host countRequest ⟨"p.json"⟩ formula countBench [Row.empty.insert "x" (.int 1)] ∧
      listing host countRequest ⟨"p.json"⟩ formula countBench = .ok (.ok (.ofText countRows)) ∧
      (built host countRequest ⟨"p.json"⟩ formula countBench).state.columns =
        ⟨[⟨"x", "v_x", .int⟩]⟩ ∧
      ServesBuilt host countRequest ⟨"p.json"⟩ formula countBench := by
  intro host formula
  let columns : Columns := ⟨[⟨"x", "v_x", .int⟩]⟩
  let function : Code.Function := ⟨columns, [], ⟨.argument "v_x", .int, false⟩⟩
  have made : formula.program = .ok ⟨columns, function.text⟩ := by
    have lowered : formula.lower = .ok function := by cbv
    rw [Formula.program, lowered]
    rfl
  let work : Path := ⟨"work"⟩
  let source := (Bench.workshop work).sourcePath work
  let session := Session.new (Bench.workshop work)
  let written := countBench.put .other (source, function.text)
  have start : opened host countRequest countBench = ⟨session, countBench⟩ := by
    rw [opened, Bench.read_keeps]
    rfl
  have generates : perform (Session.generate host formula) (opened host countRequest countBench) =
      (.ok columns, ⟨session.generated columns source, written⟩) := by
    rw [start]
    exact Bench.generate_written rfl made
  have there : written.files ⟨"p.json"⟩ = some ⟨countRows, .other⟩ := by
    have apart : (⟨"p.json"⟩ : Path) ≠ source := by decide +kernel
    rw [Bench.files_put_other apart]
    exact Bench.files_put_self
  have listed : listing host countRequest ⟨"p.json"⟩ formula countBench =
      .ok (.ok (.ofText countRows)) := by
    rw [listing, generates, Bench.read_found there]
  have draft : drafted host countRequest ⟨"p.json"⟩ formula countBench =
      ⟨session.generated columns source, written⟩ := by
    rw [drafted, generates, Bench.read_keeps]
  have compiles : perform (Session.compile host)
      (drafted host countRequest ⟨"p.json"⟩ formula countBench) =
        (.ok (), ⟨(session.generated columns source).compiled work, written.built work⟩) := by
    rw [draft]
    exact Bench.compile_built rfl rfl
  have reached : built host countRequest ⟨"p.json"⟩ formula countBench =
      ⟨(session.generated columns source).compiled work, written.built work⟩ := by
    rw [built, compiles]
  refine ⟨⟨rfl, count_found, ⟨columns, by rw [generates]⟩, ?_, by rw [compiles]⟩, listed, ?_, ?_⟩
  · rw [listed]
    exact count_listed
  · rw [reached]
    rfl
  · intro directory known
    rw [reached] at known ⊢
    cases known
    have unmasked : ∀ width, TermSort.int ≠ .bitVec width := by simp
    exact Bench.built_serves unmasked written work _ _

/-- Both requests succeed. -/
theorem count_succeeds :
    let host := Bench.host Bench.copyist
    let simulation := ((Request.simulate countRequest).perform host countBench).1
    let evaluation := ((Request.evaluate ⟨"f.json"⟩ ⟨"p.json"⟩).perform host countBench).1
    simulation.failure = none ∧ simulation.output = Text.page (simulationLines false [.int 1]) ∧
      evaluation.failure = none ∧ evaluation.output = Text.page (evaluationLines [.int 1]) := by
  intro host simulation evaluation
  have computed : (Formula.lone "x" .int).evaluateRows [Row.empty.insert "x" (.int 1)] =
      .ok [.int 1] := by cbv
  have listed : loaded (Format.decodeText Format.rows) ⟨"p.json"⟩
      (host.read ⟨"p.json"⟩ (host.read ⟨"f.json"⟩ countBench).2).1 =
        .ok [Row.empty.insert "x" (.int 1)] := by
    have there : countBench.files ⟨"p.json"⟩ = some ⟨countRows, .other⟩ := Bench.files_put_self
    rw [Bench.read_keeps, Bench.read_found there]
    exact count_listed
  let request : Request := .evaluate ⟨"f.json"⟩ ⟨"p.json"⟩
  have evaluated : perform (request.steps host) (beginning request countBench) = _ :=
    perform_evaluate count_found listed computed
  obtain ⟨prepared, _, columns, serves⟩ := count_prepared
  obtain ⟨empty, directory, known, compiled⟩ := prepared.session
  have encoded : encodeRows (built host countRequest ⟨"p.json"⟩ (.lone "x" .int)
      countBench).state.columns 0 [Row.empty.insert "x" (.int 1)] = .ok [["1"]] := by
    rw [columns]
    cbv
  obtain ⟨_, _, running, holds⟩ :=
    runRows_served (serves directory known) known compiled empty encoded computed
  obtain ⟨_, concluded⟩ := conclude_served countRequest.verify holds computed
  have first : simulation = _ :=
    report_of_done (simulate_ok prepared.prepares running concluded)
  have second : evaluation = _ := report_of_done evaluated
  rw [first, second]
  exact ⟨rfl, String.empty_append, rfl, String.empty_append⟩

theorem simulation_agrees_count :
    let host := Bench.host Bench.copyist
    let simulation := ((Request.simulate countRequest).perform host countBench).1
    let evaluation := ((Request.evaluate ⟨"f.json"⟩ ⟨"p.json"⟩).perform host countBench).1
    simulation.failure = none ∧ evaluation.failure = none ∧ ∃ values : List Value, ∃ left right,
      simulation.output = Text.page (rowLines (values.map Value.cell) ++ [] ++
        [verdictLine left]) ∧
      evaluation.output = Text.page (rowLines (values.map Value.cell) ++ [verdictLine right]) := by
  intro host simulation evaluation
  have simulates : simulation.failure = none := count_succeeds.1
  have evaluates : evaluation.failure = none := count_succeeds.2.2.1
  obtain ⟨_, listed, _, serves⟩ := count_prepared
  have undisturbed : listing host countRequest ⟨"p.json"⟩ (.lone "x" .int) countBench =
      (host.read ⟨"p.json"⟩ (host.read ⟨"f.json"⟩ countBench).2).1 := by
    have there : countBench.files ⟨"p.json"⟩ = some ⟨countRows, .other⟩ := Bench.files_put_self
    rw [listed, Bench.read_keeps, Bench.read_found there]
  obtain ⟨_, values, _, _, left, right, simulated, evaluated, _⟩ :=
    simulation_agrees host countRequest ⟨"p.json"⟩ (.lone "x" .int) countBench rfl count_found
      undisturbed serves simulates evaluates
  exact ⟨simulates, evaluates, values, left, right, simulated, evaluated⟩

/-- The evaluation finds that the integer is no truth value; the simulation takes it for one. -/
theorem simulation_takes_one_for_truth :
    let host := Bench.host Bench.copyist
    let simulation := ((Request.simulate countRequest).perform host countBench).1
    let evaluation := ((Request.evaluate ⟨"f.json"⟩ ⟨"p.json"⟩).perform host countBench).1
    simulation.failure = none ∧ simulation.output = "row 0: 1\nAll satisfied: true\n" ∧
      evaluation.failure = none ∧ evaluation.output = "row 0: 1\nAll satisfied: false\n" := by
  have simulated : simulationLines false [.int 1] = ["row 0: 1", "All satisfied: true"] := rfl
  have evaluated : evaluationLines [.int 1] = ["row 0: 1", "All satisfied: false"] := rfl
  have succeeds := count_succeeds
  rw [simulated, evaluated] at succeeds
  exact succeeds

end Count

end Formulary.CommandLine
