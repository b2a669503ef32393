import Formulary.Proofs.Arena.Loading
import Formulary.Proofs.CommandLine.Agreement
import Formulary.Proofs.Session.Provenance
import Mathlib.Data.Set.Card
import Mathlib.Order.Bounds.Basic

/-! Verification misses no disagreement. Once the rows of a simulation have run, there is a result
for each of them, whatever the evaluator is and does. So the comparison with the values of the
rows, one by one, finds every row where a result differs, and reports how many there are and
which is the first. -/
namespace Formulary

namespace Session

variable {World : Type} {host : Host (StateM World)} {standing after : Standing Session World}
variable {output : Path}

/-- A result file has just been read, and has a line for each of some rows. -/
def Counted (host : Host (StateM World)) (output : Path) (rows : Nat) (world : World) : Prop :=
  ∃ before content lines, host.read output before = (.ok (.ok content), world) ∧
    linesOf output content = .ok lines ∧ lines.length = rows

/-- However the results came about, they are counted last. -/
theorem simulate_counted {input : Path}
    (done : perform (simulate host input output) standing = (.ok (), after)) :
    Counted host output standing.state.batch.size after.world := by
  unfold simulate at done
  rw [perform_get_bind] at done
  split at done
  · cases done
  · obtain ⟨_, fed, _, counting⟩ := perform_bind_inv done
    exact ⟨fed.world, tally_ok counting⟩

theorem runPending_counted
    (done : perform (runPending host) standing = (.ok output, after)) :
    Counted host output standing.state.batch.size after.world := by
  unfold runPending at done
  obtain ⟨directory, entered, entering, done⟩ := perform_bind_inv done
  have kept : entered.state.batch = standing.state.batch := by
    obtain ⟨scratch, same⟩ := ((workDirectory_leaves host _ _).of_ok entering).same
    rw [same]
  rw [perform_get_bind] at done
  obtain ⟨_, ran, simulating, done⟩ := perform_bind_inv done
  cases done
  rw [← kept]
  exact simulate_counted simulating

end Session

namespace CommandLine

variable {World : Type}

section Comparison

variable {expected results : List String} {index : Nat}

theorem mem_disagreements :
    index ∈ disagreements expected results ↔ ∃ cell result, expected[index]? = some cell ∧
      results[index]? = some result ∧ cell ≠ result := by
  simp only [disagreements, List.mem_filterMap, List.mem_mapIdx]
  constructor
  · rintro ⟨_, ⟨position, inside, rfl⟩, kept⟩
    have pair : (expected.zip results)[position]? = some (expected.zip results)[position] :=
      List.getElem?_eq_getElem inside
    obtain ⟨here, there⟩ := List.getElem?_zip_eq_some.mp pair
    split at kept
    · cases kept
    · rename_i differ
      cases kept
      exact ⟨_, _, here, there, differ⟩
  · rintro ⟨cell, result, here, there, differ⟩
    have pair : (expected.zip results)[index]? = some (cell, result) :=
      List.getElem?_zip_eq_some.mpr ⟨here, there⟩
    obtain ⟨inside, found⟩ := List.getElem?_eq_some_iff.mp pair
    exact ⟨_, ⟨index, inside, rfl⟩, by rw [found, if_neg differ]⟩

/-- Disagreements come in the order of the rows. -/
theorem disagreements_sorted (expected results : List String) :
    (disagreements expected results).Pairwise (· < ·) := by
  rw [disagreements, List.pairwise_filterMap, List.pairwise_iff_getElem]
  intro left right _ _ before first kept second keptToo
  simp only [List.getElem_mapIdx] at kept keptToo
  split at kept
  · cases kept
  · split at keptToo
    · cases keptToo
    · cases kept
      cases keptToo
      exact before

def verificationReport (rows : Nat) (results : List String) : List Nat → Report
  | [] =>
    ⟨Text.page (rowLines results ++ [verifiedLine rows] ++
      [verdictLine (results.all (· = Session.truthy))]), [], none⟩
  | first :: rest =>
    ⟨Text.page (rowLines results), [], some (.disagreement (rest.length + 1) rows first)⟩

theorem errorLines_disagreement {output : String} {count rows first : Nat} :
    Report.errorLines ⟨output, [], some (.disagreement count rows first)⟩ =
      ["Error: " ++ toString count ++ " of " ++ toString rows ++
        " rows disagree with the reference evaluator (first: row " ++ toString first ++ ")"] := by
  simp [Report.errorLines, Failure.message, String.append_assoc]

theorem verificationReport_exitCode {rows : Nat} {found : List Nat} :
    (verificationReport rows results found).exitCode = 0 ↔ found = [] := by
  cases found with
  | nil => simp [verificationReport, Report.exitCode]
  | cons first rest => simp [verificationReport, Report.exitCode, Failure.exitCode]

/-- A failure tells the number of disagreements, and the least of them. -/
theorem verificationReport_sorted (rows : Nat) (results : List String) {found : List Nat}
    (sorted : found.Pairwise (· < ·)) (any : found ≠ []) :
    ∃ first, IsLeast {index | index ∈ found} first ∧
      verificationReport rows results found = ⟨Text.page (rowLines results), [],
        some (.disagreement {index | index ∈ found}.ncard rows first)⟩ := by
  cases found with
  | nil => exact absurd rfl any
  | cons first rest =>
    have counted : {index | index ∈ first :: rest}.ncard = rest.length + 1 := by
      rw [← List.coe_toFinset, Set.ncard_coe_finset, List.toFinset_card_of_nodup sorted.nodup,
        List.length_cons]
    refine ⟨first, ⟨List.mem_cons_self, fun index member => ?_⟩, by rw [counted]; rfl⟩
    rcases List.mem_cons.mp member with rfl | later
    · exact Nat.le_refl _
    · exact Nat.le_of_lt ((List.pairwise_cons.mp sorted).1 index later)

end Comparison

section Running

variable {host : Host (StateM World)} {request : SimulationRequest} {world : World}
variable {formula : Formula} {rows : List Row} {output : Path} {ready after : Standing Work World}

/-- Rows are found without a step of the session. -/
theorem rowsOf_keeps {source : RowSource} {columns : Columns} {work : Work}
    (done : perform (rowsOf host source columns) ⟨work, world⟩ = (.ok rows, after)) :
    after.state = work := by
  cases source with
  | file path =>
    obtain ⟨_, rfl⟩ := perform_load_inv done
    rfl
  | random count seed edgeCases =>
    cases seed with
    | some seed =>
      cases done
      rfl
    | none =>
      cases done
      rfl

theorem prepare_ok
    (done : perform (prepare host request) (beginning (.simulate request) world) =
      (.ok (formula, rows), ready)) :
    ∃ session, ready.state = ⟨session, "", []⟩ ∧ session.batch = .empty := by
  unfold prepare loadFormula beginning at done
  obtain ⟨_, _, loading, done⟩ := perform_bind_inv done
  obtain ⟨_, rfl⟩ := perform_load_inv loading
  obtain ⟨columns, _, generating, done⟩ := perform_bind_inv done
  obtain ⟨generated, generates, rfl⟩ := perform_step_inv generating
  obtain ⟨_, ⟨_, _⟩, drawing, done⟩ := perform_bind_inv done
  cases rowsOf_keeps drawing
  obtain ⟨_, _, compiling, done⟩ := perform_bind_inv done
  obtain ⟨compiled, compiles, rfl⟩ := perform_step_inv compiling
  cases done
  -- Generation leaves no rows, and compilation adds none.
  obtain ⟨_, _, _, _, _, fresh⟩ := (Session.generate_leaves host _ _ formula).of_ok generates
  obtain ⟨_, _, entered, enters, built⟩ := (Session.compile_leaves host _ _).of_ok compiles
  obtain ⟨scratch, rfl⟩ := enters.same
  refine ⟨compiled.state, rfl, ?_⟩
  rw [built, fresh]
  rfl

/-- Once rows have run, there is a result for each of them. -/
theorem runRows_counted {session : Session} {printed : String} {notes : List String}
    (waiting : session.batch = .empty)
    (done : perform (runRows host rows) ⟨⟨session, printed, notes⟩, world⟩ =
      (.ok output, after)) :
    ∃ ran, after.state = ⟨ran, printed, notes⟩ ∧
      Session.Counted host output rows.length after.world := by
  obtain ⟨lines, ran, encoded, runs, rfl⟩ := runRows_ok done
  refine ⟨ran.state, rfl, ?_⟩
  have size : Batch.size (session.batch.append lines) = rows.length := by
    rw [waiting, (encodeRows_ok encoded).length_eq]
    rfl
  rw [← size]
  exact Session.runPending_counted runs

theorem perform_verified {values : List Value} {content : Text.Bytes} {results : List String}
    (verify : request.verify = true)
    (prepared : perform (prepare host request) (beginning (.simulate request) world) =
      (.ok (formula, rows), ready))
    (ran : perform (runRows host rows) ready = (.ok output, after))
    (holds : Session.Holds host output content after.world)
    (listed : Session.linesOf output content = .ok results)
    (computed : formula.evaluateRows rows = .ok values) :
    ((Request.simulate request).perform host world).1 =
      verificationReport rows.length results (disagreements (values.map Value.cell) results) := by
  obtain ⟨work, ready⟩ := ready
  obtain ⟨session, rfl, waiting⟩ := prepare_ok prepared
  obtain ⟨work, after⟩ := after
  obtain ⟨filled, rfl, _⟩ := runRows_counted waiting ran
  rw [report_eq, simulate_steps, perform_bind_ok prepared, perform_bind_ok ran, verify]
  cases found : disagreements (values.map Value.cell) results with
  | nil =>
    rw [conclude_agree true holds.now listed holds.again.now computed found]
    simp [verificationReport]
  | cons first rest =>
    rw [conclude_differ holds.now listed computed found]
    simp [verificationReport]

end Running

/-- The evaluator has left another result for a row than the cell of its value. -/
def Differs (formula : Formula) (rows : List Row) (results : List String) (index : Nat) : Prop :=
  ∃ row value result, rows[index]? = some row ∧ formula.evaluate row = .ok value ∧
    results[index]? = some result ∧ result ≠ value.cell

section Rows

variable {formula : Formula} {rows : List Row} {values : List Value} {results : List String}
variable {index : Nat}

theorem value_at {row : Row} (computed : formula.evaluateRows rows = .ok values)
    (here : rows[index]? = some row) :
    ∃ value, values[index]? = some value ∧ formula.evaluate row = .ok value := by
  obtain ⟨counted, each⟩ := List.forall₂_iff_get.mp (Formula.evaluateFrom_ok computed)
  obtain ⟨inside, rfl⟩ := List.getElem?_eq_some_iff.mp here
  exact ⟨_, List.getElem?_eq_getElem (counted ▸ inside), each index inside (counted ▸ inside)⟩

theorem mem_disagreements_iff_differs (computed : formula.evaluateRows rows = .ok values) :
    index ∈ disagreements (values.map Value.cell) results ↔
      Differs formula rows results index := by
  rw [mem_disagreements]
  constructor
  · rintro ⟨cell, result, expected, found, differ⟩
    rw [List.getElem?_map, Option.map_eq_some_iff] at expected
    obtain ⟨value, listed, rfl⟩ := expected
    obtain ⟨inside, _⟩ := List.getElem?_eq_some_iff.mp listed
    have counted := (Formula.evaluateFrom_ok computed).length_eq
    have here : rows[index]? = some rows[index] := List.getElem?_eq_getElem _
    obtain ⟨same, listedToo, evaluated⟩ := value_at computed here
    cases listed.symm.trans listedToo
    exact ⟨_, value, result, here, evaluated, found, differ.symm⟩
  · rintro ⟨row, value, result, here, evaluated, found, differ⟩
    obtain ⟨same, listed, evaluates⟩ := value_at computed here
    cases evaluated.symm.trans evaluates
    refine ⟨value.cell, result, ?_, found, differ.symm⟩
    rw [List.getElem?_map, listed]
    rfl

/-- Where there is a result for each row, no row differs exactly when each has the result that
its value has. -/
theorem forall_not_differs (computed : formula.evaluateRows rows = .ok values)
    (counted : results.length = rows.length) :
    (∀ index, ¬ Differs formula rows results index) ↔
      ∀ (index : Nat) row, rows[index]? = some row →
        ∃ value, formula.evaluate row = .ok value ∧ results[index]? = some value.cell := by
  constructor
  · intro agree index row here
    obtain ⟨value, _, evaluated⟩ := value_at computed here
    obtain ⟨inside, _⟩ := List.getElem?_eq_some_iff.mp here
    have found : results[index]? = some results[index] := List.getElem?_eq_getElem _
    by_cases same : results[index] = value.cell
    · exact ⟨value, evaluated, same ▸ found⟩
    · exact absurd ⟨row, value, _, here, evaluated, found, same⟩ (agree index)
  · rintro agree index ⟨row, value, result, here, evaluated, found, differ⟩
    obtain ⟨expected, evaluates, present⟩ := agree index row here
    cases evaluated.symm.trans evaluates
    cases found.symm.trans present
    exact differ rfl

end Rows

/-- On a machine where programs behave in any way, a file that was just read is there to be read
again. -/
theorem counted_holds {behavior : Path → List String → Rehearsal →
      Except OsFault Completion × Rehearsal} {output : Path} {rows : Nat} {machine : Rehearsal}
    (counted : Session.Counted (Rehearsal.hostOf behavior) output rows machine) :
    ∃ content results, machine.disk.read output = .ok (.ok content) ∧
      Session.Holds (Rehearsal.hostOf behavior) output content machine ∧
      Session.linesOf output content = .ok results ∧ results.length = rows := by
  obtain ⟨before, content, results, read, listed, counted⟩ := counted
  obtain ⟨there, rfl⟩ := Prod.mk.inj read
  refine ⟨content, results, there, fun times => ?_, listed, counted⟩
  induction times with
  | zero => exact there
  | succ times ih => exact ih

/-- A simulation that is to be verified, on a machine where the compiler and the evaluator behave
in any way, whose rows have run and can be evaluated. The result file has a line for each row. The
simulation succeeds exactly when the line of each row is the cell of the row's value; or else it
tells how many of the rows have another line, and the first of them. -/
theorem verification_exact
    (behavior : Path → List String → Rehearsal → Except OsFault Completion × Rehearsal)
    (request : SimulationRequest) (machine : Rehearsal) (formula : Formula) (rows : List Row)
    (output : Path) (ready after : Standing Work Rehearsal) (values : List Value)
    (verify : request.verify = true)
    (prepared : perform (prepare (Rehearsal.hostOf behavior) request)
      (beginning (.simulate request) machine) = (.ok (formula, rows), ready))
    (ran : perform (runRows (Rehearsal.hostOf behavior) rows) ready = (.ok output, after))
    (computed : formula.evaluateRows rows = .ok values) :
    let report := ((Request.simulate request).perform (Rehearsal.hostOf behavior) machine).1
    ∃ content results, after.world.disk.read output = .ok (.ok content) ∧
      Session.linesOf output content = .ok results ∧ results.length = rows.length ∧
      (report.exitCode = 0 ↔ ∀ (index : Nat) row, rows[index]? = some row →
        ∃ value, formula.evaluate row = .ok value ∧ results[index]? = some value.cell) ∧
      (report.exitCode = 0 → report.errorLines = [] ∧
        report.output = Text.page (rowLines results ++
          ["Verified " ++ toString rows.length ++ " rows against the reference evaluator",
            "All satisfied: " ++ if results.all (· = "1") then "true" else "false"])) ∧
      (report.exitCode ≠ 0 → ∃ first,
        IsLeast {index | Differs formula rows results index} first ∧ report.exitCode = 1 ∧
        report.output = Text.page (rowLines results) ∧
        report.errorLines = ["Error: " ++
          toString {index | Differs formula rows results index}.ncard ++ " of " ++
          toString rows.length ++ " rows disagree with the reference evaluator (first: row " ++
          toString first ++ ")"]) := by
  intro report
  obtain ⟨work, world⟩ := ready
  obtain ⟨session, rfl, waiting⟩ := prepare_ok prepared
  obtain ⟨_, _, counted⟩ := runRows_counted waiting ran
  obtain ⟨content, results, read, holds, listed, counted⟩ := counted_holds counted
  let found := disagreements (values.map Value.cell) results
  have settled : report = verificationReport rows.length results found :=
    perform_verified verify prepared ran holds listed computed
  have differing : {index | index ∈ found} = {index | Differs formula rows results index} :=
    Set.ext fun index => mem_disagreements_iff_differs computed
  refine ⟨content, results, read, listed, counted, ?_, fun succeeded => ?_, fun failed => ?_⟩
  · rw [settled, verificationReport_exitCode, ← forall_not_differs computed counted,
      List.eq_nil_iff_forall_not_mem]
    exact forall_congr' fun index => not_congr (mem_disagreements_iff_differs computed)
  · rw [settled, verificationReport_exitCode] at succeeded
    rw [settled, succeeded, verificationReport, List.append_assoc]
    exact ⟨rfl, rfl⟩
  · rw [settled, Ne, verificationReport_exitCode] at failed
    have sorted : found.Pairwise (· < ·) := disagreements_sorted _ _
    obtain ⟨first, least, reported⟩ :=
      verificationReport_sorted rows.length results sorted failed
    rw [settled, reported, ← differing]
    exact ⟨first, least, rfl, rfl, errorLines_disagreement⟩

section Negation

/-- The negation of an integer. The bench's evaluator copies the integer instead. -/
def negation : Formula where
  arena := .ofNodes #[⟨.symbol "x", [], .int⟩, ⟨.minus, [0], .int⟩]
  root := 1
  ordered := by decide
  rooted := by decide

def negationText : String :=
  "\x7b\"nodes\":[\x7b\"op\":\x7b\"Symbol\":\"x\"\x7d,\"children\":[],\"sort\":\"Int\"\x7d," ++
    "\x7b\"op\":\"Minus\",\"children\":[0],\"sort\":\"Int\"\x7d],\"root\":1\x7d"

def negationRowsText : String :=
  "[\x7b\"x\":\x7b\"Int\":0\x7d\x7d,\x7b\"x\":\x7b\"Int\":1\x7d\x7d," ++
    "\x7b\"x\":\x7b\"Int\":2\x7d\x7d]"

def negationRows : List Row :=
  [Row.empty.insert "x" (.int 0), Row.empty.insert "x" (.int 1), Row.empty.insert "x" (.int 2)]

/-- A machine whose compiler makes an evaluator that copies these integers. -/
def negationMachine : Rehearsal where
  disk :=
    ⟨[(["f.json"], .file ⟨.ofText negationText, false, none⟩),
      (["p.json"], .file ⟨.ofText negationRowsText, false, none⟩),
      (["cc"], .file ⟨[], true, some .compiler⟩)], []⟩
  compiler := ⟨.quiet, true⟩
  evaluator := ⟨.quiet, some (.ofText "0\n1\n2\n")⟩
  log := ⟨"log"⟩
  scratch := ⟨"/scratch"⟩
  key := .ofSeed 0

def negationRequest : SimulationRequest := 
  { countRequest with compiler := some ⟨"./cc"⟩, verify := true }

theorem negationText_decoded : Format.formulaText negationText = .ok negation := by
  have file : Format.decodeText FormulaFile.ofJson negationText =
      .ok ⟨[⟨.symbol "x", [], .int⟩, ⟨.minus, [0], .int⟩], 1⟩ := by cbv
  have distinct : negation.arena.Distinct := by
    refine Arena.distinct_iff.mpr ?_
    simp [Node.key, Operator.label]
  have storable : ∀ node ∈ negation.arena.nodes, node.isStorable := by decide
  rw [Format.formulaText, file]
  exact negation.load_toFile rfl ⟨negation.ordered, distinct, storable⟩ (by decide)

def negationColumns : Columns := ⟨[⟨"x", "v_x", .int⟩]⟩

def negationFunction : Code.Function :=
  ⟨negationColumns, [], ⟨.unary .negate (.argument "v_x"), .int, false⟩⟩

theorem negation_program :
    negation.program = .ok ⟨negationColumns, negationFunction.text⟩ := by
  have lowered : negation.lower = .ok negationFunction := by cbv
  rw [Formula.program, lowered]
  rfl

def negationSource : Path := (Request.simulate negationRequest).config.sourcePath ⟨"work"⟩

/-- The machine before the program is moved in place. -/
def negationHeld : Rehearsal :=
  let made := (Rehearsal.host.createDirectories ⟨"work"⟩ negationMachine).2
  (Rehearsal.host.makeTemporary ⟨"work"⟩ made).2

/-- Where the simulation stands when the program is generated. -/
def negationDraft : Standing Session Rehearsal :=
  ⟨(Session.new (Request.simulate negationRequest).config).generated negationColumns
      negationSource,
    (Rehearsal.host.persist ⟨"work/.tmp100000"⟩ negationFunction.text negationSource
      negationHeld).2⟩

/-- Where it stands when the program is compiled. -/
def negationReady : Standing Work Rehearsal :=
  let built := (perform (Session.compile Rehearsal.host) negationDraft).2
  ⟨⟨built.state, "", []⟩, built.world⟩

theorem negation_generated :
    perform (Session.generate Rehearsal.host negation)
      (opened Rehearsal.host negationRequest negationMachine) =
        (.ok negationColumns, negationDraft) := by
  have created : (Rehearsal.host.createDirectories ⟨"work"⟩ negationMachine).1 = .ok () := by
    decide +kernel
  have begun : (Rehearsal.host.makeTemporary ⟨"work"⟩
      (Rehearsal.host.createDirectories ⟨"work"⟩ negationMachine).2).1 =
        .ok ⟨"work/.tmp100000"⟩ := by decide +kernel
  have moved : (Rehearsal.host.persist ⟨"work/.tmp100000"⟩ negationFunction.text negationSource
      negationHeld).1 = .ok () := by decide +kernel
  have inside : negationSource.parent? = some ⟨"work"⟩ := by decide +kernel
  exact Session.perform_generate rfl negation_program inside (by decide +kernel)
    (Prod.ext created rfl) (Prod.ext begun rfl) (Prod.ext moved rfl)

theorem negation_prepared :
    perform (prepare Rehearsal.host negationRequest)
      (beginning (.simulate negationRequest) negationMachine) =
        (.ok (negation, negationRows), negationReady) := by
  have found : (Rehearsal.host.read ⟨"f.json"⟩ negationMachine).1 =
      .ok (.ok (.ofText negationText)) := by decide +kernel
  have listed : (Rehearsal.host.read ⟨"p.json"⟩ negationDraft.world).1 =
      .ok (.ok (.ofText negationRowsText)) := by decide +kernel
  have draft : drafted Rehearsal.host negationRequest ⟨"p.json"⟩ negation negationMachine =
      negationDraft := by
    rw [drafted, negation_generated]
    rfl
  have compiles : (perform (Session.compile Rehearsal.host) negationDraft).1.toOption =
      some () := by decide +kernel
  have prepared : Prepared Rehearsal.host negationRequest ⟨"p.json"⟩ negation negationMachine
      negationRows := by
    refine ⟨rfl, ?_, ⟨negationColumns, by rw [negation_generated]⟩, ?_, ?_⟩
    · exact found ▸ loaded_ascii _ (by decide +kernel) negationText_decoded
    · rw [listing, negation_generated, listed]
      exact loaded_ascii _ (by decide +kernel) (by cbv)
    · rw [draft]
      exact eq_ok_of_toOption compiles
  rw [prepared.prepares, built, draft]
  rfl

/-- The rows run, and their results are the integers. -/
theorem negation_ran :
    let outcome := perform (runRows Rehearsal.host negationRows) negationReady
    outcome.1 = .ok ⟨"work/sim_result"⟩ ∧
      outcome.2.world.disk.read ⟨"work/sim_result"⟩ = .ok (.ok (.ofText "0\n1\n2\n")) := by
  intro outcome
  have ran : outcome.1.toOption = some ⟨"work/sim_result"⟩ := by decide +kernel
  exact ⟨eq_ok_of_toOption ran, by decide +kernel⟩

/-- The integers are their own negations only at zero: two of three rows disagree, and the first
of them is the second row. -/
theorem verification_exact_negation :
    let report := ((Request.simulate negationRequest).perform Rehearsal.host negationMachine).1
    negation.evaluateRows negationRows = .ok [.int 0, .int (-1), .int (-2)] ∧
      report.exitCode = 1 ∧ report.output = "row 0: 0\nrow 1: 1\nrow 2: 2\n" ∧
      report.errorLines =
        ["Error: 2 of 3 rows disagree with the reference evaluator (first: row 1)"] := by
  intro report
  have computed : negation.evaluateRows negationRows = .ok [.int 0, .int (-1), .int (-2)] := by cbv
  refine ⟨computed, ?_⟩
  obtain ⟨content, results, read, listed, _, succeeds, _, fails⟩ :=
    verification_exact (fun program arguments machine => machine.run program arguments)
      negationRequest negationMachine negation negationRows ⟨"work/sim_result"⟩ negationReady
      (perform (runRows Rehearsal.host negationRows) negationReady).2 _ rfl negation_prepared
      (Prod.ext negation_ran.1 rfl) computed
  cases read.symm.trans negation_ran.2
  have lines : Session.linesOf ⟨"work/sim_result"⟩ (.ofText "0\n1\n2\n") =
      .ok ["0", "1", "2"] := eq_ok_of_toOption (by decide +kernel)
  cases listed.symm.trans lines
  have differing : {index | Differs negation negationRows ["0", "1", "2"] index} = {1, 2} := by
    ext index
    rw [Set.mem_ofPred_eq, ← mem_disagreements_iff_differs computed]
    have found : disagreements ([.int 0, .int (-1), .int (-2)].map Value.cell) ["0", "1", "2"] =
        [1, 2] := by cbv
    rw [found]
    simp
  have failed : report.exitCode ≠ 0 := by
    intro succeeded
    obtain ⟨value, evaluated, same⟩ := succeeds.mp succeeded 1 _ rfl
    have negated : negation.evaluate (Row.empty.insert "x" (.int 1)) = .ok (.int (-1)) := by cbv
    cases evaluated.symm.trans negated
    exact absurd same (by decide)
  obtain ⟨first, least, code, output, lines⟩ := fails failed
  rw [differing] at least lines
  have second : IsLeast {1, 2} 1 := by
    refine ⟨Set.mem_insert 1 _, ?_⟩
    rintro index (rfl | rfl) <;> decide
  rw [least.unique second, Set.ncard_pair (by decide)] at lines
  exact ⟨code, output, lines⟩

end Negation

end CommandLine

end Formulary
