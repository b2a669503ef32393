import Formulary.Proofs.Evaluation.Batches
import Formulary.Proofs.Session.Results
import Formulary.Proofs.Session.Steps

namespace Formulary.Session

variable {World α β : Type}

section Performance

variable {session : Session} {world after : World}

theorem perform_orFail {action : StateM World (Except OsFault α)} {value : α}
    (cause : OsFault → Error) (done : action world = (.ok value, after)) :
    perform (orFail cause action) ⟨session, world⟩ = (.ok value, ⟨session, after⟩) :=
  perform_bind_ok (perform_host done)

theorem perform_workDirectory {host : Host (StateM World)} {directory : Path}
    (known : session.workDirectory? = some directory) :
    perform (workDirectory host) ⟨session, world⟩ = (.ok directory, ⟨session, world⟩) := by
  unfold workDirectory
  rw [perform_get_bind]
  simp only [known]
  rfl

theorem perform_addRows {rows : List Row} {lines : List (List String)}
    (encoded : encodeRows session.columns session.batch.size rows = .ok lines) :
    perform (addRows rows : SessionM (StateM World) Unit) ⟨session, world⟩ =
      (.ok (), ⟨{ session with batch := session.batch.append lines }, world⟩) := by
  unfold addRows
  rw [perform_get_bind, encoded, perform_bind_ok (perform_except _ _)]
  rfl

theorem perform_addRows_refused {rows : List Row} {error : Error}
    (refused : encodeRows session.columns session.batch.size rows = .error error) :
    perform (addRows rows : SessionM (StateM World) Unit) ⟨session, world⟩ =
      (.error error, ⟨session, world⟩) := by
  unfold addRows
  rw [perform_get_bind, refused, perform_bind_error (perform_except _ _)]

theorem perform_generate {host : Host (StateM World)} {formula : Formula}
    {program : Code.Program} {directory parent temporary : Path} {made held : World}
    (known : session.workDirectory? = some directory) (lowered : formula.program = .ok program)
    (inside : (session.config.sourcePath directory).parent? = some parent)
    (named : parent.text.isEmpty = false)
    (created : host.createDirectories parent world = (.ok (), made))
    (begun : host.makeTemporary parent made = (.ok temporary, held))
    (moved : host.persist temporary program.source (session.config.sourcePath directory) held =
      (.ok (), after)) :
    perform (generate host formula) ⟨session, world⟩ =
      (.ok program.columns,
        ⟨session.generated program.columns (session.config.sourcePath directory), after⟩) := by
  unfold generate
  rw [perform_bind_ok (perform_workDirectory known), perform_get_bind]
  unfold generateTo store
  rw [lowered, perform_bind_ok (perform_except _ _), inside]
  simp only [named, Bool.false_eq_true, if_false]
  rw [perform_bind, perform_bind_ok (perform_orFail _ created),
    perform_bind_ok (perform_orFail _ begun), perform_orFail _ moved]
  rfl

end Performance

/-- The world after a file has been read some times. -/
def afterReading (host : Host (StateM World)) (path : Path) : Nat → World → World
  | 0, world => world
  | times + 1, world => afterReading host path times (host.read path world).2

/-- A file has a content, however often it is read. -/
def Holds (host : Host (StateM World)) (path : Path) (content : Text.Bytes) (world : World) :
    Prop :=
  ∀ times, (host.read path (afterReading host path times world)).1 = .ok (.ok content)

section Reading

variable {host : Host (StateM World)} {path : Path} {content : Text.Bytes} {world : World}

theorem Holds.now (holds : Holds host path content world) :
    host.read path world = (.ok (.ok content), (host.read path world).2) :=
  Prod.ext (holds 0) rfl

theorem Holds.again (holds : Holds host path content world) :
    Holds host path content (host.read path world).2 := fun times => holds (times + 1)

theorem perform_readFile {after : World} (session : Session)
    (read : host.read path world = (.ok (.ok content), after)) :
    perform (readFile host path) ⟨session, world⟩ = (.ok content, ⟨session, after⟩) :=
  perform_bind_ok (perform_orFail _ read)

theorem readResults_eq_linesOf {after : World} (session : Session)
    (read : host.read path world = (.ok (.ok content), after)) :
    perform (readResults host path) ⟨session, world⟩ =
      (linesOf path content, ⟨session, after⟩) := by
  rw [readResults, perform_bind_ok (perform_readFile session read), perform_except]

theorem checkAllSatisfied_eq_allTruthy {after : World} (session : Session)
    (read : host.read path world = (.ok (.ok content), after)) :
    perform (checkAllSatisfied host path) ⟨session, world⟩ =
      (allTruthy path content.lines, ⟨session, after⟩) := by
  rw [checkAllSatisfied, perform_bind_ok (perform_readFile session read), perform_except]

theorem perform_readResults {values : List Value} (session : Session)
    (holds : Holds host path (resultFile values) world) :
    perform (readResults host path) ⟨session, world⟩ =
      (.ok (values.map Value.cell), ⟨session, (host.read path world).2⟩) := by
  rw [readResults_eq_linesOf session holds.now, linesOf_resultFile]

theorem perform_checkAllSatisfied {values : List Value} (session : Session)
    (holds : Holds host path (resultFile values) world) :
    perform (checkAllSatisfied host path) ⟨session, world⟩ =
      (.ok (values.all fun value => value.cell = truthy),
        ⟨session, (host.read path world).2⟩) := by
  rw [checkAllSatisfied_eq_allTruthy session holds.now, allTruthy_resultFile]

end Reading

/-- A host on which the rows of a session run. The patterns of a batch can be written, and the
program then finishes and has left the cell of each row's value on a line of its own. Without
rows, the result file can be emptied. -/
structure Serves (host : Host (StateM World)) (formula : Formula) (columns : Columns)
    (program input output : Path) (world : World) : Prop where
  runs : ∀ rows lines values, rows ≠ [] → encodeRows columns 0 rows = .ok lines →
    formula.evaluateRows rows = .ok values →
    ∃ written found ended completion,
      host.write input (Batch.text ⟨lines⟩) world = (.ok (), written) ∧
      host.isThere program written = (true, found) ∧
      host.run program [input.text, output.text] found = (.ok completion, ended) ∧
      completion.succeeded = true ∧ Holds host output (resultFile values) ended
  empties : ∃ written emptied,
    host.write input Batch.empty.text world = (.ok (), written) ∧
    host.write output "" written = (.ok (), emptied) ∧ Holds host output (.ofText "") emptied

section Running

variable {host : Host (StateM World)} {formula : Formula} {columns : Columns}
variable {program input output : Path} {world : World} {session : Session}

theorem perform_compile {directory source : Path} {found ended : World} {completion : Completion}
    (known : session.source = some source) (entered : session.workDirectory? = some directory)
    (run : host.run session.config.compiler
      (session.config.compileArguments source (session.config.programPath directory)) world =
        (.ok completion, ended))
    (succeeded : completion.succeeded = true)
    (there : host.isThere (session.config.programPath directory) ended = (true, found)) :
    perform (compile host) ⟨session, world⟩ = (.ok (), ⟨session.compiled directory, found⟩) := by
  unfold compile
  rw [perform_get_bind]
  simp only [known]
  rw [perform_bind_ok (perform_workDirectory entered), perform_get_bind,
    perform_bind_ok (perform_orFail _ run), succeeded]
  simp only [if_true]
  rw [perform_bind_ok (perform_host there)]
  rfl

theorem perform_execute {found ended : World} {completion : Completion}
    (there : host.isThere program world = (true, found))
    (run : host.run program [input.text, output.text] found = (.ok completion, ended))
    (succeeded : completion.succeeded = true) :
    perform (execute host program input output) ⟨session, world⟩ = (.ok (), ⟨session, ended⟩) := by
  unfold execute
  rw [perform_bind_ok (perform_host there)]
  simp only [if_true]
  rw [perform_bind_ok (perform_orFail _ run), succeeded]
  rfl

theorem perform_feed {batch : Batch} {written found ended : World} {completion : Completion}
    (waiting : batch.size ≠ 0) (patterns : host.write input batch.text world = (.ok (), written))
    (there : host.isThere program written = (true, found))
    (run : host.run program [input.text, output.text] found = (.ok completion, ended))
    (succeeded : completion.succeeded = true) :
    perform (feed host program input output batch) ⟨session, world⟩ =
      (.ok (), ⟨session, ended⟩) := by
  unfold feed
  rw [perform_bind_ok (perform_orFail _ patterns), if_neg waiting,
    perform_execute there run succeeded]

/-- The evaluator leaves the cells of the values of a batch in the result file. -/
theorem feed_served (session : Session)
    (serves : Serves host formula columns program input output world)
    {rows : List Row} {lines : List (List String)} {values : List Value}
    (encoded : encodeRows columns 0 rows = .ok lines)
    (evaluated : formula.evaluateRows rows = .ok values) :
    ∃ fed, perform (feed host program input output ⟨lines⟩) ⟨session, world⟩ =
        (.ok (), ⟨session, fed⟩) ∧ Holds host output (resultFile values) fed := by
  by_cases none : rows = []
  · subst none
    cases encoded
    cases evaluated
    obtain ⟨written, emptied, patterns, results, holds⟩ := serves.empties
    refine ⟨emptied, ?_, holds⟩
    have patterns : host.write input (Batch.text ⟨[]⟩) world = (.ok (), written) := patterns
    have nothing : Batch.size ⟨[]⟩ = 0 := rfl
    unfold feed
    rw [perform_bind_ok (perform_orFail _ patterns), if_pos nothing, perform_orFail _ results]
  · obtain ⟨written, found, ended, completion, patterns, there, run, succeeded, holds⟩ :=
      serves.runs rows lines values none encoded evaluated
    have some : Batch.size ⟨lines⟩ ≠ 0 := by
      rw [Batch.size, ← (encodeRows_ok encoded).length_eq]
      simpa using none
    exact ⟨ended, perform_feed some patterns there run succeeded, holds⟩

theorem perform_tally {values : List Value}
    (holds : Holds host output (resultFile values) world) :
    perform (tally host output values.length) ⟨session, world⟩ =
      (.ok (), ⟨session.counted values.length, (host.read output world).2⟩) := by
  rw [tally, perform_bind_ok (perform_readResults session holds), List.length_map, if_pos rfl]
  rfl

theorem perform_simulate {values : List Value} {fed : World}
    (compiled : session.program = some program)
    (feeding : perform (feed host program input output session.batch) ⟨session, world⟩ =
      (.ok (), ⟨session, fed⟩))
    (holds : Holds host output (resultFile values) fed)
    (counted : session.batch.size = values.length) :
    perform (simulate host input output) ⟨session, world⟩ =
      (.ok (), ⟨session.counted values.length, (host.read output fed).2⟩) := by
  unfold simulate
  rw [perform_get_bind]
  simp only [compiled]
  rw [perform_bind_ok feeding, counted, perform_tally holds]

theorem perform_runPending {directory : Path} {after : Standing Session World}
    (known : session.workDirectory? = some directory)
    (simulated : perform (simulate host (session.config.patternPath directory)
      (session.config.resultPath directory)) ⟨session, world⟩ = (.ok (), after)) :
    perform (runPending host) ⟨session, world⟩ =
      (.ok (session.config.resultPath directory), after) := by
  unfold runPending
  rw [perform_bind_ok (perform_workDirectory known), perform_get_bind, perform_bind_ok simulated]
  rfl

/-- The waiting rows run in the session's own files, and the result file holds the cells of their
values. -/
theorem runPending_served (session : Session) {directory : Path}
    (serves : Serves host formula columns (session.config.programPath directory)
      (session.config.patternPath directory) (session.config.resultPath directory) world)
    {rows : List Row} {lines : List (List String)} {values : List Value}
    (known : session.workDirectory? = some directory)
    (compiled : session.program = some (session.config.programPath directory))
    (encoded : encodeRows columns 0 rows = .ok lines)
    (evaluated : formula.evaluateRows rows = .ok values) (waiting : session.batch = ⟨lines⟩) :
    ∃ after, perform (runPending host) ⟨session, world⟩ =
        (.ok (session.config.resultPath directory),
          ⟨session.counted values.length, after⟩) ∧
      Holds host (session.config.resultPath directory) (resultFile values) after := by
  have counted : session.batch.size = values.length := by
    rw [waiting, Batch.size, ← (encodeRows_ok encoded).length_eq,
      (Formula.evaluateFrom_ok evaluated).length_eq]
  obtain ⟨fed, feeding, holds⟩ := feed_served session serves encoded evaluated
  rw [← waiting] at feeding
  exact ⟨_, perform_runPending known (perform_simulate compiled feeding holds counted),
    holds.again⟩

end Running

end Formulary.Session
