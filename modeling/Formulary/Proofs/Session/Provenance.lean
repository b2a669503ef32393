import Formulary.Proofs.Session.Bench

/-! The files that a session trusts. A session that accepts a program or results has run one
command, and finds the file that the command was to write. It does not know who wrote the file:
the command has, or the file was there when the command was started and is as it was. -/
namespace Formulary.Session

variable {World : Type}

/-- Who wrote the files of a world. Commands are numbered in the order in which they are
started, and a file that is there has an author. -/
structure Provenance (host : Host (StateM World)) where
  commands : World → Nat
  author? : World → Path → Option Author
  makeScratch (world : World) :
    let after := (host.makeScratch world).2
    commands after = commands world ∧ author? after = author? world
  write (path : Path) (text : String) (world : World) :
    let after := (host.write path text world).2
    commands after = commands world ∧ ∀ other, other ≠ path →
      author? after other = author? world other
  isThere (path : Path) (world : World) :
    let outcome := host.isThere path world
    commands outcome.2 = commands world ∧ author? outcome.2 = author? world ∧
      (outcome.1 = true → (author? world path).isSome)
  read (path : Path) (world : World) :
    let outcome := host.read path world
    commands outcome.2 = commands world ∧ author? outcome.2 = author? world ∧
      ∀ content, outcome.1 = .ok (.ok content) → (author? world path).isSome
  /-- A command leaves the files that it does not write as they are, or removes them. -/
  run (program : Path) (arguments : List String) (world : World) :
    let after := (host.run program arguments world).2
    commands after = commands world + 1 ∧ ∀ path author, author? after path = some author →
      author = .command (commands after) ∨ author? world path = some author

variable {host : Host (StateM World)}

/-- One command was started between two worlds, and has written the file, or else has left it
as it was. -/
def Provenance.Attests (provenance : Provenance host) (before after : World) (path : Path) :
    Prop :=
  provenance.commands after = provenance.commands before + 1 ∧
    ∃ author, provenance.author? after path = some author ∧
      (author = .command (provenance.commands after) ∨
        provenance.author? before path = some author)

end Formulary.Session

namespace Formulary.Bench

/-- The files of a bench have the authors that it notes. -/
def provenance (tool : Path → List String → Bench → Effect) :
    Session.Provenance (host tool) where
  commands := Bench.commands
  author? bench path := (bench.files path).map Deposit.author
  makeScratch bench := ⟨rfl, rfl⟩
  write path text bench := by
    refine ⟨rfl, fun other apart => ?_⟩
    exact congrArg (Option.map Deposit.author) (files_put_other apart)
  isThere path bench := ⟨rfl, rfl, by simp [host]⟩
  read path bench := by
    cases found : bench.files path with
    | none => simp [host, found]
    | some deposit => simp [host, found]
  run program arguments bench := by
    refine ⟨commands_puts _, fun path author known => ?_⟩
    obtain ⟨deposit, found, rfl⟩ := Option.map_eq_some_iff.mp known
    rcases files_puts found with fresh | old
    · refine .inl (fresh.trans ?_)
      exact congrArg Author.command (commands_puts _).symm
    · exact .inr (congrArg (Option.map Deposit.author) old)

end Formulary.Bench

namespace Formulary.Session

variable {World : Type} {host : Host (StateM World)}

section Inversion

variable {α β : Type} {standing after : Standing Session World}

theorem perform_orFail_inv {cause : OsFault → Error} {action : StateM World (Except OsFault α)}
    {value : α} (done : perform (orFail cause action) standing = (.ok value, after)) :
    action standing.world = (.ok value, after.world) ∧ after.state = standing.state := by
  obtain ⟨outcome, middle, asked, rest⟩ := perform_bind_inv done
  obtain ⟨answered, same⟩ := perform_host_inv asked
  cases outcome with
  | error fault => cases rest
  | ok result =>
    cases rest
    exact ⟨answered, same⟩

/-- Everything that happens in a compilation that is accepted. -/
theorem compile_ok (done : perform (compile host) standing = (.ok (), after)) :
    ∃ source directory entered completion ended,
      standing.state.source = some source ∧
      perform (workDirectory host) standing = (.ok directory, entered) ∧
      host.run entered.state.config.compiler
        (entered.state.config.compileArguments source
          (entered.state.config.programPath directory)) entered.world =
        (.ok completion, ended) ∧
      completion.succeeded = true ∧
      host.isThere (entered.state.config.programPath directory) ended = (true, after.world) ∧
      after.state = entered.state.compiled directory := by
  unfold compile at done
  rw [perform_get_bind] at done
  split at done
  · cases done
  · rename_i source known
    obtain ⟨directory, entered, entering, done⟩ := perform_bind_inv done
    rw [perform_get_bind] at done
    obtain ⟨completion, ended, running, done⟩ := perform_bind_inv done
    obtain ⟨run, same⟩ := perform_orFail_inv running
    dsimp only at done
    split at done
    · rename_i succeeded
      obtain ⟨there, found, looking, done⟩ := perform_bind_inv done
      obtain ⟨looked, kept⟩ := perform_host_inv looking
      cases there with
      | false => cases done
      | true =>
        cases done
        rw [same] at kept
        refine ⟨source, directory, entered, completion, ended.world, known, entering, run,
          succeeded, looked, ?_⟩
        rw [← kept]
        rfl
    · cases done

theorem execute_ok {program input output : Path}
    (done : perform (execute host program input output) standing = (.ok (), after)) :
    ∃ found completion, host.isThere program standing.world = (true, found) ∧
      host.run program [input.text, output.text] found = (.ok completion, after.world) ∧
      completion.succeeded = true := by
  unfold execute at done
  obtain ⟨there, found, looking, done⟩ := perform_bind_inv done
  obtain ⟨looked, _⟩ := perform_host_inv looking
  cases there with
  | false => cases done
  | true =>
    obtain ⟨completion, ended, running, done⟩ := perform_bind_inv done
    obtain ⟨run, _⟩ := perform_orFail_inv running
    split at done
    · rename_i succeeded
      cases done
      exact ⟨found.world, completion, looked, run, succeeded⟩
    · cases done

theorem readResults_ok {path : Path} {lines : List String}
    (done : perform (readResults host path) standing = (.ok lines, after)) :
    ∃ content, host.read path standing.world = (.ok (.ok content), after.world) := by
  unfold readResults readFile at done
  obtain ⟨content, middle, reading, done⟩ := perform_bind_inv done
  obtain ⟨result, opened, opening, reading⟩ := perform_bind_inv reading
  obtain ⟨answered, _⟩ := perform_orFail_inv opening
  cases result with
  | error fault => cases reading
  | ok bytes =>
    cases reading
    rw [perform_except] at done
    obtain ⟨_, rfl⟩ := Prod.mk.inj done
    exact ⟨content, answered⟩

/-- Results that are counted have been read, and are as many as the rows. -/
theorem tally_ok {output : Path} {rows : Nat}
    (done : perform (tally host output rows) standing = (.ok (), after)) :
    ∃ content lines, host.read output standing.world = (.ok (.ok content), after.world) ∧
      linesOf output content = .ok lines ∧ lines.length = rows := by
  obtain ⟨lines, read, reading, done⟩ := perform_bind_inv done
  obtain ⟨content, found⟩ := readResults_ok reading
  obtain ⟨listed, _⟩ := Prod.mk.inj ((readResults_eq_linesOf _ found).symm.trans reading)
  dsimp only at done
  split at done
  · rename_i same
    cases done
    exact ⟨content, lines, found, listed, same⟩
  · cases done

/-- Everything that happens in a simulation of some rows that is accepted. -/
theorem simulate_ok {input output : Path} (waiting : standing.state.batch.size ≠ 0)
    (done : perform (simulate host input output) standing = (.ok (), after)) :
    ∃ program started found completion ended content,
      standing.state.program = some program ∧
      host.write input standing.state.batch.text standing.world = (.ok (), started) ∧
      host.isThere program started = (true, found) ∧
      host.run program [input.text, output.text] found = (.ok completion, ended) ∧
      completion.succeeded = true ∧
      host.read output ended = (.ok (.ok content), after.world) := by
  unfold simulate at done
  rw [perform_get_bind] at done
  split at done
  · cases done
  · rename_i program compiled
    obtain ⟨_, ended, feeding, counting⟩ := perform_bind_inv done
    obtain ⟨_, started, writing, executing⟩ := perform_bind_inv feeding
    obtain ⟨written, _⟩ := perform_orFail_inv writing
    rw [if_neg waiting] at executing
    obtain ⟨found, completion, there, run, succeeded⟩ := execute_ok executing
    obtain ⟨content, _, read, _⟩ := tally_ok counting
    exact ⟨program, started.world, found, completion, ended.world, content, compiled, written,
      there, run, succeeded, read⟩

end Inversion

namespace Provenance

variable (provenance : Provenance host) {world started ended found : World} {path : Path}

/-- Commands and authors are the same. -/
def Same (before after : World) : Prop :=
  provenance.commands after = provenance.commands before ∧
    provenance.author? after = provenance.author? before

theorem same_workDirectory {standing entered : Standing Session World} {directory : Path}
    (entering : perform (workDirectory host) standing = (.ok directory, entered)) :
    provenance.Same standing.world entered.world := by
  unfold workDirectory at entering
  rw [perform_get_bind] at entering
  split at entering
  · cases entering
    exact ⟨rfl, rfl⟩
  · obtain ⟨made, middle, making, entering⟩ := perform_bind_inv entering
    obtain ⟨answered, _⟩ := perform_orFail_inv making
    cases entering
    have kept := provenance.makeScratch standing.world
    rw [answered] at kept
    exact kept

/-- A file that is there once a command has ended. -/
theorem attests_of_run {program : Path} {arguments : List String}
    {result : Except OsFault Completion} {before after : World}
    (same : provenance.Same before started)
    (run : host.run program arguments started = (result, ended))
    (there : (provenance.author? ended path).isSome) (kept : provenance.Same ended after) :
    provenance.Attests before after path := by
  obtain ⟨counted, authors⟩ := provenance.run program arguments started
  rw [run] at counted authors
  obtain ⟨author, known⟩ := Option.isSome_iff_exists.mp there
  refine ⟨?_, author, ?_, ?_⟩
  · rw [kept.1, counted, same.1]
  · rw [kept.2, known]
  · rw [kept.1, ← same.2]
    exact authors path author known

/-- A file that was not there is the work of the command. -/
theorem Attests.fresh {provenance : Provenance host} {before after : World}
    (attested : provenance.Attests before after path)
    (absent : provenance.author? before path = none) :
    provenance.author? after path = some (.command (provenance.commands before + 1)) := by
  obtain ⟨counted, author, known, fresh | old⟩ := attested
  · rw [known, fresh, counted]
  · rw [absent] at old
    cases old

end Provenance

/-- A session accepts a program only after it has run one command, and with a file at the
program's path; likewise for the results of some rows. The file is the command's work, unless
it was there when the command was started and the command has left it alone. -/
theorem accepted_files {World : Type} (host : Host (StateM World)) (provenance : Provenance host)
    (standing after : Standing Session World) :
    (perform (compile host) standing = (.ok (), after) →
      ∃ program, after.state.program = some program ∧
        provenance.Attests standing.world after.world program) ∧
    (∀ input output, standing.state.batch.size ≠ 0 →
      perform (simulate host input output) standing = (.ok (), after) →
      ∃ started, host.write input standing.state.batch.text standing.world = (.ok (), started) ∧
        provenance.Attests started after.world output ∧
        (output ≠ input → provenance.Attests standing.world after.world output)) := by
  refine ⟨fun done => ?_, fun input output waiting done => ?_⟩
  · obtain ⟨source, directory, entered, completion, ended, _, entering, run, _, there, compiled⟩ :=
      compile_ok done
    obtain ⟨counted, authors, found⟩ :=
      provenance.isThere (entered.state.config.programPath directory) ended
    rw [there] at counted authors found
    refine ⟨_, by rw [compiled]; rfl, ?_⟩
    exact provenance.attests_of_run (provenance.same_workDirectory entering) run (found rfl)
      ⟨counted, authors⟩
  · obtain ⟨program, started, found, completion, ended, content, _, written, there, run, _, read⟩ :=
      simulate_ok waiting done
    obtain ⟨looked, seen, _⟩ := provenance.isThere program started
    rw [there] at looked seen
    obtain ⟨counted, authors, readable⟩ := provenance.read output ended
    rw [read] at counted authors readable
    have attested : provenance.Attests started after.world output :=
      provenance.attests_of_run ⟨looked, seen⟩ run (readable content rfl) ⟨counted, authors⟩
    refine ⟨started, written, attested, fun apart => ?_⟩
    obtain ⟨same, others⟩ := provenance.write input standing.state.batch.text standing.world
    rw [written] at same others
    unfold Provenance.Attests at attested ⊢
    rwa [same, others output apart] at attested

/-- Neither the program nor the results were there before. -/
theorem accepted_files_copied :
    let host := Bench.host Bench.copyist
    let provenance := Bench.provenance Bench.copyist
    let config := Bench.workshop ⟨"work"⟩
    let start : Standing Session Bench :=
      ⟨{ Session.new config with source := some ⟨"f.rs"⟩, batch := ⟨[["1"], ["0"]]⟩ },
        ⟨fun _ => none, 0⟩⟩
    ∃ built ran, perform (compile host) start = (.ok (), built) ∧
      provenance.author? built.world (config.programPath ⟨"work"⟩) = some (.command 1) ∧
      perform (simulate host ⟨"in"⟩ ⟨"out"⟩) built = (.ok (), ran) ∧
      provenance.author? ran.world ⟨"out"⟩ = some (.command 2) := by
  intro host provenance config start
  let built : Standing Session Bench := ⟨start.state.compiled ⟨"work"⟩, start.world.built ⟨"work"⟩⟩
  have compiled : perform (compile host) start = (.ok (), built) := Bench.compile_built rfl rfl
  have unmasked : ∀ width, TermSort.bool ≠ .bitVec width := by simp
  have serves : Serves host (.lone "a" .bool) ⟨[⟨"a", "v_a", .bool⟩]⟩
      (config.programPath ⟨"work"⟩) ⟨"in"⟩ ⟨"out"⟩ built.world :=
    Bench.built_serves unmasked start.world ⟨"work"⟩ _ _
  let rows := [Row.empty.insert "a" (.bool true), Row.empty.insert "a" (.bool false)]
  have encoded : encodeRows ⟨[⟨"a", "v_a", .bool⟩]⟩ 0 rows = .ok [["1"], ["0"]] := by cbv
  have evaluated : (Formula.lone "a" .bool).evaluateRows rows =
      .ok [.bool true, .bool false] := by cbv
  have known : built.state.program = some (config.programPath ⟨"work"⟩) := rfl
  obtain ⟨fed, feeding, holds⟩ := feed_served built.state serves encoded evaluated
  have ran := perform_simulate known feeding holds rfl
  obtain ⟨program, same, attestedProgram⟩ := (accepted_files host provenance start built).1 compiled
  cases same
  obtain ⟨_, _, _, attestedResults⟩ :=
    (accepted_files host provenance built _).2 _ _ (by decide) ran
  refine ⟨built, _, compiled, attestedProgram.fresh rfl, ran, ?_⟩
  exact (attestedResults (by decide)).fresh (by decide +kernel)

/-- A compiler that ends well and writes nothing is believed: the second command of the bench is
taken to have made the program of the first. -/
theorem old_program_accepted :
    let idle : Path → List String → Bench → Effect := fun _ _ _ => ⟨.ok ⟨some 0, "", ""⟩, []⟩
    let config := Bench.workshop ⟨"work"⟩
    let program := config.programPath ⟨"work"⟩
    let old : Bench := Bench.put (.command 1) ⟨fun _ => none, 1⟩ (program, "")
    let outcome := perform (compile (Bench.host idle))
      ⟨{ Session.new config with source := some ⟨"f.rs"⟩ }, old⟩
    outcome.1 = .ok () ∧ outcome.2.state.program = some program ∧
      (Bench.provenance idle).commands outcome.2.world = 2 ∧
      (Bench.provenance idle).author? outcome.2.world program = some (.command 1) := by
  intro idle config program old outcome
  let left : Bench := { old with commands := 2 }
  have kept : left.files program = some ⟨"", .command 1⟩ := if_pos rfl
  have there : (Bench.host idle).isThere program left = (true, left) :=
    Prod.ext (congrArg Option.isSome kept) rfl
  have accepted : outcome = (.ok (), ⟨_, left⟩) := perform_compile rfl rfl rfl rfl there
  rw [accepted]
  exact ⟨rfl, rfl, rfl, congrArg (Option.map Deposit.author) kept⟩

end Formulary.Session
