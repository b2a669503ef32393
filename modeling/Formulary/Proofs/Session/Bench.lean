import Formulary.Host.Rehearsal
import Formulary.Proofs.Session.Service

namespace Formulary

/-- Who wrote a file. -/
inductive Author where
  | command (number : Nat)
  | other
deriving DecidableEq

structure Deposit where
  text : String
  author : Author
deriving DecidableEq

structure Bench where
  files : Path → Option Deposit
  commands : Nat

/-- How a command ends, and what it writes. -/
structure Effect where
  ended : Except OsFault Completion
  written : List (Path × String)

namespace Bench

def put (author : Author) (bench : Bench) (file : Path × String) : Bench :=
  { bench with
    files := fun path => if path = file.1 then some ⟨file.2, author⟩ else bench.files path }

/-- Files can always be written, and those that are there can be read. -/
def host (tool : Path → List String → Bench → Effect) : Host (StateM Bench) where
  createDirectories _ bench := (.ok (), bench)
  makeTemporary directory bench := (.ok (directory.join ⟨"temporary"⟩), bench)
  persist _ text path bench := (.ok (), bench.put .other (path, text))
  write path text bench := (.ok (), bench.put .other (path, text))
  read path bench :=
    match bench.files path with
    | some deposit => (.ok (.ok (.ofText deposit.text)), bench)
    | none => (.error .missing, bench)
  isThere path bench := ((bench.files path).isSome, bench)
  run program arguments bench :=
    let effect := tool program arguments bench
    let counted := { bench with commands := bench.commands + 1 }
    (effect.ended, effect.written.foldl (put (.command counted.commands)) counted)
  scratchRoot := ⟨"/tmp"⟩
  makeScratch bench := (.ok ⟨"/tmp/scratch"⟩, bench)
  removeScratch _ bench := ((), bench)
  key bench := (.ofSeed 0, bench)

variable {bench : Bench} {author : Author} {file : Path × String}

@[simp] theorem files_put_self : (bench.put author file).files file.1 = some ⟨file.2, author⟩ :=
  if_pos rfl

theorem files_put_other {path : Path} (apart : path ≠ file.1) :
    (bench.put author file).files path = bench.files path := if_neg apart

theorem files_put_isSome {path : Path} (there : (bench.files path).isSome = true) :
    ((bench.put author file).files path).isSome = true := by
  unfold put
  dsimp only
  split
  · rfl
  · exact there

/-- Once a command has written its files, a file is its work or was there before. -/
theorem files_puts {written : List (Path × String)} {path : Path} {deposit : Deposit}
    (found : (written.foldl (put author) bench).files path = some deposit) :
    deposit.author = author ∨ bench.files path = some deposit := by
  induction written generalizing bench with
  | nil => exact .inr found
  | cons file rest ih =>
    rcases ih found with fresh | old
    · exact .inl fresh
    · by_cases here : path = file.1
      · subst here
        rw [files_put_self] at old
        cases old
        exact .inl rfl
      · rw [files_put_other here] at old
        exact .inr old

theorem commands_puts (written : List (Path × String)) :
    (written.foldl (put author) bench).commands = bench.commands := by
  induction written generalizing bench with
  | nil => rfl
  | cons file rest ih => exact ih

/-- The tools of a bench on which an evaluator copies the rows of a pattern file. -/
def copyist (program : Path) (arguments : List String) (bench : Bench) : Effect :=
  let done : Completion := ⟨some 0, "", ""⟩
  if program = SessionConfig.default.compiler then
    ⟨.ok done, ((Rehearsal.outputArgument arguments).map fun target => (⟨target⟩, "")).toList⟩
  else
    match arguments with
    | [input, output] =>
      match bench.files ⟨input⟩ with
      | some patterns =>
        let rows := (patterns.text.toList.dropWhile (· ≠ '\n')).tail
        ⟨.ok done, [(⟨output⟩, String.ofList rows)]⟩
      | none => ⟨.error .missing, []⟩
    | _ => ⟨.error .invalid, []⟩

end Bench

def Formula.lone (name : String) (sort : TermSort) : Formula where
  arena := Arena.empty.push ⟨.symbol name, [], sort⟩
  root := 0
  ordered := Arena.push_ordered Arena.empty_ordered nofun
  rooted := Nat.one_pos

section Lone

variable {name identifier : String} {sort : TermSort} {type : NativeType} {row : Row}

theorem Formula.lone_evaluateAt (index : Nat) :
    (lone name sort).evaluateAt row index =
      Node.typedValue ⟨.symbol name, [], sort⟩ row index [] := by
  have found : (lone name sort).arena.node? 0 = some ⟨.symbol name, [], sort⟩ := rfl
  rw [evaluateAt_eq]
  exact Arena.valueAt_found found

/-- The cell of a symbol is that of its value, unless a bit-vector has bits to spare. -/
theorem Formula.lone_cells (unmasked : ∀ width, sort ≠ .bitVec width) {index : Nat}
    {line : List String} {value : Value}
    (encoded : row.cells index ⟨[⟨name, identifier, type⟩]⟩ = .ok line)
    (evaluated : (lone name sort).evaluate row = .ok value) : line = [value.cell] := by
  have cells := mapM_ok.mp encoded
  obtain ⟨cell, _, fine, rest, rfl⟩ := List.forall₂_cons_left_iff.mp cells
  cases rest
  obtain ⟨literal, stored, _, rfl⟩ := Row.cell_ok fine
  have typed : literal.sort = sort ∧ value = .ofLiteral literal := by
    rw [evaluate, lone_evaluateAt, Node.typedValue] at evaluated
    split at evaluated
    · cases evaluated
    · simp only [Node.value, Row.value, stored] at evaluated
      split at evaluated
      · rename_i same
        exact ⟨same, (Except.ok.inj evaluated).symm⟩
      · cases evaluated
  obtain ⟨same, rfl⟩ := typed
  cases literal with
  | bitVec bits width => exact absurd same.symm (unmasked width)
  | bool | int | real => rfl

theorem Formula.lone_lines (unmasked : ∀ width, sort ≠ .bitVec width) {rows : List Row}
    {lines : List (List String)} {values : List Value}
    (encoded : encodeRows ⟨[⟨name, identifier, type⟩]⟩ 0 rows = .ok lines)
    (evaluated : (lone name sort).evaluateRows rows = .ok values) :
    lines = values.map fun value => [value.cell] := by
  have cells := encodeRows_ok encoded
  have each := evaluateFrom_ok evaluated
  clear encoded evaluated
  induction each generalizing lines with
  | nil =>
    cases cells
    rfl
  | cons value _ ih =>
    obtain ⟨line, rest, ⟨index, here⟩, later, rfl⟩ := List.forall₂_cons_left_iff.mp cells
    rw [List.map_cons, ← ih later, lone_cells unmasked here value]

end Lone

namespace Bench

theorem rows_of_patterns (cells : List String) :
    ((Batch.text ⟨cells.map fun cell => [cell]⟩).toList.dropWhile (· ≠ '\n')).tail =
      (Text.page cells).toList := by
  have count : ∀ letter ∈ (toString cells.length).toList, (letter ≠ '\n' : Bool) = true := by
    intro letter member
    have graphic := (Text.isSolid_number cells.length).2 letter member
    simpa using (Text.isPlain_of_isGraphic graphic).2.1
  have lines : (cells.map fun cell => [cell]).map (fun row => String.intercalate " " row ++ "\n") =
      cells.map (· ++ "\n") := by
    rw [List.map_map]
    rfl
  rw [Batch.text, Batch.size, List.length_map, lines, String.toList_append, String.toList_append,
    List.append_assoc, List.dropWhile_append_of_pos count]
  rfl

section Files

variable {tool : Path → List String → Bench → Effect} {bench : Bench} {path : Path}
variable {deposit : Deposit}

theorem read_found (found : bench.files path = some deposit) :
    (host tool).read path bench = (.ok (.ok (.ofText deposit.text)), bench) := by
  unfold host
  dsimp only
  rw [found]

theorem read_keeps (bench : Bench) (path : Path) :
    ((host tool).read path bench).2 = bench := by
  unfold host
  dsimp only
  split <;> rfl

theorem holds_found (found : bench.files path = some deposit) :
    Session.Holds (host tool) path (.ofText deposit.text) bench := by
  intro times
  induction times with
  | zero => rw [Session.afterReading, read_found found]
  | succ times ih => rwa [Session.afterReading, read_found found]

theorem holds_put (author : Author) (bench : Bench) (path : Path) (text : String) :
    Session.Holds (host tool) path (.ofText text) (bench.put author (path, text)) := by
  have found : (bench.put author (path, text)).files path = some ⟨text, author⟩ := files_put_self
  exact holds_found found

end Files

theorem copyist_serves {name identifier : String} {sort : TermSort} {type : NativeType}
    (unmasked : ∀ width, sort ≠ .bitVec width) {program : Path} {bench : Bench}
    (there : (bench.files program).isSome = true)
    (compiled : program ≠ SessionConfig.default.compiler) (input output : Path) :
    Session.Serves (host copyist) (.lone name sort) ⟨[⟨name, identifier, type⟩]⟩ program input
      output bench where
  runs := by
    intro rows lines values _ encoded evaluated
    have cells : lines = (values.map Value.cell).map fun cell => [cell] := by
      rw [Formula.lone_lines unmasked encoded evaluated, List.map_map]
      rfl
    let written := bench.put .other (input, Batch.text ⟨lines⟩)
    let counted : Bench := { written with commands := written.commands + 1 }
    let results := (output, Text.page (values.map Value.cell))
    have copied : copyist program [input.text, output.text] written =
        ⟨.ok ⟨some 0, "", ""⟩, [results]⟩ := by
      have patterns : written.files ⟨input.text⟩ = some ⟨Batch.text ⟨lines⟩, .other⟩ :=
        files_put_self
      simp only [copyist, compiled, if_false, patterns]
      rw [cells, rows_of_patterns, String.ofList_toList]
    have ran : (host copyist).run program [input.text, output.text] written =
        (.ok ⟨some 0, "", ""⟩, counted.put (.command counted.commands) results) := by
      unfold host
      dsimp only
      rw [copied]
      rfl
    refine ⟨written, written, _, _, rfl, ?_, ran, rfl, holds_put _ _ _ _⟩
    exact Prod.ext (files_put_isSome there) rfl
  empties :=
    ⟨bench.put .other (input, Batch.empty.text), _, rfl, rfl, holds_put _ _ _ _⟩

section Workshop

open Session

/-- Sessions on a bench work in a directory of their own. -/
def workshop (directory : Path) : SessionConfig :=
  { SessionConfig.default with workDirectory := some directory }

variable {session : Session} {bench : Bench} {directory : Path}

theorem generate_written {tool : Path → List String → Bench → Effect} {formula : Formula}
    {program : Code.Program} (settings : session.config = workshop directory)
    (made : formula.program = .ok program) :
    perform (generate (host tool) formula) ⟨session, bench⟩ =
      (.ok program.columns,
        ⟨session.generated program.columns ((workshop directory).sourcePath directory),
          bench.put .other ((workshop directory).sourcePath directory, program.source)⟩) := by
  have known : session.workDirectory? = some directory := by
    rw [workDirectory?, settings]
    rfl
  unfold generate
  rw [perform_bind_ok (perform_workDirectory known), perform_get_bind, settings]
  unfold generateTo
  rw [made, perform_bind_ok (perform_except _ _)]
  rfl

/-- The bench after a compilation. -/
def built (bench : Bench) (directory : Path) : Bench :=
  let counted : Bench := { bench with commands := bench.commands + 1 }
  counted.put (.command counted.commands) ((workshop directory).programPath directory, "")

theorem compile_built {source : Path} (settings : session.config = workshop directory)
    (known : session.source = some source) :
    perform (compile (host copyist)) ⟨session, bench⟩ =
      (.ok (), ⟨session.compiled directory, bench.built directory⟩) := by
  have entered : session.workDirectory? = some directory := by
    rw [workDirectory?, settings]
    rfl
  have ran : (host copyist).run (workshop directory).compiler
      ((workshop directory).compileArguments source ((workshop directory).programPath directory))
      bench = (.ok ⟨some 0, "", ""⟩, bench.built directory) := rfl
  have there : (host copyist).isThere ((workshop directory).programPath directory)
      (bench.built directory) = (true, bench.built directory) :=
    Prod.ext (congrArg Option.isSome files_put_self) rfl
  rw [← settings] at ran there
  exact perform_compile known entered ran rfl there

theorem length_le_join (outer inner : Path) :
    inner.text.length ≤ (outer.join inner).text.length := by
  unfold Path.join
  split
  · exact Nat.le_refl _
  · split
    · simp only [String.length_append, Nat.le_add_left]
    · simp only [String.length_append, Nat.le_add_left]

theorem programPath_ne_compiler (directory : Path) :
    (workshop directory).programPath directory ≠ SessionConfig.default.compiler := by
  intro same
  have long : 12 ≤ ((workshop directory).programPath directory).text.length :=
    length_le_join directory ⟨"formula_eval"⟩
  have short : SessionConfig.default.compiler.text.length = 5 := rfl
  rw [same, short] at long
  omega

/-- The copyist serves a session that has compiled a formula of one symbol. -/
theorem built_serves {name identifier : String} {sort : TermSort} {type : NativeType}
    (unmasked : ∀ width, sort ≠ .bitVec width) (bench : Bench) (directory input output : Path) :
    Serves (host copyist) (.lone name sort) ⟨[⟨name, identifier, type⟩]⟩
      ((workshop directory).programPath directory) input output (bench.built directory) := by
  have there : ((bench.built directory).files
      ((workshop directory).programPath directory)).isSome = true :=
    congrArg Option.isSome files_put_self
  exact copyist_serves unmasked there (programPath_ne_compiler directory) input output

end Workshop

end Bench

end Formulary
