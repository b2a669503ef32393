import Formulary.Proofs.Code.Definitions
import Formulary.Proofs.Code.Formation

/-! Evaluator programs compute what evaluation does. A definition is run from its text: the lines
are read one by one, each declaration puts a name in scope, and the last line gives the result. -/
namespace Formulary

namespace Code

section Running

variable (real? : String → Option Float)

def readValue (environment : Environment) (letters : List Char) : Option Value := do
  (← (← readTerm letters).meaning real? environment).value?

/-- A declaration puts a value of the declared type in scope. -/
def runLine (environment : Environment) (line : String) : Option Environment := do
  let (declared, term) ← readDeclaration (← scan line.toList)
  let value ← (← term.meaning real? environment).value?
  if value.native = declared.type then some ((declared.name, value) :: environment) else none

/-- Declarations, a result of the given type, and a closing brace. -/
def runBody (type : NativeType) : Environment → List String → Option Value
  | environment, [result, last] => do
    let value ← readValue real? environment result.toList
    if last = "\x7d" ∧ value.native = type then some value else none
  | environment, line :: rest => do runBody type (← runLine real? environment line) rest
  | _, [] => none

def bindArguments : List Parameter → List Value → Option Environment
  | [], [] => some []
  | parameter :: parameters, value :: values => do
    let rest ← bindArguments parameters values
    if value.native = parameter.type then some ((parameter.name, value) :: rest) else none
  | _, _ => none

def runDefinition : List String → List Value → Option Value
  | "" :: first :: body, arguments => do
    let signature ← Signature.read (← scan first.toList)
    runBody real? signature.result (← bindArguments signature.parameters arguments) body
  | _, _ => none

def Function.run (function : Function) (row : Row) : Option Value := do
  let arguments ← function.columns.list.mapM fun column =>
    (row.get? column.name).map Value.ofLiteral
  runDefinition real? function.definition arguments

end Running

/-- Two letters are enough to see that a word is none of the language. -/
theorem isName_of_letters {text : String} {first second : Char} {rest : List Char}
    (letters : text.toList = first :: second :: rest)
    (starts : (!first.isDigit && isWordLetter first && isWordLetter second) = true)
    (other : (first, second) ∉ [('i', 'f'), ('t', 'r'), ('f', 'a')])
    (belong : ∀ letter ∈ rest, isWordLetter letter = true) : IsName text := by
  simp only [Bool.and_eq_true] at starts
  refine ⟨⟨?_, ?_⟩, fun member => other ?_⟩
  · rw [letters]
    exact starts.1.1
  · rw [letters, List.all_cons, List.all_cons, starts.1.2, starts.2]
    exact List.all_eq_true.mpr belong
  · simp only [List.mem_cons, List.not_mem_nil, or_false] at member
    rcases member with rfl | rfl | rfl
    all_goals
      simp at letters
      simp [← letters.1, ← letters.2.1]

theorem isName_identifierOf (name : String) : IsName (identifierOf name) := by
  refine isName_of_letters (String.toList_append.trans rfl) (by decide) (by decide) ?_
  intro letter member
  rw [String.toList_map] at member
  obtain ⟨original, _, rfl⟩ := List.mem_map.mp member
  split
  · rename_i kept
    exact kept
  · decide

theorem isWordLetter_of_mem_toDigits {number : Nat} {letter : Char}
    (member : letter ∈ Nat.toDigits 10 number) : isWordLetter letter = true :=
  isWordLetter_of_isDigit (Nat.isDigit_of_mem_toDigits (by decide) (by decide) member)

theorem temporaryStem_letters (type : NativeType) :
    ∃ first second rest, type.temporaryStem.toList = first :: second :: rest ∧
      (!first.isDigit && isWordLetter first && isWordLetter second) = true ∧
      (first, second) ∉ [('i', 'f'), ('t', 'r'), ('f', 'a')] ∧
      ∀ letter ∈ rest, isWordLetter letter = true := by
  cases type with
  | bool =>
    exact ⟨'b', 'o', ['o', 'l'], rfl, by decide, by decide, List.all_eq_true.mp (by decide)⟩
  | int => exact ⟨'i', 'n', ['t'], rfl, by decide, by decide, List.all_eq_true.mp (by decide)⟩
  | real =>
    exact ⟨'r', 'e', ['a', 'l'], rfl, by decide, by decide, List.all_eq_true.mp (by decide)⟩
  | bitVec width =>
    refine ⟨'b', 'v', Nat.toDigits 10 width ++ ['_'], by simp [NativeType.temporaryStem],
      by decide, by decide, ?_⟩
    exact List.forall_mem_append.mpr
      ⟨fun _ => isWordLetter_of_mem_toDigits, List.all_eq_true.mp (by decide)⟩

theorem Temporary.isName (temporary : Temporary) : IsName temporary.name := by
  obtain ⟨first, second, rest, stem, starts, other, belong⟩ :=
    temporaryStem_letters temporary.type
  have letters : temporary.name.toList =
      first :: second :: (rest ++ Nat.toDigits 10 temporary.number) := by
    simp [Temporary.name, stem]
  refine isName_of_letters letters starts other ?_
  exact List.forall_mem_append.mpr ⟨belong, fun _ => isWordLetter_of_mem_toDigits⟩

theorem Environment.IsNamed.cons {environment : Environment} (named : environment.IsNamed)
    {name : String} (isName : IsName name) (value : Value) :
    Environment.IsNamed ((name, value) :: environment) := by
  intro found held known
  rw [List.lookup_cons] at known
  split at known
  · rename_i same
    rw [beq_iff_eq.mp same]
    exact isName
  · exact named found held known

section Written

open Layout

variable {real? : String → Option Float} {environment after : Environment}

theorem scan_indented (text : String) : scan ("    " ++ text).toList = scan text.toList := by
  rw [String.toList_append]
  rfl

theorem readValue_text (named : environment.IsNamed) {expression : Expression} {value : Value}
    (readable : expression.Readable real?) (known : expression.value environment = some value) :
    readValue real? environment ("    " ++ expression.text).toList = some value := by
  obtain ⟨fits, datum, means, valued⟩ := expression.term_means named readable known
  have read : readTerm ("    " ++ expression.text).toList = some expression.term := by
    rw [readTerm, scan_indented, ← expression.letters_term]
    exact fits.readTerm_letters
  rw [readValue, read]
  simp [means, valued]

theorem Statement.letters_text (statement : Statement) :
    statement.text.toList =
      (declarationLayout ⟨statement.target.name, statement.target.type⟩
        statement.value.term).letters := by
  simp [Statement.text, declarationLayout, Parameter.letters_layout, letters_ofWord, letters_ofMark,
    spaced, Mark.letters, ← Expression.letters_term, Term.letters]

/-- A declaration does as a text what it does as a tree. -/
theorem runLine_text (named : environment.IsNamed) {statement : Statement}
    (readable : statement.value.Readable real?)
    (executed : statement.execute environment = some after) :
    runLine real? environment ("    " ++ statement.text) = some after ∧ after.IsNamed := by
  obtain ⟨value, computed, typed, rfl⟩ := statement.execute_ok executed
  obtain ⟨fits, datum, means, valued⟩ := statement.value.term_means named readable computed
  let declared : Parameter := ⟨statement.target.name, statement.target.type⟩
  have isName := statement.target.isName
  have framed : Framed (declarationLayout declared statement.value.term) _ _ :=
    framed_declaration isName.1 fits
  have read : (scan ("    " ++ statement.text).toList).bind readDeclaration =
      some (declared, statement.value.term) := by
    rw [scan_indented, statement.letters_text, framed.scan]
    exact readDeclaration_tokens fits
  obtain ⟨tokens, scanned, declares⟩ := Option.bind_eq_some_iff.mp read
  refine ⟨?_, named.cons isName value⟩
  rw [runLine, scanned]
  simp [declares, means, valued, typed, declared]

theorem runBody_cons {type : NativeType} {line : String} {rest : List String}
    (ran : runLine real? environment line = some after) (several : 2 ≤ rest.length) :
    runBody real? type environment (line :: rest) = runBody real? type after rest := by
  match rest with
  | first :: second :: rest =>
    change (runLine real? environment line).bind
      (runBody real? type · (first :: second :: rest)) = _
    rw [ran, Option.bind_some]

/-- The declarations of a function lead to the environment in which its result is computed. -/
theorem runBody_statements {type : NativeType} {statements : List Statement}
    (named : environment.IsNamed)
    (readable : ∀ statement ∈ statements, statement.value.Readable real?)
    (executed : executeAll statements environment = some after) (result : String) :
    runBody real? type environment
        (statements.map (fun statement => "    " ++ statement.text) ++ [result, "\x7d"]) =
      runBody real? type after [result, "\x7d"] ∧ after.IsNamed := by
  induction statements generalizing environment with
  | nil =>
    cases executed
    exact ⟨rfl, named⟩
  | cons statement rest ih =>
    rw [executeAll_cons] at executed
    obtain ⟨middle, first, others⟩ := Option.bind_eq_some_iff.mp executed
    rw [List.forall_mem_cons] at readable
    obtain ⟨ran, namedMiddle⟩ := runLine_text named readable.1 first
    obtain ⟨later, namedAfter⟩ := ih namedMiddle readable.2 others
    refine ⟨?_, namedAfter⟩
    rw [← later]
    exact runBody_cons ran (by simp)

/-- The parameters of a function are its columns. -/
def Function.signature (function : Function) : Signature :=
  ⟨function.columns.list.map fun column => ⟨column.identifier, column.type⟩, function.result.type⟩

theorem Function.definition_eq (function : Function) :
    ∃ first, first.toList = function.signature.layout.letters ∧
      function.definition = "" :: first ::
        (function.statements.map (fun statement => "    " ++ statement.text) ++
          ["    " ++ function.result.expression.text, "\x7d"]) := by
  refine ⟨_, ?_, rfl⟩
  simp [Function.signature, Signature.layout, letters_ofWord, letters_ofMark, letters_typeLayout,
    letters_listed, Parameter.letters_layout, spaced, Mark.letters, Function.comp_def]

theorem bindArguments_columns {row : Row} {columns : List Column} {arguments : Environment}
    (isName : ∀ column ∈ columns, IsName column.identifier)
    (made : columns.mapM (argumentOf row) = some arguments) :
    (∃ values, columns.mapM (fun column => (row.get? column.name).map Value.ofLiteral) =
        some values ∧
      bindArguments (columns.map fun column => ⟨column.identifier, column.type⟩) values =
        some arguments) ∧ arguments.IsNamed := by
  induction columns generalizing arguments with
  | nil =>
    cases made
    exact ⟨⟨[], rfl, rfl⟩, nofun⟩
  | cons column rest ih =>
    rw [List.mapM_cons] at made
    obtain ⟨argument, first, more⟩ := Option.bind_eq_some_iff.mp made
    obtain ⟨others, remaining, joined⟩ := Option.bind_eq_some_iff.mp more
    cases joined
    rw [List.forall_mem_cons] at isName
    obtain ⟨⟨values, stored, bound⟩, named⟩ := ih isName.2 remaining
    obtain ⟨literal, found, formed⟩ := Option.bind_eq_some_iff.mp first
    dsimp only at formed
    split at formed
    · rename_i typed
      cases formed
      refine ⟨⟨.ofLiteral literal :: values, ?_, ?_⟩, named.cons isName.1 _⟩
      · simp [List.mapM_cons, found, stored]
      · simp [bindArguments, bound, typed]
    · cases formed

/-- Running the text of a function is executing the function. -/
theorem Function.run_of_execute {function : Function} {row : Row} {value : Value}
    (isName : ∀ column ∈ function.columns.list, IsName column.identifier)
    (readable : ∀ ratio, function.Emits (.literal (.real ratio)) →
      Decimal.ReadsBack real? ratio.toFloat)
    (executed : function.execute row = some value) : function.run real? row = some value := by
  obtain ⟨arguments, made, more⟩ := Option.bind_eq_some_iff.mp executed
  obtain ⟨environment, ran, more⟩ := Option.bind_eq_some_iff.mp more
  obtain ⟨result, computed, formed⟩ := Option.bind_eq_some_iff.mp more
  obtain ⟨⟨values, stored, bound⟩, named⟩ := bindArguments_columns isName made
  obtain ⟨first, letters, definition⟩ := function.definition_eq
  have framed : Framed function.signature.layout _ _ :=
    Signature.framed_layout (List.forall_mem_map.mpr fun column member => (isName column member).1)
  have scanned : scan first.toList = some function.signature.layout.tokens := by
    rw [letters]
    exact framed.scan
  have statements : ∀ statement ∈ function.statements, statement.value.Readable real? :=
    fun statement member ratio inside => readable ratio (.inl ⟨statement, member, inside⟩)
  obtain ⟨body, namedAfter⟩ := @runBody_statements real? arguments environment function.result.type
    _ named statements ran ("    " ++ function.result.expression.text)
  have valued := readValue_text namedAfter (fun ratio inside => readable ratio (.inr inside))
    computed
  split at formed
  · rename_i typed
    cases formed
    rw [Function.run, stored, definition]
    have entered : bindArguments function.signature.parameters values = some arguments := bound
    simp only [Option.bind_eq_bind, Option.bind_some, runDefinition, scanned,
      Signature.read_tokens, entered]
    refine body.trans ?_
    rw [runBody, valued]
    simp [typed]
  · cases formed

end Written

end Code

namespace Formula

/-- The doubles that the formula's constants stand for are read back. -/
def Readable (formula : Formula) (real? : String → Option Float) : Prop :=
  ∀ id node ratio, formula.arena.Reaches formula.root id → formula.arena.node? id = some node →
    node.operator = .constant (.real ratio) → Decimal.ReadsBack real? ratio.toFloat

end Formula

namespace Code

theorem run_eq_evaluate (formula : Formula) (row : Row) (function : Function)
    (real? : String → Option Float) (sorted : formula.WellSorted) (bound : formula.BoundBy row)
    (readable : formula.Readable real?) (lowered : formula.lower = .ok function) :
    ∃ value, formula.evaluate row = .ok value ∧ function.run real? row = some value := by
  obtain ⟨value, valued, executed⟩ := execute_eq_evaluate formula row function sorted bound lowered
  obtain ⟨memo, accounted⟩ := lower_accounted sorted lowered
  refine ⟨value, valued, Function.run_of_execute ?_ ?_ executed⟩
  · intro column member
    rw [accounted.recorded.identified column member]
    exact isName_identifierOf column.name
  · intro ratio emits
    obtain ⟨id, _, node, _, _, opened, _, formation⟩ := accounted.emitted sorted rfl emits
    cases formation with
    | literal constant => exact readable id node ratio opened.path opened.found constant
    | plain plain => cases plain

/-- The lesser of two numbers, after the first is made smaller. -/
def loweredMinimum : Formula where
  arena := .ofNodes #[⟨.symbol "x", [], .real⟩, ⟨.constant (.real ⟨-1, 8, by decide⟩), [], .real⟩,
    ⟨.plus, [0, 1], .real⟩, ⟨.symbol "y", [], .real⟩, ⟨.lt, [2, 3], .bool⟩,
    ⟨.ite, [4, 2, 3], .real⟩]
  root := 5
  ordered := by decide
  rooted := by decide

def loweredMinimumFunction : Function :=
  let sum : Expression := .chain .plus [.argument "v_x", .literal (.real ⟨-1, 8, by decide⟩)]
  ⟨⟨[⟨"x", "v_x", .real⟩, ⟨"y", "v_y", .real⟩]⟩,
    [⟨⟨.bool, 0⟩, .chain .below [sum, .argument "v_y"]⟩,
      ⟨⟨.real, 0⟩, .conditional (.temporary ⟨.bool, 0⟩) sum (.argument "v_y")⟩],
    ⟨.temporary ⟨.real, 0⟩, .real, true⟩⟩

/-- A reader that knows one text. -/
def readEighth (text : String) : Option Float := if text = "0.125" then some 0.125 else none

theorem run_eq_evaluate_loweredMinimum :
    let row : Row := .ofList [("x", .real (.whole 2)), ("y", .real (.whole 3))]
    loweredMinimum.WellSorted ∧ loweredMinimum.BoundBy row ∧ loweredMinimum.Readable readEighth ∧
      loweredMinimum.lower = .ok loweredMinimumFunction ∧
      loweredMinimumFunction.definition =
        ["", "fn formula(v_x: f64, v_y: f64) -> f64 \x7b",
          "    let bool0: bool = ((v_x + (-0.125)) < v_y);",
          "    let real0: f64 = if bool0 \x7b (v_x + (-0.125)) \x7d else \x7b v_y \x7d;",
          "    real0", "\x7d"] ∧
      loweredMinimumFunction.run readEighth row = some (.real 1.875) := by
  intro row
  have sorted : loweredMinimum.WellSorted := by
    intro id node _ found
    have member := Arena.mem_nodes found
    simp only [loweredMinimum, Arena.ofNodes, List.mem_cons, List.not_mem_nil, or_false] at member
    rcases member with rfl | rfl | rfl | rfl | rfl | rfl
    · exact ⟨⟨[], _, rfl, .symbol "x" .real⟩, fun absent => (by cases absent), trivial⟩
    · exact ⟨⟨[], _, rfl, .constant _⟩, fun _ => rfl, trivial⟩
    · exact ⟨⟨[.real, .real], _, rfl, .arithmetic (by decide) (.inr rfl) 1⟩, fun _ => rfl, trivial⟩
    · exact ⟨⟨[], _, rfl, .symbol "y" .real⟩, fun absent => (by cases absent), trivial⟩
    · exact ⟨⟨[.real, .real], _, rfl, .comparison (by decide) (.inr rfl)⟩, fun _ => rfl, trivial⟩
    · exact ⟨⟨[.bool, .real, .real], _, rfl, .ite .real⟩, fun _ => rfl, trivial⟩
  have bound : loweredMinimum.BoundBy row := by
    intro id node name _ found named
    have member := Arena.mem_nodes found
    simp only [loweredMinimum, Arena.ofNodes, List.mem_cons, List.not_mem_nil, or_false] at member
    rcases member with rfl | rfl | rfl | rfl | rfl | rfl
    · cases named
      exact ⟨.real (.whole 2), rfl, rfl⟩
    · cases named
    · cases named
    · cases named
      exact ⟨.real (.whole 3), rfl, rfl⟩
    all_goals cases named
  have readable : loweredMinimum.Readable readEighth := by
    intro id node ratio _ found named
    have member := Arena.mem_nodes found
    simp only [loweredMinimum, Arena.ofNodes, List.mem_cons, List.not_mem_nil, or_false] at member
    rcases member with rfl | rfl | rfl | rfl | rfl | rfl
    case inr.inl =>
      cases named
      exact ⟨by decide +kernel, by decide +kernel, 0.125, by decide +kernel, by decide +kernel⟩
    all_goals cases named
  have lowered : loweredMinimum.lower = .ok loweredMinimumFunction := by cbv
  have evaluated : loweredMinimum.evaluate row = .ok (.real 1.875) :=
    (loweredMinimum.evaluateAt_eq row 0).trans (eq_ok_of_toOption (by decide +kernel))
  obtain ⟨value, valued, ran⟩ := run_eq_evaluate loweredMinimum row loweredMinimumFunction
    readEighth sorted bound readable lowered
  rw [evaluated] at valued
  cases valued
  exact ⟨sorted, bound, readable, lowered, by decide +kernel, ran⟩

end Code

end Formulary
