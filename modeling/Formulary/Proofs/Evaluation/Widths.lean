import Formulary.Proofs.Arena.Loading
import Formulary.Proofs.Traversal.Moments
import Formulary.Proofs.Typing
import Formulary.Proofs.Word

namespace Formulary

namespace Value

/-- A vector whose width is between one and the size of a word, or any other value. -/
def InRange : Value → Prop
  | bitVec _ width => 1 ≤ width ∧ width ≤ 64
  | _ => True

/-- A vector without bits above its width, or any other value. -/
def Fits : Value → Prop
  | bitVec bits width => bits.toNat < 2 ^ width
  | _ => True

theorem vector_fits (bits : UInt64) (width : Nat) : (vector bits width).Fits := by
  rcases Nat.lt_or_ge 64 width with wide | narrow
  · exact Nat.lt_of_lt_of_le (UInt64.toNat_lt _)
      (Nat.pow_le_pow_right (by decide) (Nat.le_of_lt wide))
  · show (bits &&& lowBits width).toNat < 2 ^ width
    rw [toNat_and_lowBits bits narrow]
    exact Nat.mod_lt _ (Nat.two_pow_pos width)

theorem ofLiteral_inRange {literal : Literal} :
    (ofLiteral literal).InRange ↔ literal.sort.Narrow := by
  cases literal <;> exact Iff.rfl

theorem ofLiteral_fits (literal : Literal) : (ofLiteral literal).Fits := by
  cases literal with
  | bool | int | real => trivial
  | bitVec bits width => exact vector_fits bits width

end Value

namespace Application

/-- What an operator can make of its arguments: a value that is no vector, one of the arguments, a
constant, a vector whose width is in range if those of the arguments are, or an error; and an
operation on words lacks room only for an argument out of range. -/
inductive Yields (application : Application) : Except Error Value → Prop where
  | scalar {value : Value} (plain : ∀ bits width, value ≠ .bitVec bits width) :
      Yields application (.ok value)
  | argument {value : Value} (member : value ∈ application.arguments) :
      Yields application (.ok value)
  | constant {literal : Literal} (named : application.operator = .constant literal) :
      Yields application (.ok (.ofLiteral literal))
  | vector {bits : UInt64} {width : Nat}
      (narrow : (∀ argument ∈ application.arguments, argument.InRange) → 1 ≤ width ∧ width ≤ 64) :
      Yields application (.ok (.vector bits width))
  | refused {error : Error} (mild : error.isFatal = false) : Yields application (.error error)
  | overflow {argument : Value} (member : argument ∈ application.arguments)
      (wide : ¬ argument.InRange) : Yields application (.error .overflow)

namespace Yields

variable {application : Application}

theorem bool (truth : Bool) : application.Yields (.ok (.bool truth)) := .scalar nofun

theorem refuse : application.Yields application.refuse := .refused rfl

theorem alike {bits other : UInt64} {width : Nat}
    (member : .bitVec other width ∈ application.arguments) :
    application.Yields (.ok (.vector bits width)) :=
  .vector fun narrow => narrow _ member

theorem expect {value : Option Value}
    (each : ∀ result, value = some result → application.Yields (.ok result)) :
    application.Yields (application.expect value) := by
  cases value with
  | none => exact refuse
  | some result => exact each result rfl

theorem withArity (count : Nat) {value : Except Error Value} (yields : application.Yields value) :
    application.Yields (application.withArity count value) := by
  unfold Application.withArity
  split
  · exact yields
  · exact .refused rfl

theorem word {width : Nat} {bits : UInt64} {result : Option UInt64}
    (member : .bitVec bits width ∈ application.arguments)
    (present : 1 ≤ width → width ≤ 64 → ∃ value, result = some value) :
    application.Yields (Application.word width result) := by
  cases result with
  | some value => exact alike member
  | none =>
    refine .overflow member fun narrow => ?_
    obtain ⟨value, found⟩ := present narrow.1 narrow.2
    cases found

theorem onVector {compute : UInt64 → Nat → Except Error Value}
    (each : ∀ bits width, .bitVec bits width ∈ application.arguments →
      application.Yields (compute bits width)) :
    application.Yields (application.onVector compute) := by
  refine withArity 1 ?_
  split
  · rename_i bits width arguments
    exact each bits width (by simp [arguments])
  · exact refuse

theorem onVectors {compute : UInt64 → UInt64 → Nat → Except Error Value}
    (each : ∀ left right width, .bitVec left width ∈ application.arguments →
      application.Yields (compute left right width)) :
    application.Yields (application.onVectors compute) := by
  refine withArity 2 ?_
  split
  · rename_i left v right w arguments
    split
    · exact each left right v (by simp [arguments])
    · exact refuse
  · exact refuse

theorem compare (ints : Int64 → Int64 → Bool) (reals : Float → Float → Bool) :
    application.Yields (application.compare ints reals) := by
  refine withArity 2 ?_
  split
  · exact bool _
  · exact bool _
  · exact refuse

theorem compareSigned (holds : Int64 → Int64 → Bool) :
    application.Yields (application.compareSigned holds) := by
  refine onVectors fun left right width member => ?_
  split
  · exact bool _
  · rename_i lacking
    refine .overflow member fun narrow => ?_
    exact lacking _ _ (Word.signed?_eq left narrow.1 narrow.2)
      (Word.signed?_eq right narrow.1 narrow.2)

theorem negate : application.Yields application.negate := by
  unfold Application.negate
  split
  · exact .scalar nofun
  · exact .scalar nofun
  · exact refuse

theorem arithmetic (ints : Int64 → Int64 → Int64) (reals : Float → Float → Float) :
    application.Yields (application.arithmetic ints reals) := by
  refine expect fun result combined => ?_
  cases whole : Value.foldInts? ints application.arguments with
  | some value =>
    rw [whole] at combined
    cases combined
    unfold Value.foldInts? at whole
    split at whole <;> cases whole
    exact .scalar nofun
  | none =>
    rw [whole] at combined
    have broken : Value.foldReals? reals application.arguments = some result := combined
    unfold Value.foldReals? at broken
    split at broken <;> cases broken
    exact .scalar nofun

theorem bitwise (step : UInt64 → UInt64 → UInt64) :
    application.Yields (application.bitwise step) := by
  refine expect fun result combined => ?_
  obtain ⟨⟨first, rest, width⟩, taken, rfl⟩ := Option.map_eq_some_iff.mp combined
  unfold Value.vectors? at taken
  split at taken
  · rename_i bits found others arguments
    obtain ⟨_, _, same⟩ := Option.map_eq_some_iff.mp taken
    cases same
    have member : .bitVec first width ∈ application.arguments := by simp [arguments]
    exact alike member
  · cases taken

theorem extract (low high : Nat) : application.Yields (application.extract low high) := by
  refine onVector fun bits width member => ?_
  split
  · exact refuse
  · rename_i inside
    split
    · refine .vector fun narrow => ?_
      have within : width ≤ 64 := (narrow _ member).2
      omega
    · refine .overflow member fun narrow => ?_
      have within : width ≤ 64 := narrow.2
      omega

theorem concat : application.Yields application.concat := by
  refine withArity 2 ?_
  split
  · rename_i high v low w arguments
    split
    · rename_i room
      have large : 64 + 64 < v + w := Nat.lt_of_lt_of_le (by decide) room
      have upper : .bitVec high v ∈ application.arguments := by simp [arguments]
      have lower : .bitVec low w ∈ application.arguments := by simp [arguments]
      by_cases narrow : v ≤ 64
      · refine .overflow lower fun other => ?_
        simp only [Value.InRange] at other
        omega
      · exact .overflow upper fun other => narrow other.2
    · split
      · exact refuse
      · refine .vector fun narrow => ?_
        have some : 1 ≤ v := (narrow (.bitVec high v) (by simp [arguments])).1
        omega
  · exact refuse

end Yields

theorem value_yields (application : Application) : application.Yields application.value := by
  obtain ⟨operator, arguments⟩ := application
  cases operator with
  | constant => exact .constant rfl
  | not | implies | iff | equals =>
    refine .withArity _ ?_
    split
    · exact .bool _
    · exact .refuse
  | ite =>
    refine .withArity _ ?_
    split
    · rename_i condition first second same
      refine .argument ?_
      split <;> simp_all
    · exact .refuse
  | pow =>
    refine .withArity _ ?_
    split
    · exact .scalar nofun
    · exact .scalar nofun
    · exact .refuse
  | and | or =>
    refine .expect fun result combined => ?_
    obtain ⟨_, _, rfl⟩ := Option.map_eq_some_iff.mp combined
    exact .bool _
  | plus | times | div => exact .arithmetic _ _
  | bvAnd | bvOr | bvXor => exact .bitwise _
  | minus =>
    unfold value
    dsimp only
    split
    · exact .negate
    · exact .arithmetic _ _
  | le | lt => exact .compare _ _
  | bvNot | bvNeg => exact .onVector fun _ _ member => .alike member
  | bvShl =>
    exact .onVectors fun _ _ _ member => .word member fun _ narrow =>
      ⟨_, Word.shiftLeft?_eq _ _ narrow⟩
  | bvLShr =>
    exact .onVectors fun _ _ _ member => .word member fun _ narrow =>
      ⟨_, Word.shiftRight?_eq _ _ narrow⟩
  | bvAShr =>
    exact .onVectors fun _ _ _ member => .word member fun positive narrow =>
      Word.shiftRightSigned?_isSome _ _ positive narrow
  | bvSDiv =>
    exact .onVectors fun _ _ _ member => .word member fun positive narrow =>
      Word.divSigned?_isSome _ _ positive narrow
  | bvAdd | bvSub | bvMul | bvUDiv => exact .onVectors fun _ _ _ member => .alike member
  | bvULt | bvULe => exact .onVectors fun _ _ _ _ => .bool _
  | bvComp => exact .onVectors fun _ _ _ _ => .vector fun _ => by decide
  | bvSLt | bvSLe => exact .compareSigned _
  | bvExtract low high => exact .extract low high
  | bvConcat => exact .concat
  | symbol | bvURem | bvSRem | bvRotateLeft | bvRotateRight | bvZeroExtend | bvSignExtend
  | bvToNat | select | store | arrayValue | toReal | forAll | «exists» | apply =>
    exact .refused rfl

section Yielded

variable {application : Application} {value : Value}

theorem Yields.fits (yields : application.Yields (.ok value))
    (arguments : ∀ argument ∈ application.arguments, argument.Fits) : value.Fits := by
  cases yields with
  | scalar plain =>
    cases value with
    | bool | int | real => trivial
    | bitVec bits width => exact absurd rfl (plain bits width)
  | argument member => exact arguments value member
  | constant => exact Value.ofLiteral_fits _
  | vector => exact Value.vector_fits _ _

theorem Yields.inRange (yields : application.Yields (.ok value))
    (arguments : ∀ argument ∈ application.arguments, argument.InRange)
    (constants : ∀ literal, application.operator = .constant literal → literal.sort.Narrow) :
    value.InRange := by
  cases yields with
  | scalar plain =>
    cases value with
    | bool | int | real => trivial
    | bitVec bits width => exact absurd rfl (plain bits width)
  | argument member => exact arguments value member
  | constant named => exact Value.ofLiteral_inRange.mpr (constants _ named)
  | vector narrow => exact narrow arguments

theorem Yields.mild {error : Error} (yields : application.Yields (.error error))
    (arguments : ∀ argument ∈ application.arguments, argument.InRange) :
    error.isFatal = false := by
  cases yields with
  | refused mild => exact mild
  | overflow member wide => exact absurd (arguments _ member) wide

end Yielded

end Application

namespace TermSort

variable {sort : TermSort}

theorem narrow_of_native {type : NativeType} (resolved : sort.native = .ok type) :
    sort.Narrow := by
  cases sort with
  | bitVec width =>
    simp only [native] at resolved
    split at resolved
    · assumption
    · cases resolved
  | bool | int | real | array | function | uninterpreted => trivial

theorem native_mild {error : Error} (unresolved : sort.native = .error error) :
    error.isFatal = false := by
  cases sort with
  | bool | int | real => cases unresolved
  | bitVec width =>
    simp only [native] at unresolved
    split at unresolved <;> cases unresolved
    rfl
  | array | function | uninterpreted =>
    cases unresolved
    rfl

end TermSort

namespace Node

variable {node : Node} {row : Row} {index : Nat} {arguments : List Value}

/-- A symbol has the width of its node's sort, and this is checked before. -/
theorem typedValue_yields (node : Node) (row : Row) (index : Nat) (arguments : List Value) :
    Application.Yields ⟨node.operator, arguments⟩ (node.typedValue row index arguments) := by
  unfold typedValue
  split
  · rename_i error unresolved
    exact .refused (TermSort.native_mild unresolved)
  · rename_i type resolved
    unfold Node.value
    split
    · unfold Row.value
      split
      · exact .refused rfl
      · rename_i bound _
        split
        · rename_i sorted
          have narrow : bound.sort.Narrow := sorted ▸ TermSort.narrow_of_native resolved
          cases bound with
          | bool | int | real => exact .scalar nofun
          | bitVec bits width => exact .vector fun _ => narrow
        · exact .refused rfl
    · exact Application.value_yields _

theorem typedValue_constant {literal : Literal} {value : Value}
    (named : node.operator = .constant literal)
    (computed : node.typedValue row index arguments = .ok value) :
    value = .ofLiteral literal ∧ node.sort.Narrow := by
  unfold typedValue at computed
  split at computed
  · cases computed
  · rename_i type resolved
    simp only [Node.value, named, Application.value] at computed
    cases computed
    exact ⟨rfl, TermSort.narrow_of_native resolved⟩

end Node

section Computed

variable {formula : Formula} {row : Row} {index : Nat} {id : NodeId} {value : Value}

theorem computed_inv (computed : (evaluation row index).Computes formula () id value) :
    ∃ node arguments, formula.arena.Reaches formula.root id ∧
      formula.arena.node? id = some node ∧
      List.Forall₂ ((evaluation row index).Computes formula ()) node.children arguments ∧
      node.typedValue row index arguments = .ok value := by
  obtain ⟨node, arguments, path, found, below, _, _, left⟩ := computed.inv
  refine ⟨node, arguments, path, found, below, ?_⟩
  cases result : node.typedValue row index arguments with
  | error error => simp [evaluation, result, Except.map] at left
  | ok other =>
    simp only [evaluation, result, Except.map] at left
    cases left
    rfl

theorem computed_induction {Holds : Value → Prop}
    (step : ∀ id node arguments value, formula.arena.Reaches formula.root id →
      formula.arena.node? id = some node → (evaluation row index).Computes formula () id value →
      node.typedValue row index arguments = .ok value →
      (∀ argument ∈ arguments, Holds argument) → Holds value)
    (computed : (evaluation row index).Computes formula () id value) : Holds value := by
  induction id using NodeId.strongRecOn generalizing value with
  | ind id ih =>
    obtain ⟨node, arguments, path, found, below, result⟩ := computed_inv computed
    refine step id node arguments value path found computed result fun argument member => ?_
    have children : List.Forall₂ (fun child argument => child ∈ node.children ∧
        (evaluation row index).Computes formula () child argument) node.children arguments :=
      (List.forall₂_and_left _ _).mpr ⟨fun child listed => listed, below⟩
    obtain ⟨child, listed, earlier⟩ := related_of_mem children.flip member
    exact ih child (formula.ordered id node found child listed) earlier

theorem computed_fits (computed : (evaluation row index).Computes formula () id value) :
    value.Fits :=
  computed_induction (fun _ node arguments _ _ _ _ result =>
    Application.Yields.fits (result ▸ node.typedValue_yields row index arguments)) computed

theorem evaluateAt_mild
    (inRange : ∀ id value, (evaluation row index).Computes formula () id value → value.InRange)
    {error : Error} (failed : formula.evaluateAt row index = .error error) :
    error.isFatal = false := by
  have ran : (evaluation row index).run formula () = .error error := by
    cases walked : (evaluation row index).run formula () with
    | ok pair => simp [Formula.evaluateAt, walked, Except.map] at failed
    | error other =>
      simp only [Formula.evaluateAt, walked, Except.map] at failed
      cases failed
      rfl
  rcases Pass.run_fails_at ran with
    ⟨node, refused⟩ | ⟨_, _, _, rfl⟩ | ⟨_, rfl⟩ | ⟨node, arguments, _, below, rejected⟩
  · simp only [evaluation, Node.admit] at refused
    split at refused <;> cases refused
    rfl
  · rfl
  · rfl
  · have result : node.typedValue row index arguments = .error error := by
      cases computed : node.typedValue row index arguments with
      | ok value => simp [evaluation, computed, Except.map] at rejected
      | error other =>
        simp only [evaluation, computed, Except.map] at rejected
        cases rejected
        rfl
    have yields := node.typedValue_yields row index arguments
    rw [result] at yields
    refine yields.mild fun argument member => ?_
    obtain ⟨child, earlier⟩ := related_of_mem below.flip member
    exact inRange child argument earlier

end Computed

/-- No vector has bits above its width. All widths are between one and the size of a word exactly
if those of the constants are that evaluation comes to, for instance because constants have the
sorts of their nodes; and then no operation lacks room. -/
theorem widths_in_range_iff (formula : Formula) (row : Row) (index : Nat) :
    let Computed := (evaluation row index).Computes formula ()
    let InRange := ∀ id value, Computed id value → value.InRange
    (∀ id value, Computed id value → value.Fits) ∧
      (InRange ↔ ∀ id node literal value, formula.arena.node? id = some node →
        node.operator = .constant literal → Computed id value → literal.sort.Narrow) ∧
      ((∀ id node literal, formula.arena.Reaches formula.root id →
        formula.arena.node? id = some node → node.operator = .constant literal →
          literal.sort = node.sort) → InRange) ∧
      (InRange → ∀ error, formula.evaluateAt row index = .error error → error.isFatal = false) ∧
      ∀ value, formula.evaluateAt row index = .ok value → Computed formula.root value := by
  intro Computed InRange
  have ofConstants (constants : ∀ id node literal value, formula.arena.node? id = some node →
      node.operator = .constant literal → Computed id value → literal.sort.Narrow) : InRange := by
    intro id value computed
    refine computed_induction (fun id node arguments value _ found computed result below => ?_)
      computed
    have yields := node.typedValue_yields row index arguments
    rw [result] at yields
    exact yields.inRange below fun literal named =>
      constants id node literal value found named computed
  refine ⟨fun id value => computed_fits, ⟨?_, ofConstants⟩, ?_, fun inRange error failed =>
    evaluateAt_mild inRange failed, ?_⟩
  · intro inRange id node literal value found named computed
    obtain ⟨stored, arguments, _, again, _, result⟩ := computed_inv computed
    rw [found] at again
    cases again
    obtain ⟨rfl, _⟩ := Node.typedValue_constant named result
    exact Value.ofLiteral_inRange.mp (inRange id _ computed)
  · intro sorted
    refine ofConstants fun id node literal value found named computed => ?_
    obtain ⟨stored, arguments, path, again, _, result⟩ := computed_inv computed
    rw [found] at again
    cases again
    rw [sorted id node literal path found named]
    exact (Node.typedValue_constant named result).2
  · intro value evaluated
    cases walked : (evaluation row index).run formula () with
    | error error => simp [Formula.evaluateAt, walked, Except.map] at evaluated
    | ok pair =>
      simp only [Formula.evaluateAt, walked, Except.map] at evaluated
      cases evaluated
      exact Pass.run_computes walked

/-- A vector joined to a constant, with not enough room for both. -/
def joinedToConstant : Formula where
  arena := .ofNodes #[⟨.symbol "x", [], .bitVec 40⟩, ⟨.constant (.bitVec 3 40), [], .bitVec 40⟩,
    ⟨.bvConcat, [0, 1], .bitVec 64⟩]
  root := 2
  ordered := by decide
  rooted := by decide

/-- That there is no vector as wide as both together is an error like any other. -/
theorem widths_in_range_joinedToConstant :
    let row := Row.empty.insert "x" (.bitVec 1 40)
    (∀ id value, (evaluation row 0).Computes joinedToConstant () id value → value.InRange) ∧
      joinedToConstant.evaluateAt row 0 =
        .error (.graph (.inapplicable .bvConcat [.bitVec 1 40, .bitVec 3 40])) ∧
      Error.isFatal (.graph (.inapplicable .bvConcat [.bitVec 1 40, .bitVec 3 40])) = false := by
  intro row
  obtain ⟨_, _, sorted, mild, _⟩ := widths_in_range_iff joinedToConstant row 0
  have inRange := sorted (by
    intro id node literal _ found named
    have member := Arena.mem_nodes found
    simp only [joinedToConstant, Arena.ofNodes, List.mem_cons, List.not_mem_nil, or_false] at member
    rcases member with rfl | rfl | rfl <;> cases named
    rfl)
  have symbol : joinedToConstant.arena.node? 0 = some ⟨.symbol "x", [], .bitVec 40⟩ := rfl
  have constant : joinedToConstant.arena.node? 1 =
      some ⟨.constant (.bitVec 3 40), [], .bitVec 40⟩ := rfl
  have root : joinedToConstant.arena.node? 2 = some ⟨.bvConcat, [0, 1], .bitVec 64⟩ := rfl
  have one : joinedToConstant.arena.valueAt joinedToConstant.ordered row 0 0 =
      .ok (.bitVec 1 40) := by
    rw [Arena.valueAt_found symbol]
    rfl
  have three : joinedToConstant.arena.valueAt joinedToConstant.ordered row 0 1 =
      .ok (.bitVec 3 40) := by
    rw [Arena.valueAt_found constant]
    rfl
  have failed : joinedToConstant.evaluateAt row 0 =
      .error (.graph (.inapplicable .bvConcat [.bitVec 1 40, .bitVec 3 40])) := by
    refine (joinedToConstant.evaluateAt_eq row 0).trans ((Arena.valueAt_found root).trans ?_)
    simp only [List.mapM_cons, one, three]
    rfl
  exact ⟨inRange, failed, mild inRange _ failed⟩

/-- A constant that is wider than a word, at a node of another sort. -/
def wideConstant : Formula where
  arena := .ofNodes #[⟨.constant (.bitVec 1 100), [], .int⟩, ⟨.bvSLt, [0, 0], .bool⟩]
  root := 1
  ordered := by decide
  rooted := by decide

theorem load_wideConstant :
    Formula.load ⟨[⟨.constant (.bitVec 1 100), [], .int⟩, ⟨.bvSLt, [0, 0], .bool⟩], 1⟩ =
      .ok wideConstant := by
  have distinct : wideConstant.arena.Distinct := by
    refine Arena.distinct_iff.mpr ?_
    simp [Node.key, Operator.label]
  have storable : ∀ node ∈ wideConstant.arena.nodes, node.isStorable := by decide
  exact wideConstant.load_toFile rfl ⟨wideConstant.ordered, distinct, storable⟩ (by decide)

/-- Such a formula is accepted, and there is no room to compare the constant. -/
theorem wide_constant_overflows :
    Formula.load ⟨[⟨.constant (.bitVec 1 100), [], .int⟩, ⟨.bvSLt, [0, 0], .bool⟩], 1⟩ =
        .ok wideConstant ∧
      wideConstant.evaluate .empty = .error .overflow ∧
      ¬ ∀ id value, (evaluation .empty 0).Computes wideConstant () id value → value.InRange := by
  have constant : wideConstant.arena.node? 0 = some ⟨.constant (.bitVec 1 100), [], .int⟩ := rfl
  have root : wideConstant.arena.node? 1 = some ⟨.bvSLt, [0, 0], .bool⟩ := rfl
  have wide : wideConstant.arena.valueAt wideConstant.ordered .empty 0 0 =
      .ok (.bitVec 1 100) := by
    rw [Arena.valueAt_found constant]
    rfl
  have failed : wideConstant.evaluateAt .empty 0 = .error .overflow := by
    refine (wideConstant.evaluateAt_eq .empty 0).trans ((Arena.valueAt_found root).trans ?_)
    simp only [List.mapM_cons, wide]
    rfl
  refine ⟨load_wideConstant, failed, fun inRange => ?_⟩
  cases evaluateAt_mild inRange failed

end Formulary
