import Formulary.Proofs.Evaluation
import Formulary.Proofs.Traversal.Turns
import Formulary.Proofs.Typing

/-! Evaluation is plain recursion. The walk that evaluates a formula takes finitely many turns
and computes no node twice; its answer, value or error, is the one that recursion over the
formula gives. -/
namespace Formulary

/-- The value of a node by plain recursion: an operator without a meaning is refused first; the
children are evaluated from left to right, up to the first error; then the sort must have a
machine type, and the operator is applied. -/
def Arena.recursiveValue (arena : Arena) (ordered : arena.Ordered) (row : Row) (index : Nat)
    (id : NodeId) : Except Error Value :=
  match found : arena.node? id with
  | none => .error (.dangling id)
  | some node =>
    if node.operator.unsupported then .error (.unsupported node.operator)
    else do
      let values ← node.children.attach.mapM fun child =>
        have := ordered id node found child.1 child.2
        arena.recursiveValue ordered row index child.1
      let _ ← node.sort.native
      node.value row index values
termination_by id.val

theorem Arena.recursiveValue_found {arena : Arena} {ordered : arena.Ordered} {row : Row}
    {index : Nat} {id : NodeId} {node : Node} (found : arena.node? id = some node) :
    arena.recursiveValue ordered row index id =
      if node.operator.unsupported then .error (.unsupported node.operator)
      else (do
        let values ← node.children.mapM (arena.recursiveValue ordered row index)
        let _ ← node.sort.native
        node.value row index values) := by
  rw [recursiveValue]
  split
  · rename_i missing
    rw [found] at missing
    cases missing
  · rename_i stored again
    rw [found] at again
    cases again
    rw [List.mapM_subtype (g := arena.recursiveValue ordered row index) (fun _ _ => rfl),
      List.unattach_attach]

/-- The descent of the evaluating walk is this recursion. -/
theorem Arena.valueAt_eq_recursiveValue {arena : Arena} {ordered : arena.Ordered} {row : Row}
    {index : Nat} (id : NodeId) :
    arena.valueAt ordered row index id = arena.recursiveValue ordered row index id := by
  induction id using NodeId.strongRecOn with
  | ind id ih =>
    cases found : arena.node? id with
    | none =>
      rw [valueAt, Pass.descend_missing found, recursiveValue]
      split
      · rfl
      · rename_i again
        rw [found] at again
        cases again
    | some node =>
      have below : node.children.mapM (arena.valueAt ordered row index) =
          node.children.mapM (arena.recursiveValue ordered row index) :=
        mapM_congr fun child member => ih child (ordered id node found child member)
      rw [valueAt_found found, recursiveValue_found found, below, Node.admit]
      by_cases refused : node.operator.unsupported
      · simp [refused, bind, Except.bind]
      · simp only [refused, Bool.false_eq_true, if_false, Node.typedValue, bind, Except.bind]
        cases node.children.mapM (arena.recursiveValue ordered row index) with
        | error error => rfl
        | ok values => cases node.sort.native <;> rfl

namespace Application

/-- What an application can be blamed for. Every such error names its operator, but for a word
that leaves no room. -/
inductive Blame (application : Application) : Error → Prop where
  | overflow : Blame application .overflow
  | unsupported (refused : application.operator.unsupported) :
      Blame application (.unsupported application.operator)
  | symbol {name : String} (named : application.operator = .symbol name) :
      Blame application (.unsupported application.operator)
  | arity (expected : Nat) : Blame application
      (.graph (.arity application.operator expected application.arguments.length))
  | inapplicable : Blame application
      (.graph (.inapplicable application.operator application.arguments))

/-- A computation for an application that fails only for what the application is to blame for. -/
def Answers (application : Application) (computed : Except Error Value) : Prop :=
  ∀ error, computed = .error error → application.Blame error

namespace Answers

variable {application : Application}

theorem ok (value : Value) : application.Answers (.ok value) := nofun

theorem overflow : application.Answers (.error .overflow) := by
  rintro _ ⟨⟩
  exact .overflow

theorem refuse : application.Answers application.refuse := by
  rintro _ ⟨⟩
  exact .inapplicable

theorem expect (value : Option Value) : application.Answers (application.expect value) := by
  cases value with
  | none => exact refuse
  | some value => exact ok value

theorem withArity (count : Nat) {value : Except Error Value} (answers : application.Answers value) :
    application.Answers (application.withArity count value) := by
  unfold Application.withArity
  split
  · exact answers
  · rintro _ ⟨⟩
    exact .arity count

theorem word (width : Nat) (bits : Option UInt64) :
    application.Answers (Application.word width bits) := by
  cases bits with
  | none => exact overflow
  | some bits => exact ok _

theorem onVector {compute : UInt64 → Nat → Except Error Value}
    (each : ∀ bits width, application.Answers (compute bits width)) :
    application.Answers (application.onVector compute) := by
  refine withArity 1 ?_
  split
  · exact each _ _
  · exact refuse

theorem onVectors {compute : UInt64 → UInt64 → Nat → Except Error Value}
    (each : ∀ left right width, application.Answers (compute left right width)) :
    application.Answers (application.onVectors compute) := by
  refine withArity 2 ?_
  split
  · split
    · exact each _ _ _
    · exact refuse
  · exact refuse

theorem compare (ints : Int64 → Int64 → Bool) (reals : Float → Float → Bool) :
    application.Answers (application.compare ints reals) := by
  refine withArity 2 ?_
  split
  · exact ok _
  · exact ok _
  · exact refuse

theorem compareSigned (holds : Int64 → Int64 → Bool) :
    application.Answers (application.compareSigned holds) := by
  refine onVectors fun left right width => ?_
  split
  · exact ok _
  · exact overflow

theorem negate : application.Answers application.negate := by
  unfold Application.negate
  split
  · exact ok _
  · exact ok _
  · exact refuse

theorem extract (low high : Nat) : application.Answers (application.extract low high) := by
  refine onVector fun bits width => ?_
  split
  · exact refuse
  · split
    · exact ok _
    · exact overflow

theorem concat : application.Answers application.concat := by
  refine withArity 2 ?_
  split
  · split
    · exact overflow
    · split
      · exact refuse
      · exact ok _
  · exact refuse

end Answers

theorem value_answers (application : Application) : application.Answers application.value := by
  obtain ⟨operator, arguments⟩ := application
  cases operator with
  | constant => exact .ok _
  | not | implies | iff | equals | ite =>
    refine .withArity _ ?_
    split
    · exact .ok _
    · exact .refuse
  | pow =>
    refine .withArity _ ?_
    split
    · exact .ok _
    · exact .ok _
    · exact .refuse
  | and | or | plus | times | div | bvAnd | bvOr | bvXor => exact .expect _
  | minus =>
    unfold value
    dsimp only
    split
    · exact .negate
    · exact .expect _
  | le | lt => exact .compare _ _
  | bvNot | bvNeg => exact .onVector fun _ _ => .ok _
  | bvShl | bvLShr | bvAShr | bvSDiv => exact .onVectors fun _ _ _ => .word _ _
  | bvAdd | bvSub | bvMul | bvUDiv | bvULt | bvULe | bvComp =>
    exact .onVectors fun _ _ _ => .ok _
  | bvSLt | bvSLe => exact .compareSigned _
  | bvExtract low high => exact .extract low high
  | bvConcat => exact .concat
  | symbol =>
    rintro _ ⟨⟩
    exact .symbol rfl
  | bvURem | bvSRem | bvRotateLeft | bvRotateRight | bvZeroExtend | bvSignExtend
  | bvToNat | select | store | arrayValue | toReal | forAll | «exists» | apply =>
    rintro _ ⟨⟩
    exact .unsupported rfl

end Application

/-- A walk that asks for a value which is not there. -/
def Error.IsUnevaluated : Error → Prop
  | .graph (.childNotEvaluated ..) | .graph (.rootNotEvaluated _) => True
  | _ => False

theorem Node.typedValue_evaluated {node : Node} {row : Row} {index : Nat}
    {arguments : List Value} {error : Error}
    (failed : node.typedValue row index arguments = .error error) : ¬ error.IsUnevaluated := by
  unfold typedValue at failed
  split at failed
  · rename_i unresolved
    cases failed
    unfold TermSort.native at unresolved
    split at unresolved
    · cases unresolved
    · cases unresolved
    · cases unresolved
    · split at unresolved
      · cases unresolved
      · cases unresolved
        exact id
    · cases unresolved
      exact id
  · unfold Node.value at failed
    split at failed
    · unfold Row.value at failed
      split at failed
      · cases failed
        exact id
      · split at failed
        · cases failed
        · cases failed
          exact id
    · cases Application.value_answers _ error failed <;> exact id

theorem Formula.evaluateAt_evaluated {formula : Formula} {row : Row} {index : Nat} {error : Error}
    (failed : formula.evaluateAt row index = .error error) : ¬ error.IsUnevaluated := by
  unfold evaluateAt at failed
  cases walked : (evaluation row index).run formula () with
  | ok pair =>
    rw [walked] at failed
    cases failed
  | error first =>
    rw [walked] at failed
    cases failed
    cases @Pass.run_fails _ _ _ (fun _ => True) _ _ _ trivial
      (fun _ _ _ _ _ _ _ _ _ => trivial) walked with
    | entering _ _ refused =>
      simp only [evaluation, Node.admit] at refused
      split at refused
      · cases refused
        exact id
      · cases refused
    | leaving _ _ _ _ _ rejected =>
      simp only [evaluation] at rejected
      cases valued : Node.typedValue _ row index _ with
      | error refusal =>
        rw [valued] at rejected
        cases rejected
        exact Node.typedValue_evaluated valued
      | ok value =>
        rw [valued] at rejected
        cases rejected

/-- Evaluation halts with the answer of plain recursion, value or error, and never for a value
that is not there. It computes no node twice, and none that the root does not depend on; if it
succeeds it has computed all that the root depends on. -/
theorem evaluation_recursive (formula : Formula) (row : Row) (index : Nat) :
    (∃ trace answer, (evaluation row index).Completes formula () trace answer) ∧
      ∀ trace answer, (evaluation row index).Completes formula () trace answer →
        formula.evaluateAt row index = answer.map (·.1) ∧
        answer.map (·.1) =
          formula.arena.recursiveValue formula.ordered row index formula.root ∧
        (∀ error, answer = .error error → ¬ error.IsUnevaluated) ∧
        trace.Nodup ∧ (∀ id ∈ trace, formula.arena.Reaches formula.root id) ∧
        ∀ value, answer = .ok value → ∀ id, formula.arena.Reaches formula.root id → id ∈ trace := by
  obtain ⟨trace, completed⟩ := (evaluation row index).run_completes formula ()
  refine ⟨⟨trace, _, completed⟩, fun trace answer completed => ?_⟩
  have answered : formula.evaluateAt row index = answer.map (·.1) := by
    rw [Formula.evaluateAt, completed.run_eq]
  refine ⟨answered, ?_, fun error failed => ?_, completed.nodup, completed.reaches, ?_⟩
  · rw [← answered, formula.evaluateAt_eq, Arena.valueAt_eq_recursiveValue]
  · exact Formula.evaluateAt_evaluated (answered.trans (by rw [failed]; rfl))
  · rintro value rfl id path
    exact completed.covers path

/-- A product of a sum with itself, and of the summand. -/
def sharedSum : Formula where
  arena := .ofNodes #[⟨.symbol "x", [], .int⟩, ⟨.plus, [0, 0], .int⟩, ⟨.times, [1, 1, 0], .int⟩]
  root := 2
  ordered := by decide
  rooted := by decide

theorem recursiveValue_sharedSum :
    sharedSum.arena.recursiveValue sharedSum.ordered (Row.empty.insert "x" (.int 3)) 0 2 =
      .ok (.int 108) := by
  have symbol : sharedSum.arena.node? 0 = some ⟨.symbol "x", [], .int⟩ := rfl
  have sum : sharedSum.arena.node? 1 = some ⟨.plus, [0, 0], .int⟩ := rfl
  have product : sharedSum.arena.node? 2 = some ⟨.times, [1, 1, 0], .int⟩ := rfl
  have three : sharedSum.arena.recursiveValue sharedSum.ordered
      (Row.empty.insert "x" (.int 3)) 0 0 = .ok (.int 3) := by
    rw [Arena.recursiveValue_found symbol]
    rfl
  have six : sharedSum.arena.recursiveValue sharedSum.ordered
      (Row.empty.insert "x" (.int 3)) 0 1 = .ok (.int 6) := by
    rw [Arena.recursiveValue_found sum]
    simp only [List.mapM_cons, three]
    rfl
  rw [Arena.recursiveValue_found product]
  simp only [List.mapM_cons, three, six]
  rfl

theorem evaluation_recursive_sharedSum :
    let row := Row.empty.insert "x" (.int 3)
    ∃ trace answer, (evaluation row 0).Completes sharedSum () trace answer ∧
      answer.map (·.1) = .ok (.int 108) ∧
      sharedSum.arena.recursiveValue sharedSum.ordered row 0 2 = .ok (.int 108) ∧
      trace.Nodup ∧ ∀ id, id ∈ trace ↔ sharedSum.arena.Reaches 2 id := by
  intro row
  obtain ⟨⟨trace, answer, completed⟩, every⟩ := evaluation_recursive sharedSum row 0
  obtain ⟨_, recursive, _, distinct, within, covers⟩ := every trace answer completed
  have answered := recursive.trans recursiveValue_sharedSum
  refine ⟨trace, answer, completed, answered, recursiveValue_sharedSum, distinct,
    fun id => ⟨within id, ?_⟩⟩
  cases answer with
  | error error => cases answered
  | ok value => exact covers value rfl id

end Formulary
