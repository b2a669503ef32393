import Formulary.Proofs.Code.Columns
import Formulary.Proofs.Evaluation.Recursion

/-! Unsupported operators. Evaluation and lowering refuse them when they enter a node, before
anything below it and after all that stands to its left, so the operator that they name is the
first one on the preorder. -/
namespace Formulary

def Arena.unsupportedAt? (arena : Arena) (id : NodeId) : Option Operator :=
  (arena.node? id).bind fun node =>
    if node.operator.unsupported then some node.operator else none

/-- The first unsupported operator that the root depends on, every node coming before its
children and these from left to right. -/
def Formula.firstUnsupported? (formula : Formula) : Option Operator :=
  (formula.arena.preorder formula.ordered formula.root).findSome? formula.arena.unsupportedAt?

theorem Arena.unsupportedAt?_found {arena : Arena} {id : NodeId} {node : Node}
    (found : arena.node? id = some node) :
    arena.unsupportedAt? id = if node.operator.unsupported then some node.operator else none := by
  rw [unsupportedAt?, found, Option.bind_some]

theorem Node.admit_ok {node : Node} (entered : Node.admit node = .ok ()) :
    node.operator.unsupported = false := by
  unfold Node.admit at entered
  split at entered
  · cases entered
  · rename_i supported
    simpa using supported

theorem Node.admit_error {node : Node} {error : Error} (refused : Node.admit node = .error error) :
    node.operator.unsupported ∧ error = .unsupported node.operator := by
  unfold Node.admit at refused
  split at refused
  · rename_i unsupported
    cases refused
    exact ⟨unsupported, rfl⟩
  · cases refused

namespace Pass

variable {State Result : Type} {pass : Pass State Result} {arena : Arena}
  {ordered : arena.Ordered}

/-- A pass that refuses unsupported operators when it enters a node, and no other. -/
structure Refusing (pass : Pass State Result) : Prop where
  entering : pass.enter = Node.admit
  leaving : ∀ node results state operator,
    pass.leave node results state = .error (.unsupported operator) → node.operator.unsupported

/-- No result is of an unsupported operator, nor of a node that depends on one. -/
structure Clear (arena : Arena) (memo : Std.HashMap NodeId Result) : Prop where
  closed : Closed arena memo
  supported : ∀ id, memo.contains id → arena.unsupportedAt? id = none

theorem Clear.start : Clear arena (∅ : Std.HashMap NodeId Result) :=
  ⟨by simp [Closed], by simp⟩

theorem visit_clear (refusing : pass.Refusing) {id : NodeId} {passage after : Passage State Result}
    (clear : Clear arena passage.1) (visited : pass.visit ordered id passage = .ok after) :
    Clear arena after.1 := by
  induction id using NodeId.strongRecOn generalizing passage after with
  | ind id ih =>
    rcases visit_ok visited with ⟨_, rfl⟩ | ⟨node, middle, _, found, entered, below, left⟩
    · exact clear
    · have children : Clear arena middle.1 :=
        @visitAll_sound _ _ _ _ _ (fun passage => Clear arena passage.1) _
          (fun child member before next ready done =>
            ⟨ih child (ordered id node found child member) ready done, visit_contains done⟩)
          _ _ clear below
      obtain ⟨_, _, _, _, inserted⟩ := depart_ok left
      refine ⟨depart_closed found left children.closed, fun other known => ?_⟩
      rw [inserted, Std.HashMap.contains_insert, Bool.or_eq_true, beq_iff_eq] at known
      rcases known with rfl | known
      · rw [refusing.entering] at entered
        rw [Arena.unsupportedAt?_found found, Node.admit_ok entered]
        rfl
      · exact children.supported other known

theorem visit_supported (refusing : pass.Refusing) {id : NodeId}
    {passage after : Passage State Result} (clear : Clear arena passage.1)
    (visited : pass.visit ordered id passage = .ok after) :
    (arena.preorder ordered id).findSome? arena.unsupportedAt? = none := by
  rw [List.findSome?_eq_none_iff]
  intro other listed
  apply (visit_clear refusing clear visited).supported
  exact ((visit_covers clear.closed visited).contains_iff other).mpr (.inr listed)

theorem visitAll_unsupported (refusing : pass.Refusing) {list : List NodeId} {operator : Operator}
    (each : ∀ id ∈ list, ∀ before, Clear arena before.1 →
      pass.visit ordered id before = .error (.unsupported operator) →
        (arena.preorder ordered id).findSome? arena.unsupportedAt? = some operator)
    {passage : Passage State Result} (clear : Clear arena passage.1)
    (failed : pass.visitAll ordered list passage = .error (.unsupported operator)) :
    (list.flatMap (arena.preorder ordered)).findSome? arena.unsupportedAt? = some operator := by
  induction list generalizing passage with
  | nil => cases failed
  | cons id rest ih =>
    rw [visitAll] at failed
    rw [List.flatMap_cons, List.findSome?_append]
    cases first : pass.visit ordered id passage with
    | error error =>
      rw [first] at failed
      cases failed
      rw [each id List.mem_cons_self passage clear first]
      rfl
    | ok middle =>
      rw [first] at failed
      rw [visit_supported refusing clear first, Option.none_or]
      exact ih (fun other member => each other (List.mem_cons_of_mem id member))
        (visit_clear refusing clear first) failed

/-- A node whose children were visited is left, or refused for another reason. -/
theorem depart_unsupported (refusing : pass.Refusing) {id : NodeId} {node : Node}
    {passage : Passage State Result} {operator : Operator}
    (present : ∀ child ∈ node.children, passage.1.contains child)
    (failed : pass.depart id node passage = .error (.unsupported operator)) :
    node.operator.unsupported := by
  obtain ⟨results, gathered⟩ := arguments_present pass id node present
  cases leaving : pass.leave node results passage.2 with
  | ok pair => simp [depart, gathered, leaving, bind, Except.bind, pure, Except.pure] at failed
  | error error =>
    simp only [depart, gathered, leaving, bind, Except.bind, Except.error.injEq] at failed
    rw [failed] at leaving
    exact refusing.leaving node results passage.2 operator leaving

theorem visit_unsupported (refusing : pass.Refusing) {id : NodeId} {operator : Operator}
    {passage : Passage State Result} (clear : Clear arena passage.1)
    (failed : pass.visit ordered id passage = .error (.unsupported operator)) :
    (arena.preorder ordered id).findSome? arena.unsupportedAt? = some operator := by
  induction id using NodeId.strongRecOn generalizing passage with
  | ind id ih =>
    cases known : passage.1.contains id with
    | true =>
      rw [visit_known known] at failed
      cases failed
    | false =>
      cases found : arena.node? id with
      | none =>
        rw [visit_dangling known found] at failed
        cases failed
      | some node =>
        rw [visit_found known found] at failed
        rw [Arena.preorder_found found, List.findSome?_cons, Arena.unsupportedAt?_found found]
        cases entered : pass.enter node with
        | error error =>
          rw [entered] at failed
          cases failed
          rw [refusing.entering] at entered
          obtain ⟨unsupported, same⟩ := Node.admit_error entered
          cases same
          rw [if_pos unsupported]
        | ok entrance =>
          have supported : node.operator.unsupported = false := by
            rw [refusing.entering] at entered
            exact Node.admit_ok entered
          rw [supported]
          rw [entered] at failed
          cases visited : pass.visitAll ordered node.children passage with
          | error error =>
            rw [visited] at failed
            cases failed
            exact visitAll_unsupported refusing (fun child member before ready done =>
              ih child (ordered id node found child member) ready done) clear visited
          | ok middle =>
            rw [visited] at failed
            rw [depart_unsupported refusing (visitAll_contains visited) failed] at supported
            cases supported

variable {formula : Formula} {state : State}

theorem run_supported (refusing : pass.Refusing) {answer : Result × State}
    (done : pass.run formula state = .ok answer) : formula.firstUnsupported? = none := by
  obtain ⟨memo, visited, _⟩ := run_ok done
  exact visit_supported refusing .start visited

theorem run_unsupported (refusing : pass.Refusing) {operator : Operator}
    (failed : pass.run formula state = .error (.unsupported operator)) :
    formula.firstUnsupported? = some operator := by
  rw [run_eq_visit] at failed
  cases visited : pass.visit formula.ordered formula.root (∅, state) with
  | error error =>
    rw [visited] at failed
    cases failed
    exact visit_unsupported refusing .start visited
  | ok after =>
    obtain ⟨result, atRoot⟩ := found_of_contains (visit_contains visited)
    simp [visited, atRoot, bind, Except.bind] at failed

theorem answer_unsupported {α : Type} (refusing : pass.Refusing) {make : Result × State → α}
    {operator : Operator}
    (failed : (pass.run formula state).map make = .error (.unsupported operator)) :
    formula.firstUnsupported? = some operator := by
  cases walked : pass.run formula state with
  | error error =>
    rw [walked] at failed
    cases failed
    exact run_unsupported refusing walked
  | ok pair =>
    rw [walked] at failed
    cases failed

end Pass

/-- An operator is reported as unsupported only where it is. -/
theorem evaluation_refusing (row : Row) (index : Nat) : (evaluation row index).Refusing := by
  refine ⟨rfl, fun node arguments state operator refused => ?_⟩
  have valued : node.typedValue row index arguments = .error (.unsupported operator) := by
    simp only [evaluation] at refused
    cases valued : node.typedValue row index arguments with
    | error error =>
      rw [valued] at refused
      cases refused
      rfl
    | ok value =>
      rw [valued] at refused
      cases refused
  unfold Node.typedValue at valued
  split at valued
  · rename_i error unresolved
    obtain ⟨fault, rfl⟩ := TermSort.native_error unresolved
    cases valued
  · unfold Node.value at valued
    split at valued
    · unfold Row.value at valued
      split at valued
      · cases valued
      · split at valued
        · cases valued
        · cases valued
    · rename_i applied
      cases Application.value_answers _ _ valued with
      | unsupported unsupported => exact unsupported
      | symbol named => exact absurd named (applied _)

/-- A computation that does not end for an unsupported operator. -/
def Supported {α : Type} (computed : Except Error α) : Prop :=
  ∀ operator, computed ≠ .error (.unsupported operator)

namespace Supported

open Code (Lowered Expression)

variable {operator : Operator} {operands : List Lowered}

theorem ok {α : Type} (result : α) : Supported (.ok result : Except Error α) := nofun

theorem bind {α β : Type} {computed : Except Error α} {next : α → Except Error β}
    (first : Supported computed) (second : ∀ result, Supported (next result)) :
    Supported (computed >>= next) := by
  cases computed with
  | error error =>
    intro operator failed
    cases failed
    exact first operator rfl
  | ok result => exact second result

theorem oneOperand {form : Lowered → Except Error Expression}
    (each : ∀ operand, Supported (form operand)) :
    Supported (operator.oneOperand operands form) := by
  unfold Operator.oneOperand
  split
  · exact each _
  · nofun

theorem twoOperands {form : Lowered → Lowered → Except Error Expression}
    (each : ∀ left right, Supported (form left right)) :
    Supported (operator.twoOperands operands form) := by
  unfold Operator.twoOperands
  split
  · exact each _ _
  · nofun

theorem chainOf (form : Code.ChainOperator) : Supported (operator.chainOf form operands) := by
  unfold Operator.chainOf
  split
  · nofun
  · exact ok _

theorem pairOf (form : Expression → Expression → Expression) :
    Supported (operator.pairOf operands form) :=
  twoOperands fun _ _ => ok _

theorem pairChain (form : Code.ChainOperator) : Supported (operator.pairChain form operands) :=
  pairOf _

theorem operandWidth (operand : Lowered) : Supported (operator.operandWidth operand) := by
  unfold Operator.operandWidth
  split
  · exact ok _
  · nofun

theorem resultWidth (type : NativeType) : Supported (operator.resultWidth type) := by
  unfold Operator.resultWidth
  split
  · exact ok _
  · nofun

theorem wrapping (form : Code.WrappingOperator) : Supported (operator.wrapping form operands) :=
  twoOperands fun _ _ => (operandWidth _).bind fun _ => ok _

theorem compareVectors (view : Code.View) (strict : Bool) :
    Supported (operator.compareVectors view strict operands) :=
  twoOperands fun _ _ => ((operandWidth _).bind fun _ => ok _).bind fun _ => ok _

theorem extractBits (low high : Nat) (type : NativeType) :
    Supported (operator.extractBits low high type operands) := by
  refine oneOperand fun operand => (operandWidth _).bind fun width => (resultWidth _).bind ?_
  intro result
  split
  · nofun
  · exact ok _

theorem joinVectors (type : NativeType) : Supported (operator.joinVectors type operands) := by
  refine twoOperands fun left right => (operandWidth _).bind fun high =>
    (operandWidth _).bind fun low => (resultWidth _).bind fun result => ?_
  split
  · nofun
  · exact ok _

theorem quotient (type : NativeType) : Supported (operator.quotient type operands) := by
  unfold Operator.quotient
  split
  · exact ok _
  · exact chainOf _

end Supported

theorem Operator.expression_supported {operator : Operator}
    (supported : operator.unsupported = false) (applied : ∀ name, operator ≠ .symbol name)
    (type : NativeType) (operands : List Code.Lowered) :
    Supported (operator.expression type operands) := by
  cases operator with
  | symbol name => exact absurd rfl (applied name)
  | constant => exact .ok _
  | not | bvNot | bvNeg => exact .oneOperand fun _ => .ok _
  | and | or | plus | times | bvAnd | bvOr | bvXor => exact .chainOf _
  | implies | pow | bvAShr | bvSDiv | bvComp => exact .pairOf _
  | iff | equals | le | lt | bvShl | bvLShr => exact .pairChain _
  | ite =>
    unfold expression
    dsimp only
    split
    · exact .ok _
    · nofun
  | minus =>
    unfold expression
    dsimp only
    split
    · exact .ok _
    · exact .chainOf _
  | div => exact .quotient type
  | bvAdd | bvSub | bvMul => exact .wrapping _
  | bvUDiv => exact .twoOperands fun _ _ => (Supported.operandWidth _).bind fun _ => .ok _
  | bvULt | bvULe | bvSLt | bvSLe => exact .compareVectors _ _
  | bvExtract low high => exact .extractBits low high type
  | bvConcat => exact .joinVectors type
  | bvURem | bvSRem | bvRotateLeft | bvRotateRight | bvZeroExtend | bvSignExtend
  | bvToNat | select | store | arrayValue | toReal | forAll | «exists» | apply => cases supported

namespace Code

theorem register_supported (columns : Columns) (name : String) (type : NativeType) :
    Supported (columns.register name type) := by
  unfold Columns.register
  split
  · split
    · exact .ok _
    · nofun
  · dsimp only
    split
    · nofun
    · exact .ok _

theorem lowerTyped_supported {operator : Operator} (supported : operator.unsupported = false)
    (type : NativeType) (operands : List Lowered) (draft : Draft) :
    Supported (lowerTyped operator type operands draft) := by
  intro other refused
  unfold lowerTyped at refused
  split at refused
  · rename_i name
    split at refused
    · rename_i clash
      cases refused
      exact register_supported draft.columns name type other clash
    · cases refused
  · rename_i applied
    split at refused
    · rename_i unformed
      cases refused
      exact Operator.expression_supported supported applied type operands other unformed
    · split at refused <;> cases refused

theorem lowering_refusing : lowering.Refusing := by
  refine ⟨rfl, fun node operands draft operator refused => ?_⟩
  by_contra supported
  rw [Bool.not_eq_true] at supported
  have written := fun type => lowerTyped_supported supported type operands draft operator
  simp only [lowering, lower] at refused
  split at refused
  · rename_i unresolved
    obtain ⟨fault, rfl⟩ := TermSort.native_error unresolved
    cases refused
  · rename_i type _
    split at refused
    · split at refused
      · cases refused
      · exact written type refused
    · exact written type refused

end Code

/-- A node that can be neither evaluated nor lowered: its operator is unsupported, or its sort has
no machine type. -/
def Node.Intractable (node : Node) : Prop :=
  node.operator.unsupported ∨ ∃ error, node.sort.native = .error error

namespace Formula

variable {formula : Formula} {row : Row} {index : Nat}

theorem evaluateAt_ok {value : Value} (evaluated : formula.evaluateAt row index = .ok value) :
    (evaluation row index).run formula () = .ok (value, ()) := by
  unfold evaluateAt at evaluated
  cases walked : (evaluation row index).run formula () with
  | error error =>
    rw [walked] at evaluated
    cases evaluated
  | ok pair =>
    rw [walked] at evaluated
    cases evaluated
    rfl

theorem evaluateAt_native {value : Value} (evaluated : formula.evaluateAt row index = .ok value)
    {id : NodeId} {node : Node} (path : formula.arena.Reaches formula.root id)
    (found : formula.arena.node? id = some node) : ∃ type, node.sort.native = .ok type := by
  have step : ∀ (id : NodeId) (node : Node) (passage after : Pass.Passage Unit Value),
      (evaluation row index).depart id node passage = .ok after →
        ∃ type, node.sort.native = .ok type := by
    intro id node passage after left
    obtain ⟨arguments, value, _, done, _⟩ := Pass.depart_ok left
    cases native : node.sort.native with
    | ok type => exact ⟨type, rfl⟩
    | error error => simp [evaluation, Node.typedValue, native, Except.map] at done
  exact Pass.run_left step (evaluateAt_ok evaluated) path found

/-- What was answered depends on no node that is refused. -/
theorem tractable {id : NodeId} {node : Node} (path : formula.arena.Reaches formula.root id)
    (found : formula.arena.node? id = some node) (supported : formula.firstUnsupported? = none)
    (native : ∃ type, node.sort.native = .ok type) : ¬ node.Intractable := by
  rintro (unsupported | ⟨error, unresolved⟩)
  · have nothing := List.findSome?_eq_none_iff.mp supported id (Arena.mem_preorder_iff.mpr path)
    rw [Arena.unsupportedAt?_found found, if_pos unsupported] at nothing
    cases nothing
  · obtain ⟨type, resolved⟩ := native
    rw [unresolved] at resolved
    cases resolved

end Formula

/-- A formula that depends on an unsupported operator, or on a sort without a machine type, is not
lowered and has no value under any row. An answer that names an unsupported operator names the
first one on the preorder of the root; so evaluation and lowering never name different ones. -/
theorem unsupported_refused (formula : Formula) (row : Row) (index : Nat) :
    (∀ id node, formula.arena.Reaches formula.root id → formula.arena.node? id = some node →
      node.Intractable → (∀ function, formula.lower ≠ .ok function) ∧
        ∀ value, formula.evaluateAt row index ≠ .ok value) ∧
    (∀ operator, formula.lower = .error (.unsupported operator) ∨
      formula.evaluateAt row index = .error (.unsupported operator) →
        formula.firstUnsupported? = some operator) ∧
    ∀ first second, formula.lower = .error (.unsupported first) →
      formula.evaluateAt row index = .error (.unsupported second) → first = second := by
  have named : ∀ operator, formula.lower = .error (.unsupported operator) ∨
      formula.evaluateAt row index = .error (.unsupported operator) →
        formula.firstUnsupported? = some operator := by
    rintro operator (failed | failed)
    · exact Pass.answer_unsupported Code.lowering_refusing failed
    · exact Pass.answer_unsupported (evaluation_refusing row index) failed
  refine ⟨fun id node path found intractable => ⟨?_, ?_⟩, named, ?_⟩
  · intro function lowered
    obtain ⟨_, _, walked, _⟩ := Code.lower_ok lowered
    exact Formula.tractable path found (Pass.run_supported Code.lowering_refusing walked)
      (Code.lower_native lowered path found) intractable
  · intro value evaluated
    have walked := Formula.evaluateAt_ok evaluated
    exact Formula.tractable path found
      (Pass.run_supported (evaluation_refusing row index) walked)
      (Formula.evaluateAt_native evaluated path found) intractable
  · intro first second lowered evaluated
    have same := (named first (.inl lowered)).symm.trans (named second (.inr evaluated))
    exact Option.some.inj same

/-- The remainder stands below the conversion, though it comes first in the arena. -/
def convertedRemainder : Formula where
  arena := .ofNodes #[⟨.symbol "x", [], .bitVec 8⟩, ⟨.bvURem, [0, 0], .bitVec 8⟩,
    ⟨.symbol "y", [], .int⟩, ⟨.bvToNat, [1], .int⟩, ⟨.plus, [2, 3], .int⟩]
  root := 4
  ordered := by decide
  rooted := by decide

theorem unsupported_refused_convertedRemainder :
    let row := Row.empty.insert "y" (.int 1)
    convertedRemainder.lower = .error (.unsupported .bvToNat) ∧
      convertedRemainder.evaluateAt row 0 = .error (.unsupported .bvToNat) ∧
      convertedRemainder.firstUnsupported? = some .bvToNat ∧
      ∀ value, convertedRemainder.evaluateAt .empty 0 ≠ .ok value := by
  intro row
  have lowered : convertedRemainder.lower = .error (.unsupported .bvToNat) := by cbv
  have evaluated : convertedRemainder.evaluateAt row 0 = .error (.unsupported .bvToNat) := by cbv
  have first := (unsupported_refused convertedRemainder row 0).2.1 _ (.inl lowered)
  have path : convertedRemainder.arena.Reaches 4 3 := .child .root rfl (by decide)
  exact ⟨lowered, evaluated, first,
    ((unsupported_refused convertedRemainder .empty 0).1 3 _ path rfl (.inl rfl)).2⟩

end Formulary
