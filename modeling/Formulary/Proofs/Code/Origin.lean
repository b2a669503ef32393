import Formulary.Proofs.Code.Acceptance

/-! Where the parts of an evaluator function come from. What stands for a node is written with
what stands for its children, as the operator of the node has it; this stays so while the function
grows, and every declaration was written for a node that the root depends on. -/
namespace Formulary.Code

namespace Expression

/-- The expressions that an expression puts together. -/
def immediate : Expression → List Expression
  | argument _ | temporary _ | literal _ => []
  | unary _ operand | extract _ _ _ _ operand => [operand]
  | chain _ operands => operands
  | conditional condition first second => [condition, first, second]
  | implication left right | integerQuotient left right | integerPower left right
  | realPower left right | wrapping _ _ left right | unsignedQuotient _ left right
  | signedQuotient left right | signedShiftRight left right | compare _ _ left right
  | sameBits left right | concat _ _ _ left right => [left, right]

theorem sizeOf_immediate {part whole : Expression} (member : part ∈ whole.immediate) :
    sizeOf part < sizeOf whole := by
  cases whole with
  | argument | temporary | literal => cases member
  | chain operator operands =>
    have inside : sizeOf part < sizeOf operands := List.sizeOf_lt_of_mem member
    simp only [chain.sizeOf_spec]
    omega
  | unary | extract =>
    cases List.mem_singleton.mp member
    simp
  | conditional =>
    simp only [immediate, List.mem_cons, List.not_mem_nil, or_false] at member
    rcases member with rfl | rfl | rfl <;> simp <;> omega
  | _ =>
    rcases List.mem_pair.mp member with rfl | rfl <;> simp <;> omega

/-- What holds of an expression when it holds of all that it puts together holds of every
expression. -/
theorem inductOn {motive : Expression → Prop} (expression : Expression)
    (step : ∀ expression, (∀ part ∈ expression.immediate, motive part) → motive expression) :
    motive expression :=
  step expression fun part _ => inductOn part step
termination_by expression
decreasing_by exact sizeOf_immediate ‹_›

/-- An expression that is written within another, or is that one. -/
inductive Part (part : Expression) : Expression → Prop where
  | whole : Part part part
  | within {operand whole : Expression} (member : operand ∈ whole.immediate)
      (inside : Part part operand) : Part part whole

theorem Part.trans {part middle whole : Expression} (inner : Part part middle)
    (outer : Part middle whole) : Part part whole := by
  induction outer with
  | whole => exact inner
  | within member _ ih => exact .within member ih

end Expression

open Expression (Part)

def Function.Emits (function : Function) (part : Expression) : Prop :=
  (∃ statement ∈ function.statements, Part part statement.value) ∨
    Part part function.result.expression

/-- What may stand for a node, given what stands for its children. -/
inductive Written (columns : Columns) (statements : List Statement) (node : Node)
    (operands : List Lowered) : Lowered → Prop where
  | kept {only : Lowered} (keeps : node.operator.keepsSingle) (single : operands = [only]) :
      Written columns statements node operands only
  | symbol {name identifier : String} {type : NativeType} (named : node.operator = .symbol name)
      (listed : ∃ column ∈ columns.list, column.identifier = identifier ∧ column.type = type) :
      Written columns statements node operands ⟨.argument identifier, type, false⟩
  | declared {target : Temporary} {value : Expression}
      (formed : node.operator.expression target.type operands = .ok value)
      (declares : node.operator.isDeclared) (member : ⟨target, value⟩ ∈ statements) :
      Written columns statements node operands ⟨.temporary target, target.type, true⟩
  | inline {type : NativeType} {expression : Expression}
      (formed : node.operator.expression type operands = .ok expression)
      (undeclared : node.operator.isDeclared = false)
      (several : node.operator.keepsSingle → ∀ only, operands ≠ [only]) :
      Written columns statements node operands ⟨expression, type, false⟩

/-- The function so far has all that it had before. -/
structure Draft.Includes (later earlier : Draft) : Prop where
  columns : ∀ column ∈ earlier.columns.list, column ∈ later.columns.list
  statements : ∀ statement ∈ earlier.statements, statement ∈ later.statements

theorem Written.mono {draft next : Draft} {node : Node} {operands : List Lowered}
    {lowered : Lowered} (written : Written draft.columns draft.statements node operands lowered)
    (includes : next.Includes draft) :
    Written next.columns next.statements node operands lowered := by
  cases written with
  | kept keeps single => exact .kept keeps single
  | symbol named listed =>
    obtain ⟨column, member, same⟩ := listed
    exact .symbol named ⟨column, includes.columns column member, same⟩
  | declared formed declares member =>
    exact .declared formed declares (includes.statements _ member)
  | inline formed undeclared several => exact .inline formed undeclared several

section Lowering

variable {node : Node} {operands : List Lowered} {draft next : Draft} {lowered : Lowered}

theorem Lowers.includes (lowers : Lowers node operands draft lowered next) :
    next.Includes draft := by
  cases lowers with
  | kept | inline => exact ⟨fun _ member => member, fun _ member => member⟩
  | symbol _ _ registered =>
    refine ⟨fun column member => ?_, fun _ member => member⟩
    rcases register_ok registered with ⟨_, _, _, _, _, rfl⟩ | ⟨_, _, rfl⟩
    · exact member
    · exact List.mem_append_left _ member
  | declared => exact ⟨fun _ member => member, fun _ member => List.mem_append_left _ member⟩

theorem Lowers.written (lowers : Lowers node operands draft lowered next) :
    Written next.columns next.statements node operands lowered := by
  cases lowers with
  | kept _ keeps single => exact .kept keeps single
  | symbol _ named registered =>
    apply Written.symbol named
    rcases register_ok registered with ⟨column, member, _, sameType, same, rfl⟩ | ⟨_, _, rfl⟩
    · exact ⟨column, member, same, sameType⟩
    · exact ⟨_, List.mem_append_right _ (List.mem_singleton_self _), rfl, rfl⟩
  | declared _ formed declares =>
    apply Written.declared formed declares
    exact List.mem_append_right _ (List.mem_singleton_self _)
  | inline _ formed undeclared several => exact .inline formed undeclared several

theorem Lowers.statement (lowers : Lowers node operands draft lowered next)
    {statement : Statement} (member : statement ∈ next.statements) :
    statement ∈ draft.statements ∨ (node.sort.native = .ok statement.target.type ∧
      node.operator.isDeclared ∧
      node.operator.expression statement.target.type operands = .ok statement.value) := by
  cases lowers with
  | kept | symbol | inline => exact .inl member
  | declared native formed declares =>
    rcases List.mem_append.mp member with old | new
    · exact .inl old
    · cases List.mem_singleton.mp new
      exact .inr ⟨native, declares, formed⟩

end Lowering

/-- What is known of a passage: every result was written for its node from the results of the
node's children, and so was the value of every declaration. -/
structure Traced (formula : Formula) (memo : Std.HashMap NodeId Lowered) (columns : Columns)
    (statements : List Statement) : Prop where
  result : ∀ id lowered, memo[id]? = some lowered → ∃ node operands,
    formula.arena.node? id = some node ∧
    List.Forall₂ (fun child operand => memo[child]? = some operand) node.children operands ∧
    Written columns statements node operands lowered
  statement : ∀ statement ∈ statements, ∃ id node operands,
    formula.arena.Reaches formula.root id ∧ formula.arena.node? id = some node ∧
    List.Forall₂ (fun child operand => memo[child]? = some operand) node.children operands ∧
    node.sort.native = .ok statement.target.type ∧ node.operator.isDeclared ∧
    node.operator.expression statement.target.type operands = .ok statement.value

variable {formula : Formula}

theorem Traced.start : Traced formula ∅ .empty [] where
  result := by simp
  statement _ member := nomatch member

theorem Traced.depart {passage after : Pass.Passage Draft Lowered} {id : NodeId} {node : Node}
    (traced : Traced formula passage.1 passage.2.columns passage.2.statements)
    (path : formula.arena.Reaches formula.root id) (found : formula.arena.node? id = some node)
    (unknown : passage.1.contains id = false)
    (left : lowering.depart id node passage = .ok after) :
    Traced formula after.1 after.2.columns after.2.statements := by
  obtain ⟨operands, lowered, gathered, done, remembered⟩ := Pass.depart_ok left
  have lowers := lower_cases done
  -- The node had no result before, so no other result is replaced.
  have kept : ∀ (other : NodeId) (result : Lowered), passage.1[other]? = some result →
      after.1[other]? = some result := by
    intro other result known
    rw [remembered, Std.HashMap.getElem?_insert]
    split
    · rename_i same
      rw [← beq_iff_eq.mp same] at known
      rw [Pass.contains_of_found known] at unknown
      cases unknown
    · exact known
  have gatheredKept : ∀ {children : List NodeId} {results : List Lowered},
      List.Forall₂ (fun child result => passage.1[child]? = some result) children results →
      List.Forall₂ (fun child result => after.1[child]? = some result) children results :=
    fun related => related.imp kept
  refine ⟨fun other result inMemo => ?_, fun statement member => ?_⟩
  · rw [remembered, Std.HashMap.getElem?_insert] at inMemo
    split at inMemo
    · rename_i same
      cases inMemo
      rw [← beq_iff_eq.mp same]
      exact ⟨node, operands, found, gatheredKept (Pass.arguments_ok.mp gathered), lowers.written⟩
    · obtain ⟨stored, results, there, related, written⟩ := traced.result other result inMemo
      exact ⟨stored, results, there, gatheredKept related, written.mono lowers.includes⟩
  · rcases lowers.statement member with old | ⟨native, declares, formed⟩
    · obtain ⟨other, stored, results, reached, there, related, rest⟩ :=
        traced.statement statement old
      exact ⟨other, stored, results, reached, there, gatheredKept related, rest⟩
    · exact ⟨id, node, operands, path, found, gatheredKept (Pass.arguments_ok.mp gathered), native,
        declares, formed⟩

/-- Children and their results correspond. -/
theorem related_members {α β : Type} {relation : α → β → Prop} {left : List α} {right : List β}
    (related : List.Forall₂ relation left right) :
    (∀ first ∈ left, ∃ second ∈ right, relation first second) ∧
      ∀ second ∈ right, ∃ first ∈ left, relation first second := by
  induction related with
  | nil => simp
  | @cons first second lefts rights here _ ih =>
    constructor
    · intro element member
      rcases List.mem_cons.mp member with rfl | later
      · exact ⟨second, List.mem_cons_self, here⟩
      · obtain ⟨other, listed, relates⟩ := ih.1 element later
        exact ⟨other, List.mem_cons_of_mem second listed, relates⟩
    · intro element member
      rcases List.mem_cons.mp member with rfl | later
      · exact ⟨first, List.mem_cons_self, here⟩
      · obtain ⟨other, listed, relates⟩ := ih.2 element later
        exact ⟨other, List.mem_cons_of_mem first listed, relates⟩

/-- What is known of the results of a walk that ended with a function. -/
structure Accounted (formula : Formula) (function : Function)
    (memo : Std.HashMap NodeId Lowered) : Prop where
  recorded : Recorded formula memo function.columns
  traced : Traced formula memo function.columns function.statements
  atRoot : memo[formula.root]? = some function.result
  covers : ∀ id, formula.arena.Reaches formula.root id → ∃ lowered, memo[id]? = some lowered

theorem lower_accounted (sorted : formula.WellSorted) {function : Function}
    (lowered : formula.lower = .ok function) : ∃ memo, Accounted formula function memo := by
  obtain ⟨result, draft, walked, rfl⟩ := lower_ok lowered
  let Holds : Pass.Passage Draft Lowered → Prop := fun passage =>
    Recorded formula passage.1 passage.2.columns ∧
      Traced formula passage.1 passage.2.columns passage.2.statements
  have step : ∀ id node passage after, formula.arena.Reaches formula.root id →
      formula.arena.node? id = some node → Holds passage → passage.1.contains id = false →
      lowering.depart id node passage = .ok after → Holds after := by
    intro id node passage after path found holds unknown left
    exact ⟨depart_recorded sorted id node passage after path found holds.1 unknown left,
      holds.2.depart path found unknown left⟩
  have start : Holds (∅, .empty) := ⟨.start, .start⟩
  obtain ⟨memo, ⟨recorded, traced⟩, atRoot, covers⟩ := Pass.run_reached start step walked
  exact ⟨memo, recorded, traced, atRoot, covers⟩

end Formulary.Code
