import Formulary.Proofs.Code.Agreement
import Formulary.Proofs.Code.Scope

/-! Evaluator functions compute what evaluation does. While a formula is lowered, the
function so far can be executed on every row that binds its symbols, and what stands for a
node has the node's value; lowering one more node keeps this. -/
namespace Formulary.Code

theorem Lowered.Denotes.extends {before after : Environment} {lowered : Lowered} {value : Value}
    (denotes : lowered.Denotes before value) (extended : before.Extends after) :
    lowered.Denotes after value :=
  ⟨Expression.operand_extends extended lowered.expression value denotes.computes, denotes.typed⟩

/-- The function so far leads from a row to an environment, in which every column's
identifier has its value. Temporaries are numbered in order. -/
structure Draft.Runs (row : Row) (draft : Draft) (environment : Environment) : Prop where
  executes : ∃ arguments, draft.columns.list.mapM (argumentOf row) = some arguments ∧
    executeAll draft.statements arguments = some environment
  named : ∀ column ∈ draft.columns.list, column.identifier = identifierOf column.name
  bound : ∀ column ∈ draft.columns.list, ∃ literal, row.get? column.name = some literal ∧
    environment.lookup column.identifier = some (.ofLiteral literal)
  numbered : ∀ statement ∈ draft.statements,
    statement.target.number < draft.counters.getD statement.target.type 0

theorem Draft.empty_runs (row : Row) : Draft.empty.Runs row [] where
  executes := ⟨[], rfl, rfl⟩
  named _ member := nomatch member
  bound _ member := nomatch member
  numbered _ member := nomatch member

theorem argumentOf_ok {row : Row} {column : Column} {argument : String × Value}
    (made : argumentOf row column = some argument) : argument.1 = column.identifier := by
  obtain ⟨literal, _, formed⟩ := Option.bind_eq_some_iff.mp made
  dsimp only at formed
  split at formed
  · cases formed
    rfl
  · cases formed

theorem arguments_lookup {row : Row} {columns : List Column} {arguments : Environment}
    (made : columns.mapM (argumentOf row) = some arguments) {name : String}
    (other : ∀ column ∈ columns, column.identifier ≠ name) : arguments.lookup name = none := by
  induction columns generalizing arguments with
  | nil =>
    cases made
    rfl
  | cons column rest ih =>
    rw [List.mapM_cons] at made
    obtain ⟨⟨identifier, value⟩, first, more⟩ := Option.bind_eq_some_iff.mp made
    obtain ⟨others, remaining, joined⟩ := Option.bind_eq_some_iff.mp more
    cases joined
    have named : identifier = column.identifier := argumentOf_ok first
    have different : (name == identifier) = false := by
      rw [named]
      exact beq_eq_false_iff_ne.mpr (other column List.mem_cons_self).symm
    rw [List.lookup_cons, different]
    exact ih remaining fun later member => other later (List.mem_cons_of_mem _ member)

/-- A symbol has the column of its name and type, or gets one with a new name and a new
identifier. -/
theorem register_ok {columns after : Columns} {name identifier : String} {type : NativeType}
    (registered : columns.register name type = .ok (identifier, after)) :
    (∃ column ∈ columns.list, column.name = name ∧ column.type = type ∧
      column.identifier = identifier ∧ after = columns) ∨
    (identifier = identifierOf name ∧
      (∀ column ∈ columns.list, column.identifier ≠ identifier) ∧
      after = ⟨columns.list ++ [⟨name, identifier, type⟩]⟩) := by
  unfold Columns.register at registered
  split at registered
  · rename_i column found
    split at registered
    · rename_i sameType
      cases registered
      have sameName := List.find?_some found
      exact .inl ⟨column, List.mem_of_find?_eq_some found, by simpa using sameName, sameType, rfl,
        rfl⟩
    · cases registered
  · dsimp only at registered
    split at registered
    · cases registered
    · rename_i unclaimed
      cases registered
      refine .inr ⟨rfl, fun column member => ?_, rfl⟩
      simpa using List.find?_eq_none.mp unclaimed column member

namespace Draft.Runs

variable {row : Row} {draft : Draft} {environment : Environment}

theorem fresh (runs : draft.Runs row environment) {name : String}
    (notColumn : ∀ column ∈ draft.columns.list, column.identifier ≠ name)
    (notTemporary : ∀ statement ∈ draft.statements, statement.target.name ≠ name) :
    environment.lookup name = none := by
  obtain ⟨arguments, made, executed⟩ := runs.executes
  rw [executeAll_lookup executed notTemporary]
  exact arguments_lookup made notColumn

/-- A symbol's column, old or new, brings the symbol's value into scope. -/
theorem register (runs : draft.Runs row environment) {name identifier : String}
    {type : NativeType} {columns : Columns} {literal : Literal}
    (stored : row.get? name = some literal) (typed : (Value.ofLiteral literal).native = type)
    (registered : draft.columns.register name type = .ok (identifier, columns)) :
    ∃ after, Draft.Runs row { draft with columns } after ∧ environment.Extends after ∧
      after.lookup identifier = some (.ofLiteral literal) := by
  rcases register_ok registered with
    ⟨column, member, sameName, _, rfl, rfl⟩ | ⟨isIdentifier, unclaimed, rfl⟩
  · obtain ⟨other, known, inScope⟩ := runs.bound column member
    rw [sameName, stored] at known
    cases known
    exact ⟨environment, runs, fun _ _ kept => kept, inScope⟩
  · obtain ⟨arguments, made, executed⟩ := runs.executes
    have argument : argumentOf row ⟨name, identifier, type⟩ =
        some (identifier, .ofLiteral literal) := by
      simp [argumentOf, stored, typed]
    have notTemporary : ∀ statement ∈ draft.statements,
        statement.target.name ≠ identifier := by
      intro statement _
      rw [isIdentifier]
      exact statement.target.name_ne_identifierOf name
    obtain ⟨after, executedAfter, extended⟩ :=
      executeAll_extends (Environment.extends_append arguments
        [(identifier, .ofLiteral literal)]) executed
    have inScope : after.lookup identifier = some (.ofLiteral literal) := by
      rw [executeAll_lookup executedAfter notTemporary, List.lookup_append,
        arguments_lookup made unclaimed]
      simp
    refine ⟨after, ⟨⟨_, ?_, executedAfter⟩, ?_, ?_, runs.numbered⟩, extended, inScope⟩
    · simp [List.mapM_append, made, argument]
    · intro column member
      rcases List.mem_append.mp member with old | new
      · exact runs.named column old
      · cases List.mem_singleton.mp new
        exact isIdentifier
    · intro column member
      rcases List.mem_append.mp member with old | new
      · obtain ⟨other, known, kept⟩ := runs.bound column old
        exact ⟨other, known, extended _ _ kept⟩
      · cases List.mem_singleton.mp new
        exact ⟨literal, stored, inScope⟩

/-- A declaration gives its value a name that nothing had before. -/
theorem declare (runs : draft.Runs row environment) {expression : Expression} {value : Value}
    (computed : expression.value environment = some value) :
    ∃ after, Draft.Runs row (draft.declare value.native expression).2 after ∧
      environment.Extends after ∧
      (draft.declare value.native expression).1.Denotes after value := by
  obtain ⟨arguments, made, executed⟩ := runs.executes
  generalize counted : draft.counters.getD value.native 0 = number
  have declared : draft.declare value.native expression =
      (⟨.temporary ⟨value.native, number⟩, value.native, true⟩,
        { draft with
          counters := draft.counters.insert value.native (number + 1)
          statements := draft.statements ++ [⟨⟨value.native, number⟩, expression⟩] }) := by
    rw [Draft.declare, counted]
  have later : ∀ statement ∈ draft.statements,
      statement.target.name ≠ Temporary.name ⟨value.native, number⟩ := by
    intro statement member same
    have below := runs.numbered statement member
    rw [Temporary.name_injective same, counted] at below
    exact Nat.lt_irrefl number below
  have unused : environment.lookup (Temporary.name ⟨value.native, number⟩) = none := by
    refine runs.fresh (fun column member same => ?_) later
    rw [runs.named column member] at same
    exact Temporary.name_ne_identifierOf _ _ same.symm
  have extended := Environment.extends_cons unused value
  rw [declared]
  refine ⟨_, ⟨⟨arguments, made, ?_⟩, runs.named, ?_, ?_⟩, extended, ⟨?_, rfl⟩⟩
  · rw [executeAll_append, executed]
    simp [executeAll, Statement.execute, computed]
  · intro column member
    obtain ⟨literal, known, kept⟩ := runs.bound column member
    exact ⟨literal, known, extended _ _ kept⟩
  · intro statement member
    rw [Std.HashMap.getD_insert]
    rcases List.mem_append.mp member with old | new
    · have below := runs.numbered statement old
      split
      · rename_i same
        rw [← beq_iff_eq.mp same, counted] at below
        exact Nat.lt_succ_of_lt below
      · exact below
    · cases List.mem_singleton.mp new
      simp
  · exact List.lookup_cons_self

end Draft.Runs

theorem map_singleton {α β : Type} {make : α → β} {list : List α} {value : β}
    (same : [value] = list.map make) : ∃ held, list = [held] ∧ value = make held := by
  obtain ⟨held, rfl, made⟩ := List.map_eq_singleton_iff.mp same.symm
  exact ⟨held, rfl, made.symm⟩

/-- An operator that is not written for a single operand does not change it. -/
theorem keepsSingle_value {operator : Operator} {sorts : List TermSort} {sort : TermSort}
    {value : Value} (accepts : operator.Accepts sorts sort [value])
    (keeps : operator.keepsSingle = true) :
    Application.value ⟨operator, [value]⟩ = .ok value := by
  obtain ⟨signature, typed, narrow, _⟩ := accepts
  cases signature with
  | junction member more =>
    obtain ⟨list, same, _⟩ := Value.HasSort.bools typed
    obtain ⟨p, rfl, rfl⟩ := map_singleton same
    fin_cases member <;> simp [Application.value, Application.expect, Value.bools?, Value.bool?]
  | arithmetic member numeric more =>
    rcases numeric with rfl | rfl
    · obtain ⟨list, same, _⟩ := Value.HasSort.ints typed
      obtain ⟨number, rfl, rfl⟩ := map_singleton same
      fin_cases member
      · exact Application.arithmetic_ints .plus _ _ number []
      · cases keeps
      · exact Application.arithmetic_ints .times _ _ number []
      · exact Application.arithmetic_ints .div _ _ number []
    · obtain ⟨list, same, _⟩ := Value.HasSort.reals typed
      obtain ⟨number, rfl, rfl⟩ := map_singleton same
      fin_cases member
      · exact Application.arithmetic_reals .plus _ _ number []
      · cases keeps
      · exact Application.arithmetic_reals .times _ _ number []
      · exact Application.arithmetic_reals .div _ _ number []
  | bitwise member width more =>
    obtain ⟨list, same, _⟩ := Value.HasSort.vectors typed
    obtain ⟨bits, rfl, rfl⟩ := map_singleton same
    obtain _ | ⟨held, _⟩ := typed
    cases held with
    | bitVec fits =>
      have kept : Value.vector bits width = .bitVec bits width :=
        Machine.vector_of_fits narrow.2 fits
      fin_cases member
      · exact (Application.bitwise_vectors .bvAnd _ bits [] width).trans (congrArg Except.ok kept)
      · exact (Application.bitwise_vectors .bvOr _ bits [] width).trans (congrArg Except.ok kept)
      · exact (Application.bitwise_vectors .bvXor _ bits [] width).trans (congrArg Except.ok kept)
  | connective member | comparison member | inversion member | word member | order member =>
    fin_cases member <;> cases keeps
  | _ => cases keeps

theorem native_eq {value : Value} {sort : TermSort} {type : NativeType}
    (typed : value.HasSort sort) (native : sort.native = .ok type) : value.native = type := by
  cases typed with
  | bool | int | real =>
    cases native
    rfl
  | bitVec fits =>
    simp only [TermSort.native] at native
    split at native
    · cases native
      rfl
    · cases native

/-- Lowering an operator that is written down keeps the function running, and what stands
for the operator has its value. -/
theorem lowerTyped_denotes {row : Row} {draft next : Draft} {environment : Environment}
    {node : Node} {sorts : List TermSort} {values : List Value} {operands : List Lowered}
    {lowered : Lowered} {type : NativeType} (index : Nat)
    (runs : draft.Runs row environment)
    (accepts : node.operator.Accepts sorts node.sort values)
    (bound : ∀ name, node.operator = .symbol name →
      ∃ literal, row.get? name = some literal ∧ literal.sort = node.sort)
    (native : node.sort.native = .ok type)
    (denote : List.Forall₂ (Lowered.Denotes environment) operands values)
    (done : lowerTyped node.operator type operands draft = .ok (lowered, next)) :
    ∃ after value, next.Runs row after ∧ environment.Extends after ∧
      node.value row index values = .ok value ∧ lowered.Denotes after value := by
  unfold lowerTyped at done
  split at done
  · rename_i name named
    obtain ⟨literal, stored, sameSort⟩ := bound name named
    have narrow := accepts.narrow
    rw [← sameSort] at narrow native
    split at done
    · cases done
    · rename_i identifier columns registered
      cases done
      have hasType := native_eq (.ofLiteral literal narrow) native
      obtain ⟨after, running, extended, inScope⟩ := runs.register stored hasType registered
      refine ⟨after, _, running, extended, ?_, ⟨inScope, hasType⟩⟩
      simp [Node.value, named, Row.value, stored, sameSort]
  · rename_i applied
    split at done
    · cases done
    · rename_i expression formed
      obtain ⟨value, valued, computed, inside⟩ :=
        expression_agrees accepts applied native denote formed
      obtain ⟨_, valuedAgain, held⟩ := Application.value_sound accepts applied
      rw [valued] at valuedAgain
      cases valuedAgain
      have hasType := native_eq held native
      have nodeValue : node.value row index values = .ok value := by
        rw [Node.value_applied applied]
        exact valued
      split at done
      · cases done
        subst hasType
        obtain ⟨after, running, extended, denotes⟩ := runs.declare computed
        exact ⟨after, value, running, extended, nodeValue, denotes⟩
      · rename_i undeclared
        cases done
        exact ⟨environment, value, runs, fun _ _ kept => kept, nodeValue,
          ⟨inside (by simpa using undeclared), hasType⟩⟩

/-- Lowering a node keeps the function running, and what stands for the node has its
value. -/
theorem lower_denotes {row : Row} {draft next : Draft} {environment : Environment}
    {node : Node} {sorts : List TermSort} {values : List Value} {operands : List Lowered}
    {lowered : Lowered} (index : Nat)
    (runs : draft.Runs row environment)
    (accepts : node.operator.Accepts sorts node.sort values)
    (bound : ∀ name, node.operator = .symbol name →
      ∃ literal, row.get? name = some literal ∧ literal.sort = node.sort)
    (denote : List.Forall₂ (Lowered.Denotes environment) operands values)
    (done : lower node operands draft = .ok (lowered, next)) :
    ∃ after value, next.Runs row after ∧ environment.Extends after ∧
      node.typedValue row index values = .ok value ∧ lowered.Denotes after value := by
  cases native : node.sort.native with
  | error error => simp [lower, native] at done
  | ok type =>
    simp only [lower, native] at done
    simp only [Node.typedValue, native]
    split at done
    · rename_i only
      split at done
      · rename_i keeps
        cases done
        obtain _ | ⟨denotes, _ | _⟩ := denote
        have applied : ∀ name, node.operator ≠ .symbol name := by
          intro name named
          rw [named] at keeps
          cases keeps
        refine ⟨environment, _, runs, fun _ _ kept => kept, ?_, denotes⟩
        rw [Node.value_applied applied]
        exact keepsSingle_value accepts keeps
      · exact lowerTyped_denotes index runs accepts bound native denote done
    · exact lowerTyped_denotes index runs accepts bound native denote done

section Walks

variable {formula : Formula} {row : Row}

/-- The function so far runs, and what stands for a node has the node's value. -/
def Simulates (formula : Formula) (row : Row) (passage : Pass.Passage Draft Lowered) : Prop :=
  ∃ environment, passage.2.Runs row environment ∧
    ∀ (id : NodeId) (lowered : Lowered), passage.1[id]? = some lowered →
      ∃ value, formula.arena.valueAt formula.ordered row 0 id = .ok value ∧
        lowered.Denotes environment value

theorem operands_of_children {environment : Environment} {memo : Std.HashMap NodeId Lowered}
    {children : List NodeId} {operands : List Lowered} {values : List Value}
    (known : ∀ (id : NodeId) (lowered : Lowered), memo[id]? = some lowered →
      ∃ value, formula.arena.valueAt formula.ordered row 0 id = .ok value ∧
        lowered.Denotes environment value)
    (remembered : List.Forall₂ (fun child lowered => memo[child]? = some lowered)
      children operands)
    (computed : List.Forall₂ (fun child value =>
      formula.arena.valueAt formula.ordered row 0 child = .ok value) children values) :
    List.Forall₂ (Lowered.Denotes environment) operands values := by
  induction remembered generalizing values with
  | nil =>
    cases computed
    exact .nil
  | cons first _ ih =>
    obtain _ | ⟨valued, others⟩ := computed
    obtain ⟨value, valuedAgain, denotes⟩ := known _ _ first
    rw [valued] at valuedAgain
    cases valuedAgain
    exact .cons denotes (ih others)

/-- Leaving a node keeps the simulation. -/
theorem depart_simulates (sorted : formula.WellSorted) (bound : formula.BoundBy row)
    {id : NodeId} {node : Node} {passage after : Pass.Passage Draft Lowered}
    (reached : formula.arena.Reaches formula.root id)
    (found : formula.arena.node? id = some node) (simulates : Simulates formula row passage)
    (left : lowering.depart id node passage = .ok after) : Simulates formula row after := by
  obtain ⟨environment, runs, known⟩ := simulates
  obtain ⟨operands, lowered, gathered, done, remembered⟩ := Pass.depart_ok left
  obtain ⟨sorts, values, computed, accepts⟩ :=
    Formula.children_sound sorted bound reached found
  have denote := operands_of_children known (Pass.arguments_ok.mp gathered)
    (mapM_ok.mp computed)
  obtain ⟨next, value, running, extended, valued, denotes⟩ :=
    lower_denotes 0 runs accepts (bound id node · reached found) denote done
  refine ⟨next, running, fun other result inMemo => ?_⟩
  rw [remembered, Std.HashMap.getElem?_insert] at inMemo
  split at inMemo
  · rename_i same
    cases inMemo
    rw [← beq_iff_eq.mp same]
    refine ⟨value, ?_, denotes⟩
    rw [Arena.valueAt_found found, Node.enters accepts.signature.supported, computed]
    exact valued
  · obtain ⟨old, valuedOld, denotesOld⟩ := known other result inMemo
    exact ⟨old, valuedOld, denotesOld.extends extended⟩

end Walks

/-- Executing the evaluator function of a well-sorted formula on a row gives the value of
the formula under the row. -/
theorem execute_eq_evaluate (formula : Formula) (row : Row) (function : Function)
    (sorted : formula.WellSorted) (bound : formula.BoundBy row)
    (lowered : formula.lower = .ok function) :
    ∃ value, formula.evaluate row = .ok value ∧ function.execute row = some value := by
  unfold Formula.lower at lowered
  cases walked : lowering.run formula .empty with
  | error error =>
    rw [walked] at lowered
    cases lowered
  | ok pair =>
    obtain ⟨result, draft⟩ := pair
    rw [walked] at lowered
    cases lowered
    have start : Simulates formula row (∅, .empty) := by
      refine ⟨[], Draft.empty_runs row, fun id lowered inMemo => ?_⟩
      simp at inMemo
    obtain ⟨memo, ⟨environment, runs, known⟩, atRoot⟩ := Pass.run_sound start
      (fun id node passage after reached found simulates _ left =>
        depart_simulates sorted bound reached found simulates left) walked
    obtain ⟨value, valued, denotes⟩ := known formula.root result atRoot
    obtain ⟨arguments, made, executed⟩ := runs.executes
    refine ⟨value, (formula.evaluateAt_eq row 0).trans valued, ?_⟩
    simp [Function.execute, made, executed, value_of_operand denotes.computes, denotes.typed]

end Formulary.Code
