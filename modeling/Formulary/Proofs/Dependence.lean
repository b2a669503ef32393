import Formulary.Proofs.Code.Columns

namespace Formulary

/-- The rows bind the symbols that the root depends on to the same literals, or do not bind
them. -/
def Formula.BoundAlike (formula : Formula) (left right : Row) : Prop :=
  ∀ name sort, formula.HasSymbol name sort → left.get? name = right.get? name

/-- The symbols that are listed are those that the root depends on. -/
theorem Formula.symbols_listed (formula : Formula) :
    ∃ symbols, formula.symbols = .ok symbols ∧
      ∀ name sort, (name, sort) ∈ symbols ↔ formula.HasSymbol name sort := by
  have listed : formula.symbols =
      .ok ((formula.arena.preorder formula.ordered formula.root).eraseDups.filterMap
        formula.arena.symbolAt?) := Arena.symbols_eq formula.rooted
  refine ⟨_, listed, fun name sort => ?_⟩
  simp only [List.mem_filterMap, List.mem_eraseDups, Arena.mem_preorder_iff,
    Arena.symbolAt?_eq_some]
  constructor
  · rintro ⟨id, path, node, found, named, rfl⟩
    exact ⟨id, node, path, found, named, rfl⟩
  · rintro ⟨id, node, path, found, named, rfl⟩
    exact ⟨id, path, node, found, named, rfl⟩

section Evaluating

variable {formula : Formula} {left right : Row}

theorem Node.typedValue_alike {node : Node} (index : Nat) (arguments : List Value)
    (alike : ∀ name, node.operator = .symbol name → left.get? name = right.get? name) :
    node.typedValue left index arguments = node.typedValue right index arguments := by
  unfold typedValue value
  cases node.sort.native with
  | error error => rfl
  | ok type =>
    cases named : node.operator with
    | symbol name => simp only [Row.value, alike name named]
    | _ => rfl

theorem Formula.BoundAlike.valueAt (alike : formula.BoundAlike left right) (index : Nat)
    {id : NodeId} (path : formula.arena.Reaches formula.root id) :
    formula.arena.valueAt formula.ordered left index id =
      formula.arena.valueAt formula.ordered right index id := by
  induction id using NodeId.strongRecOn with
  | ind id ih =>
    obtain ⟨node, found⟩ := path.found formula.ordered formula.rooted
    have below : node.children.mapM (formula.arena.valueAt formula.ordered left index) =
        node.children.mapM (formula.arena.valueAt formula.ordered right index) :=
      mapM_congr fun child member =>
        ih child (formula.ordered id node found child member) (path.child found member)
    have here (arguments : List Value) : node.typedValue left index arguments =
        node.typedValue right index arguments :=
      node.typedValue_alike index arguments fun name named =>
        alike name node.sort ⟨id, node, path, found, named, rfl⟩
    rw [Arena.valueAt_found found, Arena.valueAt_found found, below]
    simp only [here]

theorem Formula.BoundAlike.evaluateAt (alike : formula.BoundAlike left right) (index : Nat) :
    formula.evaluateAt left index = formula.evaluateAt right index := by
  rw [formula.evaluateAt_eq, formula.evaluateAt_eq]
  exact alike.valueAt index .root

end Evaluating

namespace Code

variable {formula : Formula} {function : Function}

/-- Every column is that of a symbol that the root depends on, however the symbol's node is
formed. -/
theorem lower_backed (lowered : formula.lower = .ok function) :
    ∀ column ∈ function.columns.list, ∃ sort, formula.HasSymbol column.name sort := by
  obtain ⟨result, draft, walked, rfl⟩ := lower_ok lowered
  let Backed : Pass.Passage Draft Lowered → Prop := fun passage =>
    ∀ column ∈ passage.2.columns.list, ∃ sort, formula.HasSymbol column.name sort
  have step : ∀ id node passage after, formula.arena.Reaches formula.root id →
      formula.arena.node? id = some node → Backed passage → passage.1.contains id = false →
      lowering.depart id node passage = .ok after → Backed after := by
    intro id node passage after path found backed _ left column member
    obtain ⟨_, _, _, done, _⟩ := Pass.depart_ok left
    obtain ⟨type, _, ⟨name, identifier, named, registered⟩ | ⟨_, same⟩⟩ := lower_columns done
    · rcases register_ok registered with ⟨_, _, _, _, _, same⟩ | ⟨_, _, wider⟩
      · exact backed column (same ▸ member)
      · rw [wider] at member
        rcases List.mem_append.mp member with old | new
        · exact backed column old
        · rw [List.mem_singleton.mp new]
          exact ⟨node.sort, id, node, path, found, named, rfl⟩
    · exact backed column (same ▸ member)
  have start : Backed (∅, .empty) := by
    intro column member
    cases member
  obtain ⟨_, backed, _⟩ := Pass.run_sound start step walked
  exact backed

end Code

theorem Row.cell_alike {left right : Row} (index : Nat) {column : Column}
    (alike : left.get? column.name = right.get? column.name) :
    left.cell index column = right.cell index column := by
  unfold cell
  rw [alike]

/-- Listing the symbols of a formula succeeds. Two rows that bind each of them alike, to the same
literal or not at all, have one value, one truth value and the same cells, or are refused for the
same reasons. -/
theorem rows_told_by_symbols (formula : Formula) :
    ∃ symbols, formula.symbols = .ok symbols ∧
      ∀ left right : Row,
        (∀ name sort, (name, sort) ∈ symbols → left.get? name = right.get? name) →
        formula.evaluate left = formula.evaluate right ∧
        formula.satisfies left = formula.satisfies right ∧
        ∀ function, formula.lower = .ok function → ∀ index,
          left.cells index function.columns = right.cells index function.columns := by
  obtain ⟨symbols, listed, exactly⟩ := formula.symbols_listed
  refine ⟨symbols, listed, fun left right same => ?_⟩
  have alike : formula.BoundAlike left right := fun name sort symbol =>
    same name sort ((exactly name sort).mpr symbol)
  have evaluated : formula.evaluate left = formula.evaluate right := alike.evaluateAt 0
  refine ⟨evaluated, ?_, fun function lowered index => ?_⟩
  · rw [Formula.satisfies, Formula.satisfies, evaluated]
  · refine mapM_congr fun column member => Row.cell_alike index ?_
    obtain ⟨sort, symbol⟩ := Code.lower_backed lowered column member
    exact alike column.name sort symbol

/-- The second row lacks a symbol that is not below the root, and binds a name that is no symbol
at all. -/
theorem rows_told_by_symbols_comparedTwice :
    let common := ((Row.empty.insert "x" (.int 1)).insert "y" (.int 2)).insert "b" (.bool true)
    let left := common.insert "z" (.bool false)
    let right := common.insert "w" (.int 7)
    left ≠ right ∧
      Code.comparedTwice.symbols = .ok [("x", .int), ("y", .int), ("b", .bool)] ∧
      Code.comparedTwice.evaluate left = Code.comparedTwice.evaluate right ∧
      Code.comparedTwice.satisfies left = Code.comparedTwice.satisfies right ∧
      ∀ function, Code.comparedTwice.lower = .ok function → ∀ index,
        left.cells index function.columns = right.cells index function.columns := by
  intro common left right
  have listed : Code.comparedTwice.symbols = .ok [("x", .int), ("y", .int), ("b", .bool)] := by
    cbv
  obtain ⟨symbols, again, same⟩ := rows_told_by_symbols Code.comparedTwice
  cases listed.symm.trans again
  have alike : ∀ name sort, (name, sort) ∈ [("x", TermSort.int), ("y", .int), ("b", .bool)] →
      left.get? name = right.get? name := by
    intro name sort member
    simp only [List.mem_cons, Prod.mk.injEq, List.not_mem_nil, or_false] at member
    rcases member with ⟨rfl, _⟩ | ⟨rfl, _⟩ | ⟨rfl, _⟩ <;> rfl
  exact ⟨by decide, listed, same left right alike⟩

end Formulary
