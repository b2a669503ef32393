import Formulary.Proofs.Arena.Sharing
import Formulary.Proofs.Code.Acceptance
import Formulary.Proofs.Traversal.Preorder

/-! Columns in the order of first encounters. Lowering leaves a node after its children and
listing symbols comes to a node before them, yet a symbol has no children; so both meet the
symbols of a formula in one order, and the columns of an evaluator function are these symbols. -/
namespace Formulary

namespace Arena

variable {arena : Arena} {id : NodeId} {column : Column}

def LeafSymbols (arena : Arena) : Prop :=
  ∀ id node name, arena.node? id = some node → node.operator = .symbol name → node.children = []

/-- The column of the symbol at a position, if there is a symbol and its sort has a machine
type. -/
def columnAt? (arena : Arena) (id : NodeId) : Option Column :=
  (arena.symbolAt? id).bind fun symbol =>
    symbol.2.native.toOption.map fun type => ⟨symbol.1, identifierOf symbol.1, type⟩

theorem symbolAt?_eq_some {name : String} {sort : TermSort} :
    arena.symbolAt? id = some (name, sort) ↔
      ∃ node, arena.node? id = some node ∧ node.operator = .symbol name ∧ node.sort = sort := by
  unfold symbolAt? Node.symbol?
  cases arena.node? id with
  | none => simp
  | some node => cases named : node.operator <;> simp [named]

theorem columnAt?_eq_some :
    arena.columnAt? id = some column ↔
      ∃ node, arena.node? id = some node ∧ node.operator = .symbol column.name ∧
        node.sort.native = .ok column.type ∧ column.identifier = identifierOf column.name := by
  unfold columnAt?
  rw [Option.bind_eq_some_iff]
  constructor
  · rintro ⟨⟨name, sort⟩, symbol, made⟩
    obtain ⟨node, found, named, rfl⟩ := symbolAt?_eq_some.mp symbol
    cases native : node.sort.native with
    | error error => simp [native, Except.toOption] at made
    | ok type =>
      have same : (⟨name, identifierOf name, type⟩ : Column) = column := by
        simpa [native, Except.toOption] using made
      subst same
      exact ⟨node, found, named, native, rfl⟩
  · rintro ⟨node, found, named, native, identified⟩
    refine ⟨(column.name, node.sort), symbolAt?_eq_some.mpr ⟨node, found, named, rfl⟩, ?_⟩
    obtain ⟨name, identifier, type⟩ := column
    simp only at identified
    subst identified
    simp [native, Except.toOption]

theorem columnAt?_eq_none {node : Node} (found : arena.node? id = some node)
    (applied : ∀ name, node.operator ≠ .symbol name) : arena.columnAt? id = none := by
  cases placed : arena.columnAt? id with
  | none => rfl
  | some column =>
    obtain ⟨other, again, named, _⟩ := columnAt?_eq_some.mp placed
    rw [found] at again
    cases again
    exact absurd named (applied column.name)

/-- Where every symbol is there once, a column comes from one position. -/
theorem columnAt?_injective (distinct : arena.Distinct) (leaves : arena.LeafSymbols)
    {first second : NodeId} {left right : Column} (here : arena.columnAt? first = some left)
    (there : arena.columnAt? second = some right) (sameName : left.name = right.name)
    (sameType : left.type = right.type) : first = second := by
  obtain ⟨one, foundOne, namedOne, nativeOne, _⟩ := columnAt?_eq_some.mp here
  obtain ⟨two, foundTwo, namedTwo, nativeTwo, _⟩ := columnAt?_eq_some.mp there
  apply Fin.ext
  apply distinct foundOne foundTwo
  unfold Node.key
  rw [namedOne, namedTwo, sameName, leaves _ _ _ foundOne namedOne, leaves _ _ _ foundTwo namedTwo,
    TermSort.native_ok nativeOne, TermSort.native_ok nativeTwo, sameType]

end Arena

namespace Code

section Walks

variable {arena : Arena} {ordered : arena.Ordered} {passage after : Pass.Passage Draft Lowered}

/-- Every column so far comes from a symbol that was left, and no two have one identifier. -/
structure Placed (arena : Arena) (passage : Pass.Passage Draft Lowered) : Prop where
  closed : Pass.Closed arena passage.1
  backed : ∀ column ∈ passage.2.columns.list,
    ∃ id, passage.1.contains id ∧ arena.columnAt? id = some column
  distinct : (passage.2.columns.list.map (·.identifier)).Nodup

theorem Placed.start : Placed arena (∅, .empty) := by
  refine ⟨by simp [Pass.Closed], ?_, ?_⟩
  · intro column member
    cases member
  · exact List.nodup_nil

theorem Placed.depart (placed : Placed arena passage) (distinct : arena.Distinct)
    (leaves : arena.LeafSymbols) {id : NodeId} {node : Node}
    (found : arena.node? id = some node) (unknown : passage.1.contains id = false)
    (left : lowering.depart id node passage = .ok after) :
    Placed arena after ∧
      after.2.columns.list = passage.2.columns.list ++ (arena.columnAt? id).toList := by
  obtain ⟨operands, lowered, _, done, remembered⟩ := Pass.depart_ok left
  have closed := Pass.depart_closed found left placed.closed
  have kept : ∀ other, passage.1.contains other → after.1.contains other := by
    intro other known
    rw [remembered, Std.HashMap.contains_insert, known, Bool.or_true]
  have backed : ∀ column ∈ passage.2.columns.list,
      ∃ other, after.1.contains other ∧ arena.columnAt? other = some column := by
    intro column member
    obtain ⟨other, known, placedAt⟩ := placed.backed column member
    exact ⟨other, kept other known, placedAt⟩
  obtain ⟨type, native, ⟨name, identifier, named, registered⟩ | ⟨applied, same⟩⟩ :=
    lower_columns done
  · have here : arena.columnAt? id = some ⟨name, identifierOf name, type⟩ :=
      Arena.columnAt?_eq_some.mpr ⟨node, found, named, native, rfl⟩
    rcases register_ok registered with
      ⟨column, member, sameName, sameType, _⟩ | ⟨rfl, unclaimed, wider⟩
    · -- The symbol would be there a second time, at a position that was left before.
      obtain ⟨other, known, there⟩ := placed.backed column member
      have again := Arena.columnAt?_injective distinct leaves there here sameName sameType
      rw [again, unknown] at known
      cases known
    · have grown : after.2.columns.list =
          passage.2.columns.list ++ [⟨name, identifierOf name, type⟩] := by rw [wider]
      refine ⟨⟨closed, ?_, ?_⟩, by rw [grown, here]; rfl⟩
      · intro column member
        rw [grown] at member
        rcases List.mem_append.mp member with old | new
        · exact backed column old
        · rw [List.mem_singleton.mp new]
          exact ⟨id, by simp [remembered], here⟩
      · rw [grown, List.map_append]
        refine List.nodup_append.mpr ⟨placed.distinct, List.nodup_singleton _, ?_⟩
        rintro first old second new rfl
        obtain ⟨column, member, rfl⟩ := List.mem_map.mp old
        exact unclaimed column member (List.mem_singleton.mp new)
  · rw [same, Arena.columnAt?_eq_none found applied]
    exact ⟨⟨closed, same ▸ backed, same ▸ placed.distinct⟩, by simp⟩

/-- Going on along an order has added the columns of the symbols that it met first. -/
structure Gathered (arena : Arena) (order : List NodeId)
    (before after : Pass.Passage Draft Lowered) : Prop where
  placed : Placed arena after
  covers : Pass.Covers arena order before.1 after.1
  columns : after.2.columns.list = before.2.columns.list ++
    (Arena.firsts before.1.contains order).filterMap arena.columnAt?

theorem Gathered.append {first second : List NodeId}
    {before middle after : Pass.Passage Draft Lowered} (here : Gathered arena first before middle)
    (there : Gathered arena second middle after) :
    Gathered arena (first ++ second) before after := by
  refine ⟨there.placed, here.covers.append there.covers, ?_⟩
  have seen : Arena.firsts middle.1.contains second =
      Arena.firsts (fun id => before.1.contains id || first.contains id) second := by
    apply Arena.firsts_congr
    intro id _
    rw [Bool.eq_iff_iff, here.covers.contains_iff]
    simp
  rw [there.columns, here.columns, Arena.firsts_append, List.filterMap_append, List.append_assoc,
    seen]

theorem visitAll_gathers {list : List NodeId}
    (each : ∀ id ∈ list, ∀ before next, Placed arena before →
      lowering.visit ordered id before = .ok next →
        Gathered arena (arena.preorder ordered id) before next)
    (placed : Placed arena passage)
    (visited : lowering.visitAll ordered list passage = .ok after) :
    Gathered arena (list.flatMap (arena.preorder ordered)) passage after := by
  induction list generalizing passage with
  | nil =>
    cases visited
    exact ⟨placed, ⟨placed.closed, by simp⟩, by simp [Arena.firsts]⟩
  | cons id rest ih =>
    obtain ⟨middle, first, others⟩ := Pass.visitAll_cons visited
    have here := each id List.mem_cons_self passage middle placed first
    have there := ih (fun other member => each other (List.mem_cons_of_mem id member))
      here.placed others
    exact here.append there

/-- A visit adds the columns of the symbols that the preorder meets first. -/
theorem visit_gathers (distinct : arena.Distinct) (leaves : arena.LeafSymbols) {id : NodeId}
    (placed : Placed arena passage) (visited : lowering.visit ordered id passage = .ok after) :
    Gathered arena (arena.preorder ordered id) passage after := by
  induction id using NodeId.strongRecOn generalizing passage after with
  | ind id ih =>
    have covers := Pass.visit_covers placed.closed visited
    rcases Pass.visit_ok visited with ⟨known, rfl⟩ | ⟨node, middle, unknown, found, _, below, left⟩
    · refine ⟨placed, covers, ?_⟩
      have nothing : Arena.firsts (after.1.contains ·) (arena.preorder ordered id) = [] :=
        Arena.firsts_seen fun other listed =>
          placed.closed.reaches known (Arena.mem_preorder_iff.mp listed)
      rw [nothing, List.filterMap_nil, List.append_nil]
    · have children := visitAll_gathers (fun child member before next ready done =>
        ih child (ordered id node found child member) ready done) placed below
      have absent : middle.1.contains id = false :=
        (Pass.visitAll_children_grows found below).absent unknown (Nat.le_refl id)
      obtain ⟨placedAfter, added⟩ := children.placed.depart distinct leaves found absent left
      refine ⟨placedAfter, covers, ?_⟩
      -- The node itself is not met again below it.
      have apart : Arena.firsts (fun other => passage.1.contains other || decide (other = id))
          (node.children.flatMap (arena.preorder ordered)) =
            Arena.firsts passage.1.contains
              (node.children.flatMap (arena.preorder ordered)) := by
        apply Arena.firsts_congr
        intro other listed
        obtain ⟨child, member, inside⟩ := List.mem_flatMap.mp listed
        have smaller : other < id := Nat.lt_of_le_of_lt
          ((Arena.mem_preorder_iff.mp inside).le ordered) (ordered id node found child member)
        simp [Fin.ne_of_lt smaller]
      rw [added, children.columns, Arena.preorder_found found, Arena.firsts_cons unknown, apart,
        List.append_assoc]
      congr 1
      -- Nothing stands below a symbol, so it does not matter which of them comes first.
      cases placedAt : arena.columnAt? id with
      | none => simp [placedAt]
      | some column =>
        obtain ⟨stored, again, named, _⟩ := Arena.columnAt?_eq_some.mp placedAt
        rw [found] at again
        cases again
        simp [leaves id node column.name found named, placedAt, Arena.firsts]

end Walks

variable {formula : Formula} {function : Function}

theorem lower_native (lowered : formula.lower = .ok function) {id : NodeId} {node : Node}
    (path : formula.arena.Reaches formula.root id) (found : formula.arena.node? id = some node) :
    ∃ type, node.sort.native = .ok type := by
  obtain ⟨_, _, walked, _⟩ := lower_ok lowered
  have step : ∀ (id : NodeId) (node : Node) (passage after : Pass.Passage Draft Lowered),
      lowering.depart id node passage = .ok after → ∃ type, node.sort.native = .ok type := by
    intro id node passage after left
    obtain ⟨_, _, _, done, _⟩ := Pass.depart_ok left
    obtain ⟨type, native, _⟩ := lower_columns done
    exact ⟨type, native⟩
  exact Pass.run_left step walked path found

theorem lower_gathers (distinct : formula.arena.Distinct) (leaves : formula.arena.LeafSymbols)
    (lowered : formula.lower = .ok function) :
    function.columns.list =
        (formula.arena.preorder formula.ordered formula.root).eraseDups.filterMap
          formula.arena.columnAt? ∧
      (function.columns.list.map (·.identifier)).Nodup := by
  obtain ⟨result, draft, walked, rfl⟩ := lower_ok lowered
  obtain ⟨memo, visited, _⟩ := Pass.run_ok walked
  have gathered := visit_gathers distinct leaves .start visited
  refine ⟨?_, gathered.placed.distinct⟩
  have everything : Arena.firsts (fun id => (∅ : Std.HashMap NodeId Lowered).contains id)
      (formula.arena.preorder formula.ordered formula.root) =
        (formula.arena.preorder formula.ordered formula.root).eraseDups := by
    simp [Arena.firsts]
  rw [gathered.columns, everything]
  rfl

def resolve (symbol : String × TermSort) : Except Error (String × NativeType) :=
  symbol.2.native.map (symbol.1, ·)

theorem mapM_resolve {arena : Arena} {positions : List NodeId}
    (native : ∀ id ∈ positions, ∀ node, arena.node? id = some node →
      ∃ type, node.sort.native = .ok type) :
    (positions.filterMap arena.symbolAt?).mapM resolve =
      .ok ((positions.filterMap arena.columnAt?).map fun column => (column.name, column.type)) := by
  induction positions with
  | nil => rfl
  | cons id rest ih =>
    have others := ih fun other member => native other (List.mem_cons_of_mem id member)
    cases symbol : arena.symbolAt? id with
    | none =>
      have nothing : arena.columnAt? id = none := by rw [Arena.columnAt?, symbol]; rfl
      rw [List.filterMap_cons_none symbol, List.filterMap_cons_none nothing]
      exact others
    | some pair =>
      obtain ⟨name, sort⟩ := pair
      obtain ⟨node, found, named, rfl⟩ := Arena.symbolAt?_eq_some.mp symbol
      obtain ⟨type, typed⟩ := native id List.mem_cons_self node found
      have placed : arena.columnAt? id = some ⟨name, identifierOf name, type⟩ :=
        Arena.columnAt?_eq_some.mpr ⟨node, found, named, typed, rfl⟩
      rw [List.filterMap_cons_some symbol, List.filterMap_cons_some placed, List.mapM_cons, others]
      simp [resolve, typed, Except.map, bind, Except.bind, pure, Except.pure]

/-- Both walks meet the symbols in one order: the columns of the function are the symbols of the
formula with their machine types. These are the symbols that the root depends on, in the order in
which they are met first when every node comes before its children and these come from left to
right, and no two columns have one name. -/
theorem columns_are_symbols (nodes : List Node) (formula : Formula) (function : Function)
    (accepted : Arena.empty.extend 0 nodes = .ok formula.arena)
    (leaves : formula.arena.LeafSymbols) (lowered : formula.lower = .ok function) :
    ∃ symbols, formula.symbols = .ok symbols ∧
      symbols.mapM resolve =
        .ok (function.columns.list.map fun column => (column.name, column.type)) ∧
      (function.columns.list.map (·.name)).Nodup ∧
      (∀ name sort, (name, sort) ∈ symbols ↔ formula.HasSymbol name sort) ∧
      symbols = (formula.arena.preorder formula.ordered formula.root).eraseDups.filterMap
        formula.arena.symbolAt? := by
  have distinct := (Arena.extend_tidy accepted).distinct
  obtain ⟨columns, once⟩ := lower_gathers distinct leaves lowered
  refine ⟨_, Arena.symbols_eq formula.rooted, ?_, ?_, ?_, rfl⟩
  · rw [columns]
    refine mapM_resolve fun id listed node found => lower_native lowered ?_ found
    exact Arena.mem_preorder_iff.mp (List.mem_eraseDups.mp listed)
  · have named : function.columns.list.map (·.identifier) =
        (function.columns.list.map (·.name)).map identifierOf := by
      rw [List.map_map]
      apply List.map_congr_left
      intro column member
      rw [columns] at member
      obtain ⟨id, _, placed⟩ := List.mem_filterMap.mp member
      obtain ⟨_, _, _, _, identified⟩ := Arena.columnAt?_eq_some.mp placed
      exact identified
    exact .of_map identifierOf (named ▸ once)
  · intro name sort
    simp only [List.mem_filterMap, List.mem_eraseDups, Arena.mem_preorder_iff,
      Arena.symbolAt?_eq_some]
    constructor
    · rintro ⟨id, path, node, found, named, rfl⟩
      exact ⟨id, node, path, found, named, rfl⟩
    · rintro ⟨id, node, path, found, named, rfl⟩
      exact ⟨id, path, node, found, named, rfl⟩

/-- Two comparisons of one pair, the later symbol first, and a symbol that nothing uses. -/
def comparedTwice : Formula where
  arena := .ofNodes #[⟨.symbol "y", [], .int⟩, ⟨.symbol "z", [], .bool⟩, ⟨.symbol "x", [], .int⟩,
    ⟨.lt, [2, 0], .bool⟩, ⟨.symbol "b", [], .bool⟩, ⟨.implies, [4, 3], .bool⟩,
    ⟨.and, [3, 5], .bool⟩]
  root := 6
  ordered := by decide
  rooted := by decide

theorem columns_are_symbols_comparedTwice :
    comparedTwice.symbols = .ok [("x", .int), ("y", .int), ("b", .bool)] ∧
      ∃ function, comparedTwice.lower = .ok function ∧
        function.columns.list.map (fun column => (column.name, column.type)) =
          [("x", .int), ("y", .int), ("b", .bool)] := by
  have accepted : Arena.empty.extend 0 comparedTwice.arena.nodes.toList =
      .ok comparedTwice.arena := by
    have distinct : comparedTwice.arena.Distinct := by
      refine Arena.distinct_iff.mpr ?_
      simp [Node.key, Operator.label]
    have storable : ∀ node ∈ comparedTwice.arena.nodes, node.isStorable := by decide
    exact Arena.extend_empty_iff.mpr
      ⟨rfl, ⟨comparedTwice.ordered, distinct, storable⟩, by decide⟩
  have leaves : comparedTwice.arena.LeafSymbols := by
    intro id node name found named
    have member := Arena.mem_nodes found
    simp only [comparedTwice, Arena.ofNodes, List.mem_cons, List.not_mem_nil, or_false] at member
    rcases member with rfl | rfl | rfl | rfl | rfl | rfl | rfl <;> first | rfl | cases named
  have listed : comparedTwice.symbols = .ok [("x", .int), ("y", .int), ("b", .bool)] := by cbv
  have succeeds : comparedTwice.lower.isOk = true := by cbv
  cases lowered : comparedTwice.lower with
  | error error =>
    rw [lowered] at succeeds
    cases succeeds
  | ok function =>
    obtain ⟨symbols, same, resolved, _⟩ :=
      columns_are_symbols _ comparedTwice function accepted leaves lowered
    rw [listed] at same
    cases same
    have named : [("x", .int), ("y", .int), ("b", .bool)].mapM resolve =
        .ok [("x", .int), ("y", .int), ("b", .bool)] := rfl
    rw [named] at resolved
    exact ⟨listed, function, rfl, (Except.ok.inj resolved).symm⟩

end Code

end Formulary
