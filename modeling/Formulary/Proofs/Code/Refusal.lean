import Formulary.Pattern
import Formulary.Proofs.Code.Simulation
import Mathlib

/-! Rows are refused alike. The columns of an evaluator function stand in the order in which
evaluation first meets their symbols, and a column takes the values of its symbol's sort; so
a row that cannot be encoded cannot be evaluated either, and for the same symbol. -/
namespace Formulary

/-- Two computations that both succeed, or fail for the same cell. What they find wrong with
the cell may differ. -/
inductive SameRefusal {α β : Type} : Except Error α → Except Error β → Prop where
  | accepted (left : α) (right : β) : SameRefusal (.ok left) (.ok right)
  | refused (row : Nat) (name : String) (first second : CellFault) :
      SameRefusal (.error (.cell row name first)) (.error (.cell row name second))

theorem SameRefusal.outcomes {α β : Type} {left : Except Error α} {right : Except Error β}
    (same : SameRefusal left right) :
    (∃ first second, left = .ok first ∧ right = .ok second) ∨
      ∃ row name first second, left = .error (.cell row name first) ∧
        right = .error (.cell row name second) := by
  cases same with
  | accepted first second => exact .inl ⟨first, second, rfl, rfl⟩
  | refused row name first second => exact .inr ⟨row, name, first, second, rfl, rfl⟩

theorem SameRefusal.ok {α β : Type} {left : α} {right : Except Error β}
    (same : SameRefusal (.ok left) right) : ∃ result, right = .ok result := by
  cases same with
  | accepted _ result => exact ⟨result, rfl⟩

/-- Computations that are refused alike may be continued by such computations. -/
theorem SameRefusal.bind {α β γ δ : Type} {left : Except Error α} {right : Except Error β}
    {f : α → Except Error γ} {g : β → Except Error δ} (same : SameRefusal left right)
    (next : ∀ first second, SameRefusal (f first) (g second)) :
    SameRefusal (left >>= f) (right >>= g) := by
  cases same with
  | accepted first second => exact next first second
  | refused row name first second => exact .refused row name first second

def NativeType.sort : NativeType → TermSort
  | bool => .bool
  | int => .int
  | real => .real
  | bitVec width => .bitVec width

namespace TermSort

variable {sort : TermSort}

theorem native_ok {type : NativeType} (resolved : sort.native = .ok type) : sort = type.sort := by
  cases sort with
  | bool | int | real =>
    cases resolved
    rfl
  | bitVec width =>
    simp only [native] at resolved
    split at resolved
    · cases resolved
      rfl
    · cases resolved
  | array | function | uninterpreted => cases resolved

theorem native_error {error : Error} (unresolved : sort.native = .error error) :
    ∃ fault, error = .sort sort fault := by
  cases sort with
  | bool | int | real => cases unresolved
  | bitVec width =>
    simp only [native] at unresolved
    split at unresolved
    · cases unresolved
    · cases unresolved
      exact ⟨_, rfl⟩
  | array | function | uninterpreted =>
    cases unresolved
    exact ⟨_, rfl⟩

end TermSort

namespace Row

variable {row : Row} {index : Nat}

/-- A column refuses what evaluation refuses for a symbol of the column's type. -/
theorem cell_value (row : Row) (index : Nat) {column : Column} {sort : TermSort}
    (native : sort.native = .ok column.type) :
    SameRefusal (row.cell index column) (row.value index column.name sort) := by
  unfold Row.cell Row.value
  cases stored : row.get? column.name with
  | none => exact .refused index column.name _ _
  | some literal =>
    by_cases same : literal.sort = sort
    · simp only [same, native, if_true]
      exact .accepted _ _
    · simp only [same, if_false]
      cases resolved : literal.sort.native with
      | error error =>
        obtain ⟨fault, rfl⟩ := TermSort.native_error resolved
        exact .refused index column.name _ _
      | ok type =>
        have different : type ≠ column.type := by
          intro equal
          rw [equal] at resolved
          exact same ((TermSort.native_ok resolved).trans (TermSort.native_ok native).symm)
        simp only [different, if_false]
        exact .refused index column.name _ _

theorem value_ok {name : String} {sort : TermSort} {value : Value}
    (valued : row.value index name sort = .ok value) :
    ∃ literal, row.get? name = some literal ∧ literal.sort = sort := by
  unfold Row.value at valued
  split at valued
  · cases valued
  · rename_i literal stored
    split at valued
    · rename_i same
      exact ⟨literal, stored, same⟩
    · cases valued

theorem cell_of_cells {columns : Columns} {cells : List String} {column : Column}
    (encoded : row.cells index columns = .ok cells) (member : column ∈ columns.list) :
    ∃ cell, row.cell index column = .ok cell :=
  related_of_mem (mapM_ok.mp encoded) member

/-- Further columns do not excuse a bad cell. -/
theorem cells_append_error {columns : Columns} {error : Error} (more : List Column)
    (failed : row.cells index columns = .error error) :
    row.cells index ⟨columns.list ++ more⟩ = .error error := by
  unfold Row.cells at failed ⊢
  rw [List.mapM_append, failed]
  rfl

end Row

namespace Code

theorem lowerTyped_columns {operator : Operator} {type : NativeType} {operands : List Lowered}
    {draft next : Draft} {lowered : Lowered}
    (done : lowerTyped operator type operands draft = .ok (lowered, next)) :
    (∃ name identifier, operator = .symbol name ∧
      draft.columns.register name type = .ok (identifier, next.columns)) ∨
    ((∀ name, operator ≠ .symbol name) ∧ next.columns = draft.columns) := by
  unfold lowerTyped at done
  split at done
  · rename_i name
    split at done
    · cases done
    · rename_i identifier columns registered
      cases done
      exact .inl ⟨name, identifier, rfl, registered⟩
  · rename_i applied
    refine .inr ⟨applied, ?_⟩
    split at done
    · cases done
    · split at done
      · cases done
        rfl
      · cases done
        rfl

theorem lower_columns {node : Node} {operands : List Lowered} {draft next : Draft}
    {lowered : Lowered} (done : lower node operands draft = .ok (lowered, next)) :
    ∃ type, node.sort.native = .ok type ∧
      ((∃ name identifier, node.operator = .symbol name ∧
        draft.columns.register name type = .ok (identifier, next.columns)) ∨
      ((∀ name, node.operator ≠ .symbol name) ∧ next.columns = draft.columns)) := by
  cases native : node.sort.native with
  | error error => simp [lower, native] at done
  | ok type =>
    refine ⟨type, rfl, ?_⟩
    simp only [lower, native] at done
    split at done
    · split at done
      · rename_i keeps
        cases done
        refine .inr ⟨fun name named => ?_, rfl⟩
        rw [named] at keeps
        cases keeps
      · exact lowerTyped_columns done
    · exact lowerTyped_columns done

/-- To a row that suits the columns so far, the column of a symbol is as good as its value. -/
theorem register_refused {row : Row} {index : Nat} {columns after : Columns}
    {name identifier : String} {sort : TermSort} {type : NativeType} {cells : List String}
    (encoded : row.cells index columns = .ok cells) (native : sort.native = .ok type)
    (registered : columns.register name type = .ok (identifier, after)) :
    SameRefusal (row.cells index after) (row.value index name sort) := by
  rcases register_ok registered with ⟨column, member, rfl, rfl, _, rfl⟩ | ⟨_, _, rfl⟩
  · obtain ⟨cell, fine⟩ := Row.cell_of_cells encoded member
    have alike := row.cell_value index native
    rw [fine] at alike
    obtain ⟨value, valued⟩ := alike.ok
    rw [encoded, valued]
    exact .accepted cells value
  · have alike : SameRefusal (row.cell index ⟨name, identifier, type⟩) _ :=
      row.cell_value index native
    have wider : row.cells index ⟨columns.list ++ [⟨name, identifier, type⟩]⟩ =
        row.cell index ⟨name, identifier, type⟩ >>= fun cell => pure (cells ++ [cell]) := by
      unfold Row.cells at encoded ⊢
      rw [List.mapM_append, encoded, List.mapM_cons, List.mapM_nil]
      cases row.cell index ⟨name, identifier, type⟩ <;> rfl
    rw [wider, ← bind_pure (row.value index name sort)]
    exact alike.bind fun cell value => .accepted (cells ++ [cell]) value

/-- Columns keep their places: those of a passage start with earlier ones. -/
def Grown (earlier : Columns) (passage : Pass.Passage Draft Lowered) : Prop :=
  ∃ more, passage.2.columns = ⟨earlier.list ++ more⟩

namespace Grown

variable {earlier : Columns} {passage after : Pass.Passage Draft Lowered}

theorem refl (passage : Pass.Passage Draft Lowered) : Grown passage.2.columns passage :=
  ⟨[], by simp⟩

theorem depart (grown : Grown earlier passage) {id : NodeId} {node : Node}
    (left : lowering.depart id node passage = .ok after) : Grown earlier after := by
  obtain ⟨more, grown⟩ := grown
  obtain ⟨operands, lowered, _, done, _⟩ := Pass.depart_ok left
  obtain ⟨type, _, ⟨name, identifier, _, registered⟩ | ⟨_, same⟩⟩ := lower_columns done
  · rcases register_ok registered with ⟨_, _, _, _, _, same⟩ | ⟨_, _, wider⟩
    · exact ⟨more, same.trans grown⟩
    · exact ⟨more ++ [⟨name, identifier, type⟩], by rw [wider, grown, List.append_assoc]⟩
  · exact ⟨more, same.trans grown⟩

theorem visit (grown : Grown earlier passage) {arena : Arena} {ordered : arena.Ordered}
    {id : NodeId} (visited : lowering.visit ordered id passage = .ok after) :
    Grown earlier after :=
  (Pass.visit_sound (fun _ _ path found _ member => path.child found member)
    (fun _ _ _ _ _ _ grown _ left => grown.depart left) Arena.Reaches.root grown visited).1

theorem visitAll (grown : Grown earlier passage) {arena : Arena} {ordered : arena.Ordered}
    {list : List NodeId} (visited : lowering.visitAll ordered list passage = .ok after) :
    Grown earlier after := by
  induction list generalizing passage with
  | nil =>
    cases visited
    exact grown
  | cons id rest ih =>
    obtain ⟨middle, first, remaining⟩ := Pass.visitAll_cons visited
    exact ih (grown.visit first) remaining

end Grown

section Walks

variable {formula : Formula} {row : Row} {index : Nat}

/-- All is well so far: the row suits every column, and every node that was left has a value
of its sort. -/
structure Suited (formula : Formula) (row : Row) (index : Nat)
    (passage : Pass.Passage Draft Lowered) : Prop where
  encodes : ∃ cells, row.cells index passage.2.columns = .ok cells
  valued : ∀ (id : NodeId) (lowered : Lowered), passage.1[id]? = some lowered →
    ∀ node, formula.arena.node? id = some node →
      ∃ value, formula.arena.valueAt formula.ordered row index id = .ok value ∧
        value.HasSort node.sort

/-- Going on from a state in which all is well, the row is refused for the columns exactly if
it is refused for the values, and for the same cell; else all is still well. -/
structure RefusedAlike {α : Type} (formula : Formula) (row : Row) (index : Nat)
    (after : Pass.Passage Draft Lowered) (values : Except Error α) : Prop where
  same : SameRefusal (row.cells index after.2.columns) values
  suited : ∀ cells, row.cells index after.2.columns = .ok cells → Suited formula row index after

theorem Suited.alike {α : Type} {passage : Pass.Passage Draft Lowered}
    (suited : Suited formula row index passage) (values : α) :
    RefusedAlike formula row index passage (.ok values) := by
  obtain ⟨cells, encoded⟩ := suited.encodes
  refine ⟨?_, fun _ _ => suited⟩
  rw [encoded]
  exact .accepted cells values

/-- A row that was refused stays refused, as columns keep their places. -/
theorem RefusedAlike.andThen {α β : Type} {middle after : Pass.Passage Draft Lowered}
    {first : Except Error α} {next : α → Except Error β}
    (here : RefusedAlike formula row index middle first)
    (grown : Grown middle.2.columns after)
    (later : ∀ value, first = .ok value → Suited formula row index middle →
      RefusedAlike formula row index after (next value)) :
    RefusedAlike formula row index after (first >>= next) := by
  rcases here.same.outcomes with
    ⟨cells, value, encoded, rfl⟩ | ⟨number, name, fault, _, refused, rfl⟩
  · exact later value rfl (here.suited cells encoded)
  · obtain ⟨more, grown⟩ := grown
    have refusedAfter : row.cells index after.2.columns = .error (.cell number name fault) :=
      grown ▸ Row.cells_append_error more refused
    refine ⟨?_, fun cells encoded => ?_⟩
    · rw [refusedAfter]
      exact .refused number name _ _
    · rw [refusedAfter] at encoded
      cases encoded

theorem RefusedAlike.map {α β : Type} {after : Pass.Passage Draft Lowered}
    {values : Except Error α} (alike : RefusedAlike formula row index after values)
    (f : α → β) : RefusedAlike formula row index after (values >>= fun value => pure (f value)) :=
  alike.andThen (Grown.refl after) fun value _ suited => suited.alike (f value)

/-- All is still well once another node has been left with a value of its sort. -/
theorem Suited.leave {passage after : Pass.Passage Draft Lowered} {id : NodeId} {node : Node}
    {lowered : Lowered} {cells : List String} {value : Value}
    (suited : Suited formula row index passage)
    (found : formula.arena.node? id = some node)
    (remembered : after.1 = passage.1.insert id lowered)
    (encoded : row.cells index after.2.columns = .ok cells)
    (valued : formula.arena.valueAt formula.ordered row index id = .ok value)
    (held : value.HasSort node.sort) : Suited formula row index after := by
  refine ⟨⟨cells, encoded⟩, fun other result inMemo otherNode otherFound => ?_⟩
  rw [remembered, Std.HashMap.getElem?_insert] at inMemo
  split at inMemo
  · rename_i same
    rw [← beq_iff_eq.mp same, found] at otherFound
    cases otherFound
    rw [← beq_iff_eq.mp same]
    exact ⟨value, valued, held⟩
  · exact suited.valued other result inMemo otherNode otherFound

/-- Leaving a node whose children have values: a symbol's column is refused exactly if the
symbol's value is, and any other node has a value. -/
theorem depart_refused (sorted : formula.WellSorted) {id : NodeId} {node : Node}
    {passage after : Pass.Passage Draft Lowered}
    (reached : formula.arena.Reaches formula.root id)
    (found : formula.arena.node? id = some node) (suited : Suited formula row index passage)
    (left : lowering.depart id node passage = .ok after) :
    RefusedAlike formula row index after
      (formula.arena.valueAt formula.ordered row index id) := by
  obtain ⟨operands, lowered, gathered, done, remembered⟩ := Pass.depart_ok left
  obtain ⟨sorts, values, computed, accepts⟩ := Formula.accepts_children sorted reached found
    fun child member childNode childFound => by
      obtain ⟨operand, inMemo⟩ := related_of_mem (Pass.arguments_ok.mp gathered) member
      exact suited.valued child operand inMemo childNode childFound
  obtain ⟨cells, encoded⟩ := suited.encodes
  have valueAt : formula.arena.valueAt formula.ordered row index id =
      node.typedValue row index values := by
    rw [Arena.valueAt_found found, Node.enters accepts.signature.supported, computed]
    rfl
  obtain ⟨type, native, ⟨name, identifier, named, registered⟩ | ⟨applied, same⟩⟩ :=
    lower_columns done
  · have asked : formula.arena.valueAt formula.ordered row index id =
        row.value index name node.sort := by
      simp [valueAt, Node.typedValue, native, Node.value, named]
    have alike := register_refused encoded native registered
    refine ⟨asked ▸ alike, fun cellsAfter encodedAfter => ?_⟩
    rw [encodedAfter] at alike
    obtain ⟨value, valued⟩ := alike.ok
    obtain ⟨value, typed, held⟩ := Node.typedValue_sound index accepts fun other isOther => by
      rw [named] at isOther
      cases isOther
      exact Row.value_ok valued
    exact suited.leave found remembered encodedAfter (valueAt.trans typed) held
  · obtain ⟨value, typed, held⟩ := Node.typedValue_sound index accepts fun name named =>
      absurd named (applied name)
    have valued := valueAt.trans typed
    rw [← same] at encoded
    exact valued ▸ (suited.leave found remembered encoded valued held).alike value

theorem visitAll_refused {list : List NodeId}
    (each : ∀ id ∈ list, ∀ before next, Suited formula row index before →
      lowering.visit formula.ordered id before = .ok next →
        RefusedAlike formula row index next
          (formula.arena.valueAt formula.ordered row index id))
    {passage after : Pass.Passage Draft Lowered} (suited : Suited formula row index passage)
    (visited : lowering.visitAll formula.ordered list passage = .ok after) :
    RefusedAlike formula row index after
      (list.mapM (formula.arena.valueAt formula.ordered row index)) := by
  induction list generalizing passage with
  | nil =>
    cases visited
    exact suited.alike []
  | cons id rest ih =>
    obtain ⟨middle, first, remaining⟩ := Pass.visitAll_cons visited
    rw [List.mapM_cons]
    refine (each id List.mem_cons_self passage middle suited first).andThen
      ((Grown.refl middle).visitAll remaining) fun value _ suitedMiddle => ?_
    exact (ih (fun other member => each other (List.mem_cons_of_mem id member)) suitedMiddle
      remaining).map _

/-- Lowering meets a node with the same outcome as evaluation. -/
theorem visit_refused (sorted : formula.WellSorted) {id : NodeId}
    (reached : formula.arena.Reaches formula.root id)
    {passage after : Pass.Passage Draft Lowered} (suited : Suited formula row index passage)
    (visited : lowering.visit formula.ordered id passage = .ok after) :
    RefusedAlike formula row index after
      (formula.arena.valueAt formula.ordered row index id) := by
  -- Children stand before their parents; what is known has a value already.
  induction id using NodeId.strongRecOn generalizing passage after with
  | ind id ih =>
    obtain ⟨node, found⟩ := reached.found formula.ordered formula.rooted
    rcases Pass.visit_ok visited with
      ⟨known, rfl⟩ | ⟨again, middle, _, foundAgain, entered, below, left⟩
    · rw [Std.HashMap.contains_eq_isSome_getElem?, Option.isSome_iff_exists] at known
      obtain ⟨lowered, inMemo⟩ := known
      obtain ⟨value, valued, _⟩ := suited.valued id lowered inMemo node found
      exact valued ▸ suited.alike value
    · rw [found] at foundAgain
      cases foundAgain
      have admitted : node.admit = .ok () := entered
      have children := visitAll_refused (fun child member before next ready done =>
        ih child (formula.ordered id node found child member) (reached.child found member) ready
          done) suited below
      have opened := @Arena.valueAt_found formula.arena formula.ordered row index id node found
      rw [admitted] at opened
      rw [opened]
      refine children.andThen ((Grown.refl middle).depart left)
        fun values computed suitedMiddle => ?_
      have departed := depart_refused sorted reached found suitedMiddle left
      rw [opened, computed] at departed
      exact departed

theorem root_refused {function : Function} (sorted : formula.WellSorted)
    (lowered : formula.lower = .ok function) :
    ∃ (passage : Pass.Passage Draft Lowered) (result : Lowered),
      passage.2.columns = function.columns ∧ passage.1[formula.root]? = some result ∧
      RefusedAlike formula row index passage (formula.evaluateAt row index) := by
  have start : Suited formula row index (∅, .empty) :=
    ⟨⟨[], rfl⟩, fun id lowered inMemo => by simp at inMemo⟩
  unfold Formula.lower at lowered
  cases walked : lowering.run formula .empty with
  | error error =>
    rw [walked] at lowered
    cases lowered
  | ok pair =>
    obtain ⟨result, draft⟩ := pair
    rw [walked] at lowered
    cases lowered
    obtain ⟨memo, visited, known⟩ := Pass.run_ok walked
    rw [formula.evaluateAt_eq]
    exact ⟨(memo, draft), result, rfl, known, visit_refused sorted .root start visited⟩

/-- A row is refused for the columns of an evaluator function exactly if it is refused for
evaluation. -/
theorem row_refused {function : Function} (sorted : formula.WellSorted)
    (lowered : formula.lower = .ok function) :
    SameRefusal (row.cells index function.columns) (formula.evaluateAt row index) := by
  obtain ⟨passage, _, same, _, alike⟩ := root_refused sorted lowered
  exact same ▸ alike.same

end Walks

theorem rows_refused {formula : Formula} {function : Function} (sorted : formula.WellSorted)
    (lowered : formula.lower = .ok function) (base : Nat) (rows : List Row) :
    SameRefusal (encodeRows function.columns base rows) (formula.evaluateFrom base rows) := by
  induction rows generalizing base with
  | nil => exact .accepted [] []
  | cons row rest ih =>
    exact (row_refused sorted lowered).bind fun cells value =>
      (ih (base + 1)).bind fun more values => .accepted (cells :: more) (value :: values)

/-- An evaluator function takes the batches that can be evaluated. Any other batch is refused
for the row and the symbol for which evaluation refuses it. -/
theorem rows_refused_alike (formula : Formula) (function : Function) (rows : List Row)
    (sorted : formula.WellSorted) (lowered : formula.lower = .ok function) :
    SameRefusal (encodeRows function.columns 0 rows) (formula.evaluateRows rows) :=
  rows_refused sorted lowered 0 rows

/-- A choice between a quotient and itself, written once as a sum. -/
def sharedQuotient : Formula where
  arena := .ofNodes #[⟨.symbol "x", [], .int⟩, ⟨.symbol "y", [], .int⟩, ⟨.minus, [0], .int⟩,
    ⟨.div, [2, 1], .int⟩, ⟨.plus, [3], .int⟩, ⟨.lt, [0, 1], .bool⟩, ⟨.ite, [5, 4, 3], .int⟩]
  root := 6
  ordered := by decide
  rooted := by decide

theorem sharedQuotient_wellSorted : sharedQuotient.WellSorted := by
  intro id node _ found
  have member := Arena.mem_nodes found
  simp only [sharedQuotient, Arena.ofNodes, List.mem_cons, List.not_mem_nil, or_false] at member
  rcases member with rfl | rfl | rfl | rfl | rfl | rfl | rfl
  · exact ⟨⟨[], _, rfl, .symbol "x" .int⟩, fun absent => (by cases absent), trivial⟩
  · exact ⟨⟨[], _, rfl, .symbol "y" .int⟩, fun absent => (by cases absent), trivial⟩
  · exact ⟨⟨[.int], _, rfl, .arithmetic (by decide) (.inl rfl) 0⟩, fun _ => rfl, trivial⟩
  · exact ⟨⟨[.int, .int], _, rfl, .arithmetic (by decide) (.inl rfl) 1⟩, fun _ => rfl, trivial⟩
  · exact ⟨⟨[.int], _, rfl, .arithmetic (by decide) (.inl rfl) 0⟩, fun _ => rfl, trivial⟩
  · exact ⟨⟨[.int, .int], _, rfl, .comparison (by decide) (.inl rfl)⟩, fun _ => rfl, trivial⟩
  · exact ⟨⟨[.bool, .int, .int], _, rfl, .ite .int⟩, fun _ => rfl, trivial⟩

/-- The quotient is written twice and computed without its sum; the choice is declared. -/
def sharedQuotientFunction : Function :=
  let quotient : Expression :=
    .integerQuotient (.unary .negate (.argument "v_x")) (.argument "v_y")
  ⟨⟨[⟨"x", "v_x", .int⟩, ⟨"y", "v_y", .int⟩]⟩,
    [⟨⟨.bool, 0⟩, .chain .below [.argument "v_x", .argument "v_y"]⟩,
      ⟨⟨.int, 0⟩, .conditional (.temporary ⟨.bool, 0⟩) quotient quotient⟩],
    ⟨.temporary ⟨.int, 0⟩, .int, true⟩⟩

/-- The second row has a truth value for the numerator and no divisor at all: the numerator is
met first. -/
theorem rows_refused_alike_sharedQuotient :
    let rows := [(Row.empty.insert "x" (.int (-7))).insert "y" (.int 2),
      Row.empty.insert "x" (.bool true)]
    sharedQuotient.WellSorted ∧ sharedQuotient.lower = .ok sharedQuotientFunction ∧
      encodeRows sharedQuotientFunction.columns 0 rows =
        .error (.cell 1 "x" (.type .int .bool)) ∧
      ∃ fault, sharedQuotient.evaluateRows rows = .error (.cell 1 "x" fault) := by
  intro rows
  have lowered : sharedQuotient.lower = .ok sharedQuotientFunction := by cbv
  have refused : encodeRows sharedQuotientFunction.columns 0 rows =
      .error (.cell 1 "x" (.type .int .bool)) := by cbv
  have alike := rows_refused_alike sharedQuotient sharedQuotientFunction rows
    sharedQuotient_wellSorted lowered
  rw [refused] at alike
  rcases alike.outcomes with ⟨_, _, accepted, _⟩ | ⟨_, _, _, fault, same, evaluated⟩
  · cases accepted
  · cases same
    exact ⟨sharedQuotient_wellSorted, lowered, refused, fault, evaluated⟩

end Code

end Formulary
