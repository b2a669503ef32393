import Formulary.Code.Program
import Formulary.Proofs.Code.Acceptance
import Formulary.Proofs.Numeral

/-! Names in programs. A program spells a symbol by its identifier and gives its name only in the
header, so symbols may be renamed within their identifiers and nothing below the header changes.
The header consists of comments as long as no name breaks a line. -/
namespace Formulary

namespace Pass

variable {State Result : Type} {pass : Pass State Result} {view : State → State}
  {Holds : State → Prop} {Within : NodeId → Prop} {arena other : Arena}

/-- Whatever a pass does at a node, it does at another one as well, where it sees the state
through a map. -/
structure Mirrors (pass : Pass State Result) (view : State → State) (Holds : State → Prop)
    (node twin : Node) : Prop where
  children : twin.children = node.children
  enter : pass.enter node = .ok () → pass.enter twin = .ok ()
  leave : ∀ operands state result next, Holds state →
    pass.leave node operands state = .ok (result, next) →
    Holds next ∧ pass.leave twin operands (view state) = .ok (result, view next)

theorem Mirrors.depart {node twin : Node} (mirrors : Mirrors pass view Holds node twin)
    {id : NodeId} {passage after : Passage State Result} (holds : Holds passage.2)
    (left : pass.depart id node passage = .ok after) :
    Holds after.2 ∧
      pass.depart id twin (passage.1, view passage.2) = .ok (after.1, view after.2) := by
  obtain ⟨operands, result, gathered, done, inserted⟩ := depart_ok left
  obtain ⟨holdsAfter, twinDone⟩ := mirrors.leave operands passage.2 result after.2 holds done
  have twinGathered : pass.arguments id twin passage.1 twin.children = .ok operands := by
    rw [mirrors.children]
    exact arguments_ok.mpr (arguments_ok.mp gathered)
  refine ⟨holdsAfter, ?_⟩
  simp [Pass.depart, twinGathered, twinDone, inserted, bind, Except.bind, pure, Except.pure]

section Arenas

variable (twins : ∀ id node, Within id → arena.node? id = some node →
    ∃ twin, other.node? id = some twin ∧ Mirrors pass view Holds node twin)
include twins

theorem Turn.mirrored {agenda next : List Task} {passage after : Passage State Result}
    {left : List NodeId} (turn : Turn pass arena agenda passage left next after)
    (within : ∀ task ∈ agenda, Within task.id) (holds : Holds passage.2) :
    Holds after.2 ∧
      Turn pass other agenda (passage.1, view passage.2) left next (after.1, view after.2) := by
  cases turn with
  | skip known => exact ⟨holds, .skip known⟩
  | @enter id node rest _ unknown found entered =>
    obtain ⟨twin, twinFound, mirrors⟩ :=
      twins id node (within (.enter id) List.mem_cons_self) found
    refine ⟨holds, ?_⟩
    rw [← mirrors.children]
    exact .enter unknown twinFound (mirrors.enter entered)
  | @leave id node rest _ _ unknown found left =>
    obtain ⟨twin, twinFound, mirrors⟩ :=
      twins id node (within (.leave id) List.mem_cons_self) found
    obtain ⟨holdsAfter, departed⟩ := mirrors.depart holds left
    exact ⟨holdsAfter, .leave unknown twinFound departed⟩

/-- A walk that succeeds is taken over another arena turn by turn. -/
theorem Walk.mirrored
    (closed : ∀ id node, Within id → arena.node? id = some node →
      ∀ child ∈ node.children, Within child)
    {agenda : List Task} {passage after : Passage State Result} {trace : List NodeId}
    {outcome : Except Error (Passage State Result)}
    (walk : Walk pass arena agenda passage trace outcome) (succeeds : outcome = .ok after)
    (within : ∀ task ∈ agenda, Within task.id) (holds : Holds passage.2) :
    Walk pass other agenda (passage.1, view passage.2) trace (.ok (after.1, view after.2)) := by
  induction walk with
  | finish =>
    cases succeeds
    exact .finish
  | fail failed => cases succeeds
  | turn first _ ih =>
    obtain ⟨holdsAfter, twinFirst⟩ := first.mirrored twins within holds
    exact .turn twinFirst (ih succeeds (first.within closed within).2 holdsAfter)

end Arenas

/-- A run that succeeds does so over every formula that mirrors the nodes its root depends on. -/
theorem run_mirrored {formula twin : Formula} {state final : State} {result : Result}
    (sameRoot : twin.root = formula.root)
    (twins : ∀ id node, formula.arena.Reaches formula.root id →
      formula.arena.node? id = some node →
      ∃ image, twin.arena.node? id = some image ∧ Mirrors pass view Holds node image)
    (start : Holds state) (done : pass.run formula state = .ok (result, final)) :
    pass.run twin (view state) = .ok (result, view final) := by
  obtain ⟨trace, completed⟩ := run_completes pass formula state
  rw [done] at completed
  cases completed with
  | answer walk atRoot =>
    have image := walk.mirrored twins
      (fun _ _ path found _ member => path.child found member) rfl
      (by simpa [Task.id] using Arena.Reaches.root) start
    rw [← sameRoot] at image atRoot
    exact (Completes.answer image atRoot).run_eq

end Pass

def Operator.rename (naming : String → String) : Operator → Operator
  | symbol name => symbol (naming name)
  | operator => operator

def Node.rename (naming : String → String) (node : Node) : Node :=
  { node with operator := node.operator.rename naming }

def Arena.rename (naming : String → String) (arena : Arena) : Arena :=
  .ofNodes (arena.nodes.map (Node.rename naming))

theorem Operator.rename_applied {operator : Operator} (naming : String → String)
    (applied : ∀ name, operator ≠ .symbol name) : operator.rename naming = operator := by
  unfold rename
  split
  · rename_i name
    exact absurd rfl (applied name)
  · rfl

theorem Arena.node?_rename (naming : String → String) (arena : Arena) (id : NodeId) :
    (arena.rename naming).node? id = (arena.node? id).map (Node.rename naming) := by
  simp [rename, ofNodes, node?]

def Formula.rename (naming : String → String) (formula : Formula) : Formula where
  arena := formula.arena.rename naming
  root := formula.root
  ordered := by
    intro position node found child member
    rw [Arena.rename, Arena.ofNodes, Array.getElem?_map] at found
    obtain ⟨original, there, rfl⟩ := Option.map_eq_some_iff.mp found
    exact formula.ordered position original there child member
  rooted := by
    have rooted := formula.rooted
    rwa [Arena.size, Arena.rename, Arena.ofNodes, Array.size_map]

/-- Columns keep their identifiers and types. -/
def Columns.rename (naming : String → String) (columns : Columns) : Columns :=
  ⟨columns.list.map fun column => { column with name := naming column.name }⟩

namespace Columns

variable {columns after : Columns} {name identifier : String} {type : NativeType}

/-- The symbol of a column is known. -/
theorem register_listed {column : Column} (member : column ∈ columns.list)
    (only : ∀ other ∈ columns.list, other.name = column.name → other = column) :
    columns.register column.name column.type = .ok (column.identifier, columns) := by
  have found : columns.named? column.name = some column := by
    unfold named?
    cases search : columns.list.find? fun other => other.name = column.name with
    | none =>
      have absent := List.find?_eq_none.mp search column member
      simp at absent
    | some other =>
      have same := only other (List.mem_of_find?_eq_some search)
        (by simpa using List.find?_some search)
      rw [same]
  simp [register, found]

theorem register_unclaimed (unnamed : ∀ column ∈ columns.list, column.name ≠ name)
    (unclaimed : ∀ column ∈ columns.list, column.identifier ≠ identifierOf name) :
    columns.register name type =
      .ok (identifierOf name, ⟨columns.list ++ [⟨name, identifierOf name, type⟩]⟩) := by
  have noName : columns.named? name = none :=
    List.find?_eq_none.mpr fun column member => by simpa using unnamed column member
  have noIdentifier : columns.identified? (identifierOf name) = none :=
    List.find?_eq_none.mpr fun column member => by simpa using unclaimed column member
  simp [register, noName, noIdentifier]

/-- A naming that takes each column's name to one with the same identifier. No two columns
share one. -/
structure Admits (columns : Columns) (naming : String → String) : Prop where
  identified : ∀ column ∈ columns.list, column.identifier = identifierOf column.name
  kept : ∀ column ∈ columns.list, identifierOf (naming column.name) = column.identifier
  distinct : ∀ first ∈ columns.list, ∀ second ∈ columns.list,
    first.identifier = second.identifier → first = second

theorem Admits.empty (naming : String → String) : Columns.empty.Admits naming := by
  constructor <;> simp [Columns.empty]

theorem Admits.add {naming : String → String} (admits : columns.Admits naming)
    (unclaimed : ∀ column ∈ columns.list, column.identifier ≠ identifierOf name)
    (same : identifierOf (naming name) = identifierOf name) :
    Admits ⟨columns.list ++ [⟨name, identifierOf name, type⟩]⟩ naming := by
  refine ⟨fun column member => ?_, fun column member => ?_,
    Code.distinct_append admits.distinct unclaimed⟩
  · rcases List.mem_append.mp member with old | new
    · exact admits.identified column old
    · cases List.mem_singleton.mp new
      rfl
  · rcases List.mem_append.mp member with old | new
    · exact admits.kept column old
    · cases List.mem_singleton.mp new
      exact same

theorem Admits.register {naming : String → String} (admits : columns.Admits naming)
    (same : identifierOf (naming name) = identifierOf name)
    (registered : columns.register name type = .ok (identifier, after)) :
    after.Admits naming ∧
      (columns.rename naming).register (naming name) type =
        .ok (identifier, after.rename naming) := by
  -- A column gets the new name only if it has the identifier.
  have claims : ∀ column ∈ columns.list, naming column.name = naming name →
      column.identifier = identifierOf name := by
    intro column member named
    rw [← admits.kept column member, named, same]
  rcases Code.register_ok registered with
    ⟨column, member, rfl, rfl, rfl, rfl⟩ | ⟨rfl, unclaimed, rfl⟩
  · refine ⟨admits, ?_⟩
    have image : { column with name := naming column.name } ∈ (after.rename naming).list :=
      List.mem_map_of_mem member
    refine register_listed image fun other listed named => ?_
    obtain ⟨original, there, rfl⟩ := List.mem_map.mp listed
    have again := (claims original there named).trans (admits.identified column member).symm
    rw [admits.distinct original there column member again]
  · refine ⟨admits.add unclaimed same, ?_⟩
    have unnamed : ∀ column ∈ (columns.rename naming).list, column.name ≠ naming name := by
      intro column member named
      obtain ⟨original, there, rfl⟩ := List.mem_map.mp member
      exact unclaimed original there (claims original there named)
    have free : ∀ column ∈ (columns.rename naming).list,
        column.identifier ≠ identifierOf (naming name) := by
      intro column member
      obtain ⟨original, there, rfl⟩ := List.mem_map.mp member
      rw [same]
      exact unclaimed original there
    rw [register_unclaimed unnamed free, same]
    simp [rename]

end Columns

namespace Code

def Draft.rename (naming : String → String) (draft : Draft) : Draft :=
  { draft with columns := draft.columns.rename naming }

def Draft.Admits (naming : String → String) (draft : Draft) : Prop :=
  draft.columns.Admits naming

def Function.rename (naming : String → String) (function : Function) : Function :=
  { function with columns := function.columns.rename naming }

section Lowering

variable {naming : String → String} {node : Node} {operands : List Lowered} {draft next : Draft}
  {lowered : Lowered}

theorem lower_of_typed {type : NativeType} (native : node.sort.native = .ok type)
    (several : node.operator.keepsSingle → ∀ only, operands ≠ [only]) :
    lower node operands draft = lowerTyped node.operator type operands draft := by
  unfold lower
  rw [native]
  simp only
  split
  · rename_i only
    rw [if_neg fun keeps => several keeps only rfl]
  · rfl

theorem lowerTyped_of_formed {operator : Operator} {type : NativeType} {expression : Expression}
    (formed : operator.expression type operands = .ok expression) :
    lowerTyped operator type operands draft =
      if operator.isDeclared then .ok (draft.declare type expression)
      else .ok (⟨expression, type, false⟩, draft) := by
  unfold lowerTyped
  split
  · cases formed
  · rw [formed]

/-- Lowering does what its cases say. -/
theorem Lowers.lower_eq (lowers : Lowers node operands draft lowered next) :
    lower node operands draft = .ok (lowered, next) := by
  cases lowers with
  | kept native keeps single => simp [lower, native, single, keeps]
  | symbol native named registered =>
    rw [lower_of_typed native (by simp [named, Operator.keepsSingle]), named]
    simp [lowerTyped, registered]
  | declared native formed declares several =>
    rw [lower_of_typed native several, lowerTyped_of_formed formed, if_pos declares]
  | inline native formed undeclared several =>
    rw [lower_of_typed native several, lowerTyped_of_formed formed, undeclared]
    rfl

theorem Lowers.rename (lowers : Lowers node operands draft lowered next)
    (admits : draft.Admits naming)
    (same : ∀ name, node.operator = .symbol name → identifierOf (naming name) = identifierOf name) :
    next.Admits naming ∧
      Lowers (node.rename naming) operands (draft.rename naming) lowered (next.rename naming) := by
  have unchanged (applied : ∀ name, node.operator ≠ .symbol name) : node.rename naming = node := by
    rw [Node.rename, Operator.rename_applied naming applied]
  cases lowers with
  | kept native keeps single =>
    rw [unchanged fun name named => by simp [named, Operator.keepsSingle] at keeps]
    exact ⟨admits, .kept native keeps single⟩
  | @symbol name identifier type columns native named registered =>
    obtain ⟨admitsAfter, again⟩ := Columns.Admits.register admits (same name named) registered
    refine ⟨admitsAfter, ?_⟩
    have renamed : (node.rename naming).operator = .symbol (naming name) := by
      rw [Node.rename, named]
      rfl
    exact .symbol native renamed again
  | declared native formed declares several =>
    rw [unchanged fun name named => by simp [named, Operator.expression] at formed]
    exact ⟨admits, .declared native formed declares several⟩
  | inline native formed undeclared several =>
    rw [unchanged fun name named => by simp [named, Operator.expression] at formed]
    exact ⟨admits, .inline native formed undeclared several⟩

theorem rename_mirrors
    (same : ∀ name, node.operator = .symbol name → identifierOf (naming name) = identifierOf name) :
    Pass.Mirrors lowering (Draft.rename naming) (Draft.Admits naming)
      node (node.rename naming) where
  children := rfl
  enter := by
    intro entered
    cases named : node.operator with
    | symbol name => simp [lowering, Node.admit, Node.rename, named, Operator.rename,
        Operator.unsupported]
    | _ =>
      rw [Node.rename, Operator.rename_applied naming (by simp [named])]
      exact entered
  leave := by
    intro operands draft lowered next admits done
    obtain ⟨admitsAfter, renamed⟩ := (lower_cases done).rename admits same
    exact ⟨admitsAfter, renamed.lower_eq⟩

end Lowering

variable {formula : Formula} {function : Function} {naming : String → String}

/-- A formula whose symbols are renamed within their identifiers has the same function, but for
the names of its columns. -/
theorem lower_rename (lowered : formula.lower = .ok function)
    (same : ∀ name sort, formula.HasSymbol name sort →
      identifierOf (naming name) = identifierOf name) :
    (formula.rename naming).lower = .ok (function.rename naming) := by
  obtain ⟨result, draft, walked, rfl⟩ := lower_ok lowered
  have twins : ∀ id node, formula.arena.Reaches formula.root id →
      formula.arena.node? id = some node →
      ∃ image, (formula.rename naming).arena.node? id = some image ∧
        Pass.Mirrors lowering (Draft.rename naming) (Draft.Admits naming)
          node image := by
    intro id node path found
    refine ⟨node.rename naming, ?_, ?_⟩
    · rw [Formula.rename, Arena.node?_rename, found]
      rfl
    · exact rename_mirrors fun name named => same name node.sort ⟨id, node, path, found, named, rfl⟩
  have start : Draft.empty.Admits naming := Columns.Admits.empty naming
  have sameRoot : (formula.rename naming).root = formula.root := rfl
  have again : lowering.run (formula.rename naming) .empty = .ok (result, draft.rename naming) :=
    Pass.run_mirrored sameRoot twins start walked
  rw [Formula.lower, again]
  rfl

end Code

end Formulary
