import Formulary.Proofs.Code.Declarations

/-! Which formulas have evaluator functions. A well-sorted formula has one exactly if all its
sorts have machine types and no two of its symbols want one identifier. -/
namespace Formulary

/-- Truth values, numbers and vectors. -/
def TermSort.Scalar : TermSort → Prop
  | bool | int | real | bitVec _ => True
  | array .. | function .. | uninterpreted _ => False

/-- Every node that the root depends on is a scalar. -/
def Formula.Scalar (formula : Formula) : Prop :=
  ∀ id node, formula.arena.Reaches formula.root id → formula.arena.node? id = some node →
    node.sort.Scalar

/-- The root depends on the symbol. -/
def Formula.HasSymbol (formula : Formula) (name : String) (sort : TermSort) : Prop :=
  ∃ id node, formula.arena.Reaches formula.root id ∧ formula.arena.node? id = some node ∧
    node.operator = .symbol name ∧ node.sort = sort

/-- The root depends on two symbols that want one identifier: one name at two sorts, or two
names that differ only where identifiers have underscores. -/
def Formula.Collides (formula : Formula) : Prop :=
  ∃ first firstSort second secondSort, formula.HasSymbol first firstSort ∧
    formula.HasSymbol second secondSort ∧ (first, firstSort) ≠ (second, secondSort) ∧
    identifierOf first = identifierOf second

namespace Error

/-- Two symbols want one identifier. -/
def IsClash : Error → Prop
  | nameClash .. | typeClash .. => True
  | _ => False

/-- A sort has no machine type, whatever its width. -/
def IsUnrepresented (error : Error) : Prop := ∃ sort, error = .sort sort .unrepresented

end Error

namespace TermSort

variable {sort : TermSort}

theorem native_scalar {type : NativeType} (resolved : sort.native = .ok type) : sort.Scalar := by
  cases sort with
  | bool | int | real | bitVec => trivial
  | array | function | uninterpreted => cases resolved

/-- A sort whose width is fine can only fail to be a scalar. -/
theorem native_refused {error : Error} (narrow : sort.Narrow)
    (unresolved : sort.native = .error error) : error.IsUnrepresented ∧ ¬ sort.Scalar := by
  cases sort with
  | bool | int | real => cases unresolved
  | bitVec width =>
    have accepted : (bitVec width).native = .ok (.bitVec width) := if_pos narrow
    rw [accepted] at unresolved
    cases unresolved
  | array | function | uninterpreted =>
    cases unresolved
    exact ⟨⟨_, rfl⟩, id⟩

end TermSort

namespace Code

section Forming

variable {operator : Operator} {sorts : List TermSort} {sort : TermSort}
  {operands : List Lowered} {type : NativeType}

def Typed (operands : List Lowered) (sorts : List TermSort) : Prop :=
  List.Forall₂ (fun operand sort => sort.native = .ok operand.type) operands sorts

theorem operandWidth_typed {operand : Lowered} {width : Nat}
    (native : (TermSort.bitVec width).native = .ok operand.type) :
    operator.operandWidth operand = .ok width := by
  have typed := TermSort.native_ok native
  unfold Operator.operandWidth
  cases same : operand.type with
  | bitVec found =>
    rw [same] at typed
    cases typed
    rfl
  | bool | int | real =>
    rw [same] at typed
    cases typed

theorem resultWidth_native {width : Nat} (native : (TermSort.bitVec width).native = .ok type) :
    operator.resultWidth type = .ok width := by
  have typed := TermSort.native_ok native
  cases type with
  | bitVec found =>
    cases typed
    rfl
  | bool | int | real => cases typed

/-- An application of a signature passes every check of arities, operands and widths. -/
theorem expression_formed (signature : operator.Signature sorts sort)
    (applied : ∀ name, operator ≠ .symbol name) (typed : Typed operands sorts)
    (native : sort.native = .ok type) :
    ∃ expression, operator.expression type operands = .ok expression := by
  cases signature with
  | symbol name => exact absurd rfl (applied name)
  | constant => exact ⟨_, rfl⟩
  | not =>
    obtain _ | ⟨_, _ | _⟩ := typed
    exact ⟨_, rfl⟩
  | junction member more | bitwise member width more =>
    obtain _ | ⟨_, _⟩ := typed
    fin_cases member <;> exact ⟨_, rfl⟩
  | arithmetic member numeric more =>
    obtain _ | ⟨_, rest⟩ := typed
    fin_cases member
    · exact ⟨_, rfl⟩
    · rename_i others _
      cases others <;> exact ⟨_, rfl⟩
    · exact ⟨_, rfl⟩
    · cases type <;> exact ⟨_, rfl⟩
  | connective member | comparison member =>
    obtain _ | ⟨_, _ | ⟨_, _ | _⟩⟩ := typed
    fin_cases member <;> exact ⟨_, rfl⟩
  | equals | pow | bvComp =>
    obtain _ | ⟨_, _ | ⟨_, _ | _⟩⟩ := typed
    exact ⟨_, rfl⟩
  | ite =>
    obtain _ | ⟨_, _ | ⟨_, _ | ⟨_, _ | _⟩⟩⟩ := typed
    exact ⟨_, rfl⟩
  | inversion member =>
    obtain _ | ⟨_, _ | _⟩ := typed
    fin_cases member <;> exact ⟨_, rfl⟩
  | word member | order member =>
    obtain _ | ⟨left, _ | ⟨_, _ | _⟩⟩ := typed
    have width := fun operator => @operandWidth_typed operator _ _ left
    fin_cases member <;>
      simp [Operator.expression, Operator.pairChain, Operator.pairOf, Operator.wrapping,
        Operator.compareVectors, Operator.twoOperands, width, bind, Except.bind, pure,
        Except.pure, discard, Functor.discard, Functor.mapConst, Except.map]
  | bvExtract forward inside =>
    obtain _ | ⟨operand, _ | _⟩ := typed
    simp [Operator.expression, Operator.extractBits, Operator.oneOperand,
      operandWidth_typed operand, resultWidth_native native, bind, Except.bind, pure, Except.pure,
      not_lt.mpr forward, not_le.mpr inside]
  | bvConcat =>
    obtain _ | ⟨high, _ | ⟨low, _ | _⟩⟩ := typed
    simp [Operator.expression, Operator.joinVectors, Operator.twoOperands,
      operandWidth_typed high, operandWidth_typed low, resultWidth_native native, bind,
      Except.bind, pure, Except.pure]

/-- The only operand that is kept has the sort of the application. -/
theorem keepsSingle_sort {only : TermSort} (signature : operator.Signature sorts sort)
    (keeps : operator.keepsSingle) (single : sorts = [only]) : only = sort := by
  cases signature with
  | junction | arithmetic | bitwise =>
    have copies := List.eq_of_mem_replicate (single ▸ List.mem_singleton_self only)
    exact copies
  | symbol | constant | not | equals | ite | pow | bvComp | bvExtract | bvConcat => cases keeps
  | connective member | comparison member | inversion member | word member | order member =>
    fin_cases member <;> cases keeps

end Forming

theorem register_error {columns : Columns} {name : String} {type : NativeType} {error : Error}
    (identified : ∀ column ∈ columns.list, column.identifier = identifierOf column.name)
    (refused : columns.register name type = .error error) :
    error.IsClash ∧ ∃ column ∈ columns.list,
      identifierOf column.name = identifierOf name ∧ (column.name, column.type) ≠ (name, type) := by
  unfold Columns.register at refused
  split at refused
  · rename_i column found
    have named : column.name = name := by simpa using List.find?_some found
    split at refused
    · cases refused
    · rename_i different
      cases refused
      refine ⟨trivial, column, List.mem_of_find?_eq_some found, by rw [named], fun same => ?_⟩
      exact different (congrArg Prod.snd same)
  · rename_i unnamed
    dsimp only at refused
    split at refused
    · rename_i column found
      cases refused
      have member := List.mem_of_find?_eq_some found
      have same : column.identifier = identifierOf name := by simpa using List.find?_some found
      refine ⟨trivial, column, member, (identified column member).symm.trans same, fun equal => ?_⟩
      have other : column.name ≠ name := by
        simpa using List.find?_eq_none.mp unnamed column member
      exact other (congrArg Prod.fst equal)
    · cases refused

section Nodes

variable {node : Node} {sorts : List TermSort} {operands : List Lowered} {draft : Draft}

theorem lower_refused {error : Error} (narrow : node.sort.Narrow)
    (signature : node.operator.Signature sorts node.sort) (typed : Typed operands sorts)
    (refused : lower node operands draft = .error error) :
    (error.IsUnrepresented ∧ ¬ node.sort.Scalar) ∨
      ∃ name type, node.operator = .symbol name ∧ node.sort.native = .ok type ∧
        draft.columns.register name type = .error error := by
  unfold lower at refused
  split at refused
  · rename_i first unresolved
    cases refused
    exact .inl (TermSort.native_refused narrow unresolved)
  · rename_i type native
    have written : lowerTyped node.operator type operands draft = .error error := by
      split at refused
      · split at refused
        · cases refused
        · exact refused
      · exact refused
    unfold lowerTyped at written
    split at written
    · rename_i name named
      split at written
      · rename_i clash registered
        cases written
        exact .inr ⟨name, type, named, native, registered⟩
      · cases written
    · rename_i applied
      obtain ⟨expression, formed⟩ := expression_formed signature applied typed native
      rw [formed] at written
      dsimp only at written
      split at written <;> cases written

/-- What stands for a well-sorted node has the machine type of the node's sort. -/
theorem Lowers.typed {next : Draft} {lowered : Lowered}
    (lowers : Lowers node operands draft lowered next)
    (signature : node.operator.Signature sorts node.sort) (typed : Typed operands sorts) :
    node.sort.native = .ok lowered.type := by
  cases lowers with
  | kept native keeps single =>
    rw [single] at typed
    obtain _ | ⟨only, _ | _⟩ := typed
    rw [← keepsSingle_sort signature keeps rfl]
    exact only
  | symbol native | declared native | inline native => exact native

end Nodes

/-- A column with an identifier of its own keeps identifiers apart. -/
theorem distinct_append {columns : List Column} {added : Column}
    (distinct : ∀ first ∈ columns, ∀ second ∈ columns,
      first.identifier = second.identifier → first = second)
    (unclaimed : ∀ column ∈ columns, column.identifier ≠ added.identifier) :
    ∀ first ∈ columns ++ [added], ∀ second ∈ columns ++ [added],
      first.identifier = second.identifier → first = second := by
  intro first firstMember second secondMember same
  rcases List.mem_append.mp firstMember with old | new <;>
    rcases List.mem_append.mp secondMember with older | newer
  · exact distinct first old second older same
  · cases List.mem_singleton.mp newer
    exact absurd same (unclaimed first old)
  · cases List.mem_singleton.mp new
    exact absurd same.symm (unclaimed second older)
  · rw [List.mem_singleton.mp new, List.mem_singleton.mp newer]

/-- What is known of a passage over a well-sorted formula: its results have the types of their
nodes, and its columns are those of the symbols that were left. -/
structure Recorded (formula : Formula) (memo : Std.HashMap NodeId Lowered)
    (columns : Columns) : Prop where
  typed : ∀ id lowered node, memo[id]? = some lowered →
    formula.arena.node? id = some node → node.sort.native = .ok lowered.type
  listed : ∀ id lowered node name, memo[id]? = some lowered →
    formula.arena.node? id = some node → node.operator = .symbol name →
    ∃ column ∈ columns.list, column.name = name ∧ node.sort.native = .ok column.type
  identified : ∀ column ∈ columns.list, column.identifier = identifierOf column.name
  backed : ∀ column ∈ columns.list,
    ∃ sort, formula.HasSymbol column.name sort ∧ sort.native = .ok column.type
  distinct : ∀ first ∈ columns.list, ∀ second ∈ columns.list,
    first.identifier = second.identifier → first = second

namespace Recorded

variable {formula : Formula} {memo : Std.HashMap NodeId Lowered} {columns : Columns}

theorem start : Recorded formula ∅ .empty where
  typed := by simp
  listed := by simp
  identified := by simp [Columns.empty]
  backed := by simp [Columns.empty]
  distinct := by simp [Columns.empty]

theorem operands (recorded : Recorded formula memo columns) {children : List NodeId}
    {lowered : List Lowered} {sorts : List TermSort}
    (gathered : List.Forall₂ (fun child result => memo[child]? = some result) children lowered)
    (sorted : List.Forall₂ (fun child sort => formula.arena.sortOf child = .ok sort)
      children sorts) : Typed lowered sorts := by
  induction gathered generalizing sorts with
  | nil =>
    cases sorted
    exact .nil
  | cons found others ih =>
    obtain _ | ⟨first, rest⟩ := sorted
    refine .cons ?_ (ih rest)
    unfold Arena.sortOf at first
    split at first
    · cases first
      exact recorded.typed _ _ _ found ‹_›
    · cases first

theorem register (recorded : Recorded formula memo columns) {name identifier : String}
    {sort : TermSort} {type : NativeType} {after : Columns}
    (symbol : formula.HasSymbol name sort) (native : sort.native = .ok type)
    (registered : columns.register name type = .ok (identifier, after)) :
    Recorded formula memo after ∧
      ∃ column ∈ after.list, column.name = name ∧ column.type = type := by
  rcases register_ok registered with ⟨column, member, rfl, rfl, _, rfl⟩ | ⟨rfl, unclaimed, rfl⟩
  · exact ⟨recorded, column, member, rfl, rfl⟩
  · let added : Column := ⟨name, identifierOf name, type⟩
    refine ⟨⟨recorded.typed, ?_, ?_, ?_, distinct_append recorded.distinct unclaimed⟩,
      added, by simp [added], rfl, rfl⟩
    · intro id lowered node other inMemo found named
      obtain ⟨column, member, rest⟩ := recorded.listed id lowered node other inMemo found named
      exact ⟨column, List.mem_append_left [added] member, rest⟩
    · intro column member
      rcases List.mem_append.mp member with old | new
      · exact recorded.identified column old
      · cases List.mem_singleton.mp new
        rfl
    · intro column member
      rcases List.mem_append.mp member with old | new
      · exact recorded.backed column old
      · cases List.mem_singleton.mp new
        exact ⟨sort, symbol, native⟩

theorem remember (recorded : Recorded formula memo columns) {id : NodeId} {node : Node}
    {lowered : Lowered} (found : formula.arena.node? id = some node)
    (native : node.sort.native = .ok lowered.type)
    (listed : ∀ name, node.operator = .symbol name →
      ∃ column ∈ columns.list, column.name = name ∧ column.type = lowered.type) :
    Recorded formula (memo.insert id lowered) columns := by
  refine ⟨?_, ?_, recorded.identified, recorded.backed, recorded.distinct⟩
  · intro other result otherNode inMemo otherFound
    rw [Std.HashMap.getElem?_insert] at inMemo
    split at inMemo
    · rename_i same
      cases inMemo
      rw [← beq_iff_eq.mp same, found] at otherFound
      cases otherFound
      exact native
    · exact recorded.typed other result otherNode inMemo otherFound
  · intro other result otherNode name inMemo otherFound named
    rw [Std.HashMap.getElem?_insert] at inMemo
    split at inMemo
    · rename_i same
      cases inMemo
      rw [← beq_iff_eq.mp same, found] at otherFound
      cases otherFound
      obtain ⟨column, member, sameName, sameType⟩ := listed name named
      exact ⟨column, member, sameName, sameType ▸ native⟩
    · exact recorded.listed other result otherNode name inMemo otherFound named

end Recorded

variable {formula : Formula}

theorem depart_recorded (sorted : formula.WellSorted) (id : NodeId) (node : Node)
    (passage after : Pass.Passage Draft Lowered)
    (path : formula.arena.Reaches formula.root id) (found : formula.arena.node? id = some node)
    (recorded : Recorded formula passage.1 passage.2.columns)
    (_unknown : passage.1.contains id = false)
    (left : lowering.depart id node passage = .ok after) :
    Recorded formula after.1 after.2.columns := by
  obtain ⟨sorts, childSorts, signature⟩ := (sorted id node path found).signature
  obtain ⟨operands, lowered, gathered, done, remembered⟩ := Pass.depart_ok left
  have typed := recorded.operands (Pass.arguments_ok.mp gathered) childSorts
  have native := (lower_cases done).typed signature typed
  rw [remembered]
  obtain ⟨type, resolved, ⟨name, identifier, named, registered⟩ | ⟨applied, same⟩⟩ :=
    lower_columns done
  · rw [native] at resolved
    cases resolved
    obtain ⟨wider, column, member, sameName, sameType⟩ :=
      recorded.register ⟨id, node, path, found, named, rfl⟩ native registered
    refine wider.remember found native fun other isOther => ?_
    rw [named] at isOther
    cases isOther
    exact ⟨column, member, sameName, sameType⟩
  · rw [same]
    exact recorded.remember found native fun name named => absurd named (applied name)

theorem Recorded.not_collides {memo : Std.HashMap NodeId Lowered} {columns : Columns}
    (recorded : Recorded formula memo columns)
    (covers : ∀ id, formula.arena.Reaches formula.root id → ∃ lowered, memo[id]? = some lowered) :
    ¬ formula.Collides := by
  rintro ⟨_, _, _, _, ⟨firstId, first, firstPath, firstFound, firstNamed, rfl⟩,
    ⟨secondId, second, secondPath, secondFound, secondNamed, rfl⟩, different, sameIdentifier⟩
  obtain ⟨_, firstKnown⟩ := covers firstId firstPath
  obtain ⟨_, secondKnown⟩ := covers secondId secondPath
  obtain ⟨column, member, rfl, native⟩ :=
    recorded.listed _ _ _ _ firstKnown firstFound firstNamed
  obtain ⟨other, otherMember, rfl, otherNative⟩ :=
    recorded.listed _ _ _ _ secondKnown secondFound secondNamed
  rw [← recorded.identified column member, ← recorded.identified other otherMember]
    at sameIdentifier
  cases recorded.distinct column member other otherMember sameIdentifier
  apply different
  rw [TermSort.native_ok native, TermSort.native_ok otherNative]

theorem lower_accepted (sorted : formula.WellSorted) {function : Function}
    (lowered : formula.lower = .ok function) :
    formula.Scalar ∧ ¬ formula.Collides ∧
      ∀ node, formula.arena.node? formula.root = some node →
        node.sort.native = .ok function.result.type := by
  obtain ⟨result, draft, walked, rfl⟩ := lower_ok lowered
  obtain ⟨memo, recorded, atRoot, covers⟩ :=
    Pass.run_reached Recorded.start (depart_recorded sorted) walked
  refine ⟨?_, recorded.not_collides covers, fun node found => recorded.typed _ _ _ atRoot found⟩
  intro id node path found
  obtain ⟨lowered, known⟩ := covers id path
  exact TermSort.native_scalar (recorded.typed _ _ _ known found)

theorem lower_rejected (sorted : formula.WellSorted) {error : Error}
    (failed : formula.lower = .error error) :
    (error.IsClash ∧ formula.Collides) ∨ (error.IsUnrepresented ∧ ¬ formula.Scalar) := by
  have walked : lowering.run formula .empty = .error error := by
    unfold Formula.lower at failed
    cases outcome : lowering.run formula .empty with
    | error first =>
      rw [outcome] at failed
      cases failed
      rfl
    | ok pair =>
      rw [outcome] at failed
      cases failed
  -- A node is refused where it is met, so a clash names columns that are there already.
  cases Pass.run_fails Recorded.start (depart_recorded sorted) walked with
  | entering path found refused =>
    obtain ⟨_, _, signature⟩ := (sorted _ _ path found).signature
    simp [lowering, Node.admit, signature.supported] at refused
  | leaving path found recorded entered gathered rejected =>
    rename_i id node passage operands
    obtain ⟨sorts, childSorts, signature⟩ := (sorted id node path found).signature
    have typed := recorded.operands gathered childSorts
    rcases lower_refused (sorted id node path found).narrow signature typed rejected with
      ⟨unrepresented, abstract⟩ | ⟨name, type, named, native, refused⟩
    · exact .inr ⟨unrepresented, fun scalar => abstract (scalar id node path found)⟩
    · obtain ⟨clash, column, member, same, different⟩ :=
        register_error recorded.identified refused
      obtain ⟨sort, symbol, columnNative⟩ := recorded.backed column member
      refine .inl ⟨clash, column.name, sort, name, node.sort, symbol,
        ⟨id, node, path, found, named, rfl⟩, fun equal => different ?_, same⟩
      obtain ⟨sameName, rfl⟩ := Prod.mk.inj equal
      rw [native] at columnNative
      rw [sameName, Except.ok.inj columnNative]

/-- A well-sorted formula has an evaluator function exactly if it has scalars only and its
symbols do not collide. It is refused for what it lacks of these, and the function returns
the machine type of the root's sort. -/
theorem lower_succeeds_iff (formula : Formula) (sorted : formula.WellSorted) :
    ((∃ function, formula.lower = .ok function) ↔ formula.Scalar ∧ ¬ formula.Collides) ∧
      (∀ error, formula.lower = .error error →
        (error.IsClash ∧ formula.Collides) ∨ (error.IsUnrepresented ∧ ¬ formula.Scalar)) ∧
      ∀ function node, formula.lower = .ok function →
        formula.arena.node? formula.root = some node →
        node.sort.native = .ok function.result.type := by
  refine ⟨⟨?_, ?_⟩, fun error failed => lower_rejected sorted failed, ?_⟩
  · rintro ⟨function, lowered⟩
    obtain ⟨scalar, distinct, _⟩ := lower_accepted sorted lowered
    exact ⟨scalar, distinct⟩
  · rintro ⟨scalar, distinct⟩
    cases outcome : formula.lower with
    | ok function => exact ⟨function, rfl⟩
    | error error =>
      rcases lower_rejected sorted outcome with ⟨_, collides⟩ | ⟨_, abstract⟩
      · exact absurd collides distinct
      · exact absurd scalar abstract
  · intro function node lowered found
    exact (lower_accepted sorted lowered).2.2 node found

/-- Two names of one identifier. -/
def dottedNames : Formula where
  arena := .ofNodes #[⟨.symbol "x.y", [], .bool⟩, ⟨.symbol "x_y", [], .bool⟩, ⟨.and, [0, 1], .bool⟩]
  root := 2
  ordered := by decide
  rooted := by decide

theorem dottedNames_wellSorted : dottedNames.WellSorted := by
  intro id node _ found
  have member := Arena.mem_nodes found
  simp only [dottedNames, Arena.ofNodes, List.mem_cons, List.not_mem_nil, or_false] at member
  rcases member with rfl | rfl | rfl
  · exact ⟨⟨[], _, rfl, .symbol "x.y" .bool⟩, fun absent => (by cases absent), trivial⟩
  · exact ⟨⟨[], _, rfl, .symbol "x_y" .bool⟩, fun absent => (by cases absent), trivial⟩
  · exact ⟨⟨[.bool, .bool], _, rfl, .junction (by decide) 1⟩, fun _ => rfl, trivial⟩

theorem identifierOf_dotted : identifierOf "x.y" = identifierOf "x_y" := by cbv

theorem dottedNames_collides : dottedNames.Collides := by
  have path : dottedNames.arena.Reaches 2 2 := .root
  refine ⟨"x.y", .bool, "x_y", .bool, ⟨0, _, ?_, rfl, rfl, rfl⟩, ⟨1, _, ?_, rfl, rfl, rfl⟩,
    by decide, identifierOf_dotted⟩
  · exact path.child rfl (by decide)
  · exact path.child rfl (by decide)

theorem lower_succeeds_iff_sharedQuotient :
    sharedQuotient.Scalar ∧ ¬ sharedQuotient.Collides ∧ dottedNames.Collides ∧
      ¬ ∃ function, dottedNames.lower = .ok function := by
  have lowered : sharedQuotient.lower = .ok sharedQuotientFunction := by cbv
  obtain ⟨scalar, distinct⟩ :=
    (lower_succeeds_iff sharedQuotient sharedQuotient_wellSorted).1.mp ⟨_, lowered⟩
  refine ⟨scalar, distinct, dottedNames_collides, fun lowered => ?_⟩
  exact ((lower_succeeds_iff dottedNames dottedNames_wellSorted).1.mp lowered).2
    dottedNames_collides

def arrayNodes : Arena :=
  .ofNodes #[⟨.symbol "a", [], .array .int .int⟩, ⟨.equals, [0, 0], .bool⟩,
    ⟨.symbol "x.y", [], .bool⟩, ⟨.symbol "x_y", [], .bool⟩, ⟨.and, [1, 2, 3], .bool⟩]

/-- A formula with one symbol, which is an array. -/
def equalArrays : Formula := ⟨arrayNodes, 1, by decide, by decide⟩

/-- The array is met before the names that collide. -/
def dottedArrays : Formula := ⟨arrayNodes, 4, by decide, by decide⟩

theorem arrayNodes_wellSorted {id : NodeId} {node : Node}
    (found : arrayNodes.node? id = some node) : arrayNodes.WellSorted node := by
  have member := Arena.mem_nodes found
  simp only [arrayNodes, Arena.ofNodes, List.mem_cons, List.not_mem_nil, or_false] at member
  rcases member with rfl | rfl | rfl | rfl | rfl
  · exact ⟨⟨[], _, rfl, .symbol "a" (.array .int .int)⟩, fun absent => (by cases absent), trivial⟩
  · exact ⟨⟨[.array .int .int, .array .int .int], _, rfl, .equals _⟩, fun _ => rfl, trivial⟩
  · exact ⟨⟨[], _, rfl, .symbol "x.y" .bool⟩, fun absent => (by cases absent), trivial⟩
  · exact ⟨⟨[], _, rfl, .symbol "x_y" .bool⟩, fun absent => (by cases absent), trivial⟩
  · exact ⟨⟨[.bool, .bool, .bool], _, rfl, .junction (by decide) 2⟩, fun _ => rfl, trivial⟩

theorem equalArrays_symbol {name : String} {sort : TermSort}
    (symbol : equalArrays.HasSymbol name sort) : (name, sort) = ("a", .array .int .int) := by
  obtain ⟨id, node, path, found, named, rfl⟩ := symbol
  have listed : id = 1 ∨ id = 0 := by
    clear found
    induction path with
    | root => exact .inl rfl
    | @child _ child _ path found member ih =>
      rcases ih with rfl | rfl <;> cases found
      · have either : child ∈ [0, 0] := member
        exact .inr (by simpa using either)
      · cases member
  rcases listed with rfl | rfl <;> cases found <;> cases named
  rfl

/-- Without a machine type for arrays, symbols that do not collide are not enough, and those
that do may not be what is reported. -/
theorem arrays_refused :
    (equalArrays.WellSorted ∧ ¬ equalArrays.Collides ∧
      equalArrays.lower = .error (.sort (.array .int .int) .unrepresented)) ∧
    dottedArrays.WellSorted ∧ dottedArrays.Collides ∧
      dottedArrays.lower = .error (.sort (.array .int .int) .unrepresented) := by
  refine ⟨⟨fun _ _ _ found => arrayNodes_wellSorted found, ?_, by cbv⟩,
    fun _ _ _ found => arrayNodes_wellSorted found, ?_, by cbv⟩
  · rintro ⟨_, _, _, _, first, second, different, _⟩
    exact different ((equalArrays_symbol first).trans (equalArrays_symbol second).symm)
  · have path : arrayNodes.Reaches 4 4 := .root
    exact ⟨"x.y", .bool, "x_y", .bool, ⟨2, _, path.child rfl (by decide), rfl, rfl, rfl⟩,
      ⟨3, _, path.child rfl (by decide), rfl, rfl, rfl⟩, by decide, identifierOf_dotted⟩

end Code

end Formulary
