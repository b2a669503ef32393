import Formulary.Proofs.Evaluation
import Formulary.Proofs.Typing

/-! Evaluation of well-sorted formulas never fails. Every operator takes values of the
sorts in its signature to a value of the sort there; along the nodes of a formula this
carries over from the children to each parent. -/
namespace Formulary

theorem foldl_and (first : Bool) (rest : List Bool) :
    rest.foldl (· && ·) first = (first :: rest).all id := by
  induction rest generalizing first with
  | nil => simp
  | cons second rest ih => simp [ih, Bool.and_assoc]

theorem foldl_or (first : Bool) (rest : List Bool) :
    rest.foldl (· || ·) first = (first :: rest).any id := by
  induction rest generalizing first with
  | nil => simp
  | cons second rest ih => simp [ih, Bool.or_assoc]

theorem made_alike {α β γ : Type} {relation : β → γ → Prop} {make : α → β} {kind : γ}
    {list : List β} {count : Nat}
    (shape : ∀ element, relation element kind → ∃ held, element = make held)
    (typed : List.Forall₂ relation list (List.replicate count kind)) :
    ∃ holdings : List α, list = holdings.map make ∧ holdings.length = count := by
  induction count generalizing list with
  | zero =>
    cases typed
    exact ⟨[], rfl, rfl⟩
  | succ count ih =>
    obtain _ | ⟨first, others⟩ := typed
    obtain ⟨held, rfl⟩ := shape _ first
    obtain ⟨rest, rfl, counted⟩ := ih others
    exact ⟨held :: rest, rfl, by rw [List.length_cons, counted]⟩

namespace Value

/-- Values by sort. A bit-vector has no bits above its width. -/
inductive HasSort : Value → TermSort → Prop where
  | bool (value : Bool) : HasSort (.bool value) .bool
  | int (value : Int64) : HasSort (.int value) .int
  | real (value : Float) : HasSort (.real value) .real
  | bitVec {bits : UInt64} {width : Nat} (fits : bits.toNat < 2 ^ width) :
      HasSort (.bitVec bits width) (.bitVec width)

theorem HasSort.vector (bits : UInt64) {width : Nat} (narrow : width ≤ 64) :
    (Value.vector bits width).HasSort (.bitVec width) := by
  refine .bitVec ?_
  rw [toNat_and_lowBits bits narrow]
  exact Nat.mod_lt _ (Nat.two_pow_pos width)

theorem HasSort.ofLiteral (literal : Literal) (narrow : literal.sort.Narrow) :
    (Value.ofLiteral literal).HasSort literal.sort := by
  cases literal with
  | bool value => exact .bool value
  | int value => exact .int value
  | real value => exact .real value.toFloat
  | bitVec bits width => exact .vector bits narrow.2

theorem HasSort.bools {values : List Value} {count : Nat}
    (typed : List.Forall₂ HasSort values (List.replicate count .bool)) :
    ∃ list : List Bool, values = list.map .bool ∧ list.length = count := by
  refine made_alike (fun value held => ?_) typed
  cases held
  exact ⟨_, rfl⟩

theorem HasSort.ints {values : List Value} {count : Nat}
    (typed : List.Forall₂ HasSort values (List.replicate count .int)) :
    ∃ list : List Int64, values = list.map .int ∧ list.length = count := by
  refine made_alike (fun value held => ?_) typed
  cases held
  exact ⟨_, rfl⟩

theorem HasSort.reals {values : List Value} {count : Nat}
    (typed : List.Forall₂ HasSort values (List.replicate count .real)) :
    ∃ list : List Float, values = list.map .real ∧ list.length = count := by
  refine made_alike (fun value held => ?_) typed
  cases held
  exact ⟨_, rfl⟩

theorem HasSort.vectors {values : List Value} {width count : Nat}
    (typed : List.Forall₂ HasSort values (List.replicate count (.bitVec width))) :
    ∃ list : List UInt64, values = list.map (.bitVec · width) ∧ list.length = count := by
  refine made_alike (fun value held => ?_) typed
  cases held
  exact ⟨_, rfl⟩

theorem mapM_map_of_inverse {α : Type} (make : α → Value) (read? : Value → Option α)
    (inverse : ∀ item, read? (make item) = some item) (list : List α) :
    (list.map make).mapM read? = some list := by
  induction list with
  | nil => rfl
  | cons item rest ih => simp [inverse, ih]

theorem bools?_map (first : Bool) (rest : List Bool) :
    bools? ((first :: rest).map bool) = some (first :: rest) :=
  mapM_map_of_inverse bool bool? (fun _ => rfl) (first :: rest)

theorem foldInts?_ints (step : Int64 → Int64 → Int64) (first : Int64) (rest : List Int64) :
    foldInts? step ((first :: rest).map int) = some (int (rest.foldl step first)) := by
  rw [foldInts?, mapM_map_of_inverse int int? fun _ => rfl]

theorem foldInts?_reals (step : Int64 → Int64 → Int64) (first : Float) (rest : List Float) :
    foldInts? step ((first :: rest).map real) = none := by
  simp [foldInts?, int?]

theorem foldReals?_reals (step : Float → Float → Float) (first : Float) (rest : List Float) :
    foldReals? step ((first :: rest).map real) = some (real (rest.foldl step first)) := by
  rw [foldReals?, mapM_map_of_inverse real real? fun _ => rfl]

theorem vectors?_map (first : UInt64) (rest : List UInt64) (width : Nat) :
    vectors? ((first :: rest).map (bitVec · width)) = some (first, rest, width) := by
  have all : ∀ list : List UInt64, bitsOfWidth? width (list.map (bitVec · width)) = some list := by
    intro list
    induction list with
    | nil => rfl
    | cons bits others ih => simp [bitsOfWidth?, ih]
  simp [vectors?, all]

end Value

/-- Values as an operator takes them for a result of a sort, with all widths in range. -/
structure Operator.Accepts (operator : Operator) (sorts : List TermSort) (sort : TermSort)
    (values : List Value) : Prop where
  signature : operator.Signature sorts sort
  typed : List.Forall₂ Value.HasSort values sorts
  narrow : sort.Narrow
  narrowArguments : ∀ sort ∈ sorts, sort.Narrow

namespace Application

variable (operator : Operator)

theorem arithmetic_ints (ints : Int64 → Int64 → Int64) (reals : Float → Float → Float)
    (first : Int64) (rest : List Int64) :
    arithmetic ⟨operator, (first :: rest).map .int⟩ ints reals =
      .ok (.int (rest.foldl ints first)) := by
  rw [arithmetic, Value.foldInts?_ints]
  rfl

theorem arithmetic_reals (ints : Int64 → Int64 → Int64) (reals : Float → Float → Float)
    (first : Float) (rest : List Float) :
    arithmetic ⟨operator, (first :: rest).map .real⟩ ints reals =
      .ok (.real (rest.foldl reals first)) := by
  rw [arithmetic, Value.foldInts?_reals, Value.foldReals?_reals]
  rfl

theorem bitwise_vectors (step : UInt64 → UInt64 → UInt64) (first : UInt64)
    (rest : List UInt64) (width : Nat) :
    bitwise ⟨operator, (first :: rest).map (.bitVec · width)⟩ step =
      .ok (.vector (rest.foldl step first) width) := by
  rw [bitwise, Value.vectors?_map]
  rfl

theorem onVectors_pair (compute : UInt64 → UInt64 → Nat → Except Error Value)
    (left right : UInt64) (width : Nat) :
    onVectors ⟨operator, [.bitVec left width, .bitVec right width]⟩ compute =
      compute left right width := by
  simp [onVectors, withArity]

theorem extract_vector (bits : UInt64) {low high width : Nat} (forward : low ≤ high)
    (inside : high < width) (narrow : width ≤ 64) :
    extract ⟨operator, [.bitVec bits width]⟩ low high =
      .ok (.vector (bits >>> low.toUInt64) (high - low + 1)) := by
  have bounded : ¬(high < low ∨ width ≤ high) := by omega
  have room : low < 64 := by omega
  simp [extract, onVector, withArity, bounded, room]

theorem concat_vectors (left right : UInt64) {high low : Nat} (positive : 1 ≤ high)
    (narrow : high + low ≤ 64) :
    concat ⟨operator, [.bitVec left high, .bitVec right low]⟩ =
      .ok (.vector (left <<< low.toUInt64 ||| right) (high + low)) := by
  have half : ¬Word.halfSize ≤ high + low :=
    Nat.not_le.mpr (Nat.lt_of_le_of_lt narrow (by decide))
  have fits : ¬64 < high + low := by omega
  have room : ¬64 ≤ low := by omega
  simp [concat, withArity, half, fits, room]

variable {operator}

theorem arithmetic_sound {sort : TermSort} {arguments : List Value} {more : Nat}
    (member : operator ∈ [.plus, .minus, .times, .div]) (numeric : sort.Numeric)
    (typed : List.Forall₂ Value.HasSort arguments (List.replicate (more + 1) sort)) :
    ∃ value, Application.value ⟨operator, arguments⟩ = .ok value ∧ value.HasSort sort := by
  rcases numeric with rfl | rfl
  · obtain ⟨_ | ⟨first, rest⟩, rfl, counted⟩ := Value.HasSort.ints typed
    · cases counted
    · fin_cases member
      · exact ⟨_, arithmetic_ints .plus _ _ first rest, .int _⟩
      · cases rest with
        | nil => exact ⟨_, rfl, .int _⟩
        | cons second rest =>
          exact ⟨_, arithmetic_ints .minus _ _ first (second :: rest), .int _⟩
      · exact ⟨_, arithmetic_ints .times _ _ first rest, .int _⟩
      · exact ⟨_, arithmetic_ints .div _ _ first rest, .int _⟩
  · obtain ⟨_ | ⟨first, rest⟩, rfl, counted⟩ := Value.HasSort.reals typed
    · cases counted
    · fin_cases member
      · exact ⟨_, arithmetic_reals .plus _ _ first rest, .real _⟩
      · cases rest with
        | nil => exact ⟨_, rfl, .real _⟩
        | cons second rest =>
          exact ⟨_, arithmetic_reals .minus _ _ first (second :: rest), .real _⟩
      · exact ⟨_, arithmetic_reals .times _ _ first rest, .real _⟩
      · exact ⟨_, arithmetic_reals .div _ _ first rest, .real _⟩

theorem word_sound {width : Nat}
    (member : operator ∈
      [.bvShl, .bvLShr, .bvAShr, .bvAdd, .bvSub, .bvMul, .bvUDiv, .bvSDiv])
    (positive : 1 ≤ width) (narrow : width ≤ 64) (left right : UInt64) :
    ∃ value, Application.value ⟨operator, [.bitVec left width, .bitVec right width]⟩ =
      .ok value ∧ value.HasSort (.bitVec width) := by
  obtain ⟨shifted, shiftedSigned⟩ :=
    Word.shiftRightSigned?_isSome left right positive narrow
  obtain ⟨quotient, dividedSigned⟩ := Word.divSigned?_isSome left right positive narrow
  fin_cases member <;>
    simp only [value, onVectors_pair, Word.shiftLeft?_eq left right narrow,
      Word.shiftRight?_eq left right narrow, shiftedSigned, dividedSigned, word] <;>
    exact ⟨_, rfl, .vector _ narrow⟩

/-- An operator takes values of the sorts in its signature to a value of the sort there. -/
theorem value_sound {sorts : List TermSort} {sort : TermSort} {arguments : List Value}
    (accepts : operator.Accepts sorts sort arguments)
    (applied : ∀ name, operator ≠ .symbol name) :
    ∃ value, Application.value ⟨operator, arguments⟩ = .ok value ∧ value.HasSort sort := by
  obtain ⟨signature, typed, narrow, narrowArguments⟩ := accepts
  cases signature with
  | symbol name sort => exact absurd rfl (applied name)
  | constant literal => exact ⟨_, rfl, .ofLiteral literal narrow⟩
  | not =>
    obtain _ | ⟨⟨p⟩, _ | _⟩ := typed
    exact ⟨_, rfl, .bool _⟩
  | junction member more =>
    obtain ⟨_ | ⟨first, rest⟩, rfl, counted⟩ := Value.HasSort.bools typed
    · cases counted
    · fin_cases member <;>
        exact ⟨_, by rw [value, Value.bools?_map]; rfl, .bool _⟩
  | connective member =>
    obtain _ | ⟨⟨p⟩, _ | ⟨⟨q⟩, _ | _⟩⟩ := typed
    fin_cases member <;> exact ⟨_, rfl, .bool _⟩
  | equals sort =>
    obtain _ | ⟨first, _ | ⟨second, _ | _⟩⟩ := typed
    exact ⟨_, rfl, .bool _⟩
  | ite sort =>
    obtain _ | ⟨⟨condition⟩, _ | ⟨first, _ | ⟨second, _ | _⟩⟩⟩ := typed
    cases condition with
    | true => exact ⟨_, rfl, first⟩
    | false => exact ⟨_, rfl, second⟩
  | arithmetic member numeric more => exact arithmetic_sound member numeric typed
  | pow numeric =>
    rcases numeric with rfl | rfl <;>
      obtain _ | ⟨⟨base⟩, _ | ⟨⟨exponent⟩, _ | _⟩⟩ := typed
    · exact ⟨_, rfl, .int _⟩
    · exact ⟨_, rfl, .real _⟩
  | comparison member numeric =>
    rcases numeric with rfl | rfl <;>
      obtain _ | ⟨⟨left⟩, _ | ⟨⟨right⟩, _ | _⟩⟩ := typed <;>
      fin_cases member <;> exact ⟨_, rfl, .bool _⟩
  | inversion member width =>
    obtain _ | ⟨⟨fits⟩, _ | _⟩ := typed
    have small := narrow.2
    fin_cases member <;> exact ⟨_, rfl, .vector _ small⟩
  | bitwise member width more =>
    have small := narrow.2
    obtain ⟨_ | ⟨first, rest⟩, rfl, counted⟩ := Value.HasSort.vectors typed
    · cases counted
    · fin_cases member <;> exact ⟨_, bitwise_vectors _ _ first rest width, .vector _ small⟩
  | word member width =>
    obtain ⟨positive, small⟩ := narrow
    obtain _ | ⟨⟨leftFits⟩, _ | ⟨⟨rightFits⟩, _ | _⟩⟩ := typed
    exact word_sound member positive small _ _
  | order member width =>
    obtain ⟨positive, small⟩ := narrowArguments (.bitVec width) (by simp)
    obtain _ | ⟨⟨leftFits⟩, _ | ⟨⟨rightFits⟩, _ | _⟩⟩ := typed
    fin_cases member <;>
      simp only [value, compareSigned, onVectors_pair, Word.signed?_eq _ positive small] <;>
      exact ⟨_, rfl, .bool _⟩
  | bvComp width =>
    obtain _ | ⟨⟨leftFits⟩, _ | ⟨⟨rightFits⟩, _ | _⟩⟩ := typed
    simp only [value, onVectors_pair]
    exact ⟨_, rfl, .vector _ (by decide)⟩
  | bvExtract forward inside =>
    have width := (narrowArguments _ (List.mem_singleton.mpr rfl)).2
    obtain _ | ⟨⟨fits⟩, _ | _⟩ := typed
    exact ⟨_, extract_vector _ _ forward inside width, .vector _ narrow.2⟩
  | bvConcat high low =>
    have positive := (narrowArguments (.bitVec high) (by simp)).1
    have small := narrow.2
    obtain _ | ⟨⟨leftFits⟩, _ | ⟨⟨rightFits⟩, _ | _⟩⟩ := typed
    exact ⟨_, concat_vectors _ _ _ positive small, .vector _ small⟩

end Application

theorem Value.HasSort.native {value : Value} {sort : TermSort} (typed : value.HasSort sort)
    (narrow : sort.Narrow) : ∃ type, sort.native = .ok type := by
  cases typed with
  | bool | int | real => exact ⟨_, rfl⟩
  | bitVec fits => exact ⟨_, if_pos narrow⟩

theorem Row.value_sound {row : Row} {name : String} {literal : Literal}
    (bound : row.get? name = some literal) (index : Nat) (narrow : literal.sort.Narrow) :
    ∃ value, row.value index name literal.sort = .ok value ∧ value.HasSort literal.sort := by
  refine ⟨.ofLiteral literal, ?_, .ofLiteral literal narrow⟩
  simp [Row.value, bound]

theorem Node.value_applied {node : Node} (applied : ∀ name, node.operator ≠ .symbol name)
    (row : Row) (index : Nat) (arguments : List Value) :
    node.value row index arguments = Application.value ⟨node.operator, arguments⟩ := by
  unfold Node.value
  split
  · rename_i name named
    exact absurd named (applied name)
  · rfl

theorem Node.typedValue_sound {node : Node} {row : Row} {sorts : List TermSort}
    {arguments : List Value} (index : Nat)
    (accepts : node.operator.Accepts sorts node.sort arguments)
    (bound : ∀ name, node.operator = .symbol name →
      ∃ literal, row.get? name = some literal ∧ literal.sort = node.sort) :
    ∃ value, node.typedValue row index arguments = .ok value ∧ value.HasSort node.sort := by
  have valued : ∃ value, node.value row index arguments = .ok value ∧
      value.HasSort node.sort := by
    unfold Node.value
    split
    · rename_i name named
      obtain ⟨literal, stored, same⟩ := bound name named
      have narrow := accepts.narrow
      rw [← same] at narrow ⊢
      exact Row.value_sound stored index narrow
    · rename_i applied
      exact Application.value_sound accepts fun name named => applied name named
  obtain ⟨value, computed, held⟩ := valued
  obtain ⟨type, native⟩ := held.native accepts.narrow
  refine ⟨value, ?_, held⟩
  simp [Node.typedValue, native, computed]

namespace Formula

variable {formula : Formula} {row : Row} {index : Nat}

theorem arguments_sound {list : List NodeId} {sorts : List TermSort}
    (children : List.Forall₂ (fun child sort => formula.arena.sortOf child = .ok sort) list sorts)
    (each : ∀ child ∈ list, ∀ node, formula.arena.node? child = some node →
      node.sort.Narrow ∧ ∃ value,
        formula.arena.valueAt formula.ordered row index child = .ok value ∧
          value.HasSort node.sort) :
    ∃ values, list.mapM (formula.arena.valueAt formula.ordered row index) = .ok values ∧
      List.Forall₂ Value.HasSort values sorts ∧ ∀ sort ∈ sorts, sort.Narrow := by
  induction children with
  | nil => exact ⟨[], rfl, .nil, by simp⟩
  | @cons child sort list sorts sorted _ ih =>
    obtain ⟨node, found, same⟩ : ∃ node, formula.arena.node? child = some node ∧
        node.sort = sort := by
      unfold Arena.sortOf at sorted
      split at sorted
      · rename_i node found
        exact ⟨node, found, Except.ok.inj sorted⟩
      · cases sorted
    obtain ⟨narrow, value, computed, held⟩ := each child List.mem_cons_self node found
    obtain ⟨values, others, typed, small⟩ := ih fun child member =>
      each child (List.mem_cons_of_mem _ member)
    subst same
    refine ⟨value :: values, ?_, .cons held typed, ?_⟩
    · simp [computed, others, bind, Except.bind, pure, Except.pure]
    · simpa using ⟨narrow, small⟩

theorem accepts_children (sorted : formula.WellSorted) {id : NodeId} {node : Node}
    (reached : formula.arena.Reaches formula.root id)
    (found : formula.arena.node? id = some node)
    (each : ∀ child ∈ node.children, ∀ childNode,
      formula.arena.node? child = some childNode → ∃ value,
        formula.arena.valueAt formula.ordered row index child = .ok value ∧
          value.HasSort childNode.sort) :
    ∃ sorts values,
      node.children.mapM (formula.arena.valueAt formula.ordered row index) = .ok values ∧
        node.operator.Accepts sorts node.sort values := by
  have wellSorted := sorted id node reached found
  obtain ⟨sorts, children, signature⟩ := wellSorted.signature
  obtain ⟨values, computed, typed, small⟩ := arguments_sound children
    fun child member childNode childFound =>
      ⟨(sorted child childNode (reached.child found member) childFound).narrow,
        each child member childNode childFound⟩
  exact ⟨sorts, values, computed, signature, typed, wellSorted.narrow, small⟩

theorem valueAt_sound (sorted : formula.WellSorted) (bound : formula.BoundBy row)
    {id : NodeId} {node : Node} (reached : formula.arena.Reaches formula.root id)
    (found : formula.arena.node? id = some node) :
    ∃ value, formula.arena.valueAt formula.ordered row index id = .ok value ∧
      value.HasSort node.sort := by
  -- Children stand before their parents, so they have values already.
  induction id using NodeId.strongRecOn generalizing node with
  | ind id ih =>
    obtain ⟨sorts, values, computed, accepts⟩ := accepts_children sorted reached found
      fun child member childNode childFound =>
        ih child (formula.ordered id node found child member) (reached.child found member)
          childFound
    obtain ⟨value, valued, held⟩ := Node.typedValue_sound index accepts
      (bound id node · reached found)
    refine ⟨value, ?_, held⟩
    rw [Arena.valueAt_found found, Node.enters accepts.signature.supported, computed]
    exact valued

theorem children_sound (sorted : formula.WellSorted) (bound : formula.BoundBy row)
    {id : NodeId} {node : Node} (reached : formula.arena.Reaches formula.root id)
    (found : formula.arena.node? id = some node) :
    ∃ sorts values,
      node.children.mapM (formula.arena.valueAt formula.ordered row index) = .ok values ∧
        node.operator.Accepts sorts node.sort values :=
  accepts_children sorted reached found fun _ member _ childFound =>
    valueAt_sound sorted bound (reached.child found member) childFound

end Formula

/-- A well-sorted formula has a value of its root's sort under every row that binds its
symbols; a formula of truth values is satisfied or not. -/
theorem evaluation_sound (formula : Formula) (row : Row) (sorted : formula.WellSorted)
    (bound : formula.BoundBy row) :
    ∃ value sort, formula.evaluate row = .ok value ∧
      formula.arena.sortOf formula.root = .ok sort ∧ value.HasSort sort ∧
      (sort = .bool → ∃ truth, value = .bool truth ∧ formula.satisfies row = .ok truth) := by
  obtain ⟨root, found⟩ := Arena.Reaches.root.found formula.ordered formula.rooted
  obtain ⟨value, computed, held⟩ := Formula.valueAt_sound sorted bound .root found
  have evaluated : formula.evaluate row = .ok value :=
    (formula.evaluateAt_eq row 0).trans computed
  refine ⟨value, root.sort, evaluated, by rw [Arena.sortOf, found], held, ?_⟩
  intro isBool
  rw [isBool] at held
  cases held with
  | bool truth =>
    exact ⟨truth, rfl, by simp [Formula.satisfies, evaluated, Value.bool?, bind, Except.bind,
      pure, Except.pure]⟩

/-- A comparison of bits taken from a vector joined to its complement. -/
def joinedHalves : Formula where
  arena := .ofNodes #[⟨.symbol "x", [], .bitVec 4⟩, ⟨.bvNot, [0], .bitVec 4⟩,
    ⟨.bvConcat, [0, 1], .bitVec 8⟩, ⟨.bvExtract 2 5, [2], .bitVec 4⟩,
    ⟨.bvSLt, [3, 0], .bool⟩]
  root := 4
  ordered := by decide
  rooted := by decide

theorem joinedHalves_wellSorted : joinedHalves.WellSorted := by
  intro id node _ found
  have member := Arena.mem_nodes found
  simp only [joinedHalves, Arena.ofNodes, List.mem_cons, List.not_mem_nil, or_false] at member
  rcases member with rfl | rfl | rfl | rfl | rfl
  · exact ⟨⟨[], _, rfl, .symbol "x" (.bitVec 4)⟩, fun absent => (by cases absent), by decide⟩
  · exact ⟨⟨[.bitVec 4], _, rfl, .inversion (by decide) 4⟩, fun _ => rfl, by decide⟩
  · exact ⟨⟨[.bitVec 4, .bitVec 4], _, rfl, .bvConcat 4 4⟩, fun _ => rfl,
      by decide⟩
  · exact ⟨⟨[.bitVec 8], _, rfl, .bvExtract (by decide) (by decide)⟩, fun _ => rfl,
      by decide⟩
  · exact ⟨⟨[.bitVec 4, .bitVec 4], _, rfl, .order (by decide) 4⟩, fun _ => rfl, trivial⟩

theorem joinedHalves_boundBy {row : Row} {bits : UInt64}
    (stored : row.get? "x" = some (.bitVec bits 4)) : joinedHalves.BoundBy row := by
  intro id node name _ found named
  have member := Arena.mem_nodes found
  simp only [joinedHalves, Arena.ofNodes, List.mem_cons, List.not_mem_nil, or_false] at member
  rcases member with rfl | rfl | rfl | rfl | rfl
  · cases named
    exact ⟨_, stored, rfl⟩
  all_goals cases named

/-- The row may bind a symbol to bits above its width. -/
theorem evaluation_sound_joinedHalves :
    joinedHalves.WellSorted ∧
      joinedHalves.BoundBy (Row.empty.insert "x" (.bitVec 0xFF 4)) ∧
      ∃ truth, joinedHalves.satisfies (Row.empty.insert "x" (.bitVec 0xFF 4)) = .ok truth := by
  have bound : joinedHalves.BoundBy (Row.empty.insert "x" (.bitVec 0xFF 4)) :=
    joinedHalves_boundBy rfl
  obtain ⟨value, sort, _, sorted, _, satisfied⟩ :=
    evaluation_sound joinedHalves _ joinedHalves_wellSorted bound
  cases sorted
  obtain ⟨truth, _, holds⟩ := satisfied rfl
  exact ⟨joinedHalves_wellSorted, bound, truth, holds⟩

end Formulary
