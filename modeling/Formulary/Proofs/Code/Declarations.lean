import Formulary.Code.Prelude
import Formulary.Proofs.Code.Refusal
import Formulary.Proofs.Traversal.Turns
import Mathlib.Data.Set.Card

namespace Formulary

/-- The nodes that are declared as temporaries. A conjunction or disjunction of one operand is
that operand. -/
def Node.materializes (node : Node) : Bool :=
  match node.operator with
  | .not | .implies | .iff | .equals | .le | .lt | .ite | .bvULt | .bvULe | .bvSLt | .bvSLe => true
  | .and | .or => 2 ≤ node.children.length
  | _ => false

def Arena.materializes (arena : Arena) (id : NodeId) : Bool :=
  match arena.node? id with
  | some node => node.materializes
  | none => false

namespace Code

/-- A name in an expression that is not a part of the language or of the prelude. -/
inductive Reference where
  | argument (identifier : String)
  | temporary (temporary : Temporary)

namespace Expression

mutual

def references : Expression → List Reference
  | argument identifier => [.argument identifier]
  | temporary declared => [.temporary declared]
  | literal _ => []
  | unary _ operand | extract _ _ _ _ operand => operand.references
  | chain _ operands => referencesOf operands
  | conditional condition first second =>
    condition.references ++ first.references ++ second.references
  | implication left right | integerQuotient left right | integerPower left right
  | realPower left right | wrapping _ _ left right | unsignedQuotient _ left right
  | signedQuotient left right | signedShiftRight left right | compare _ _ left right
  | sameBits left right | concat _ _ _ left right => left.references ++ right.references

def referencesOf : List Expression → List Reference
  | [] => []
  | first :: rest => first.references ++ referencesOf rest

end

theorem mem_referencesOf {expressions : List Expression} {reference : Reference} :
    reference ∈ referencesOf expressions ↔
      ∃ expression ∈ expressions, reference ∈ expression.references := by
  induction expressions with
  | nil => simp [referencesOf]
  | cons first rest ih => simp [referencesOf, ih]

end Expression

/-- What lowering a node can do. -/
inductive Lowers (node : Node) (operands : List Lowered) (draft : Draft) :
    Lowered → Draft → Prop where
  | kept {only : Lowered} {type : NativeType} (native : node.sort.native = .ok type)
      (keeps : node.operator.keepsSingle) (single : operands = [only]) :
      Lowers node operands draft only draft
  | symbol {name identifier : String} {type : NativeType} {columns : Columns}
      (native : node.sort.native = .ok type) (named : node.operator = .symbol name)
      (registered : draft.columns.register name type = .ok (identifier, columns)) :
      Lowers node operands draft ⟨.argument identifier, type, false⟩ { draft with columns }
  | declared {type : NativeType} {expression : Expression}
      (native : node.sort.native = .ok type)
      (formed : node.operator.expression type operands = .ok expression)
      (declares : node.operator.isDeclared)
      (several : node.operator.keepsSingle → ∀ only, operands ≠ [only]) :
      Lowers node operands draft (draft.declare type expression).1
        (draft.declare type expression).2
  | inline {type : NativeType} {expression : Expression}
      (native : node.sort.native = .ok type)
      (formed : node.operator.expression type operands = .ok expression)
      (undeclared : node.operator.isDeclared = false)
      (several : node.operator.keepsSingle → ∀ only, operands ≠ [only]) :
      Lowers node operands draft ⟨expression, type, false⟩ draft

theorem lowerTyped_cases {node : Node} {type : NativeType} {operands : List Lowered}
    {draft next : Draft} {lowered : Lowered} (native : node.sort.native = .ok type)
    (several : node.operator.keepsSingle → ∀ only, operands ≠ [only])
    (done : lowerTyped node.operator type operands draft = .ok (lowered, next)) :
    Lowers node operands draft lowered next := by
  unfold lowerTyped at done
  split at done
  · rename_i name named
    split at done
    · cases done
    · rename_i identifier columns registered
      cases done
      exact .symbol native named registered
  · split at done
    · cases done
    · rename_i expression formed
      split at done
      · rename_i declares
        cases done
        exact .declared native formed declares several
      · rename_i undeclared
        cases done
        exact .inline native formed (by simpa using undeclared) several

theorem lower_cases {node : Node} {operands : List Lowered} {draft next : Draft}
    {lowered : Lowered} (done : lower node operands draft = .ok (lowered, next)) :
    Lowers node operands draft lowered next := by
  unfold lower at done
  split at done
  · cases done
  · rename_i type native
    split at done
    · split at done
      · rename_i keeps
        cases done
        exact .kept native keeps rfl
      · rename_i written
        exact lowerTyped_cases native (fun keeps => absurd keeps written) done
    · rename_i several
      exact lowerTyped_cases native (fun _ => several) done

section References

variable {operator : Operator} {operands : List Lowered} {expression : Expression}
  {reference : Reference}

/-- A name that some operand mentions. -/
def Mentioned (operands : List Lowered) (reference : Reference) : Prop :=
  ∃ operand ∈ operands, reference ∈ operand.expression.references

theorem mentioned_of_map
    (mentions : reference ∈ Expression.referencesOf (operands.map (·.expression))) :
    Mentioned operands reference := by
  obtain ⟨expression, member, inside⟩ := Expression.mem_referencesOf.mp mentions
  obtain ⟨operand, listed, rfl⟩ := List.mem_map.mp member
  exact ⟨operand, listed, inside⟩

theorem chainOf_mentions {form : ChainOperator}
    (formed : operator.chainOf form operands = .ok expression)
    (mentions : reference ∈ expression.references) : Mentioned operands reference := by
  unfold Operator.chainOf at formed
  split at formed
  · cases formed
  · cases formed
    exact mentioned_of_map mentions

theorem oneOperand_mentions {form : Lowered → Except Error Expression}
    (each : ∀ operand, form operand = .ok expression → reference ∈ expression.references →
      reference ∈ operand.expression.references)
    (formed : operator.oneOperand operands form = .ok expression)
    (mentions : reference ∈ expression.references) : Mentioned operands reference := by
  unfold Operator.oneOperand at formed
  split at formed
  · exact ⟨_, List.mem_cons_self, each _ formed mentions⟩
  · cases formed

theorem twoOperands_mentions {form : Lowered → Lowered → Except Error Expression}
    (each : ∀ left right, form left right = .ok expression → reference ∈ expression.references →
      reference ∈ left.expression.references ++ right.expression.references)
    (formed : operator.twoOperands operands form = .ok expression)
    (mentions : reference ∈ expression.references) : Mentioned operands reference := by
  unfold Operator.twoOperands at formed
  split at formed
  · rcases List.mem_append.mp (each _ _ formed mentions) with first | second
    · exact ⟨_, List.mem_cons_self, first⟩
    · exact ⟨_, List.mem_cons_of_mem _ List.mem_cons_self, second⟩
  · cases formed

theorem pairOf_mentions {form : Expression → Expression → Expression}
    (each : ∀ left right, (form left right).references = left.references ++ right.references)
    (formed : operator.pairOf operands form = .ok expression)
    (mentions : reference ∈ expression.references) : Mentioned operands reference := by
  refine twoOperands_mentions (fun left right made inside => ?_) formed mentions
  cases made
  rwa [each] at inside

theorem quotients_mention {first : Expression} {rest : List Expression}
    (mentions : reference ∈ (rest.foldl Expression.integerQuotient first).references) :
    reference ∈ first.references ∨ ∃ operand ∈ rest, reference ∈ operand.references := by
  induction rest generalizing first with
  | nil => exact .inl mentions
  | cons second rest ih =>
    rcases ih mentions with inside | ⟨operand, member, inside⟩
    · rcases List.mem_append.mp inside with left | right
      · exact .inl left
      · exact .inr ⟨second, List.mem_cons_self, right⟩
    · exact .inr ⟨operand, List.mem_cons_of_mem second member, inside⟩

theorem pairChain_mentions {form : ChainOperator}
    (formed : operator.pairChain form operands = .ok expression)
    (mentions : reference ∈ expression.references) : Mentioned operands reference :=
  pairOf_mentions (fun left right => by simp [Expression.references, Expression.referencesOf])
    formed mentions

theorem quotient_mentions {type : NativeType}
    (formed : operator.quotient type operands = .ok expression)
    (mentions : reference ∈ expression.references) : Mentioned operands reference := by
  unfold Operator.quotient at formed
  split at formed
  · rename_i first rest
    cases formed
    rcases quotients_mention mentions with inside | ⟨operand, member, inside⟩
    · exact ⟨first, List.mem_cons_self, inside⟩
    · obtain ⟨lowered, listed, rfl⟩ := List.mem_map.mp member
      exact ⟨lowered, List.mem_cons_of_mem first listed, inside⟩
  · exact chainOf_mentions formed mentions

/-- Both parts of a computation that succeeds have succeeded. -/
theorem bind_ok {α β : Type} {first : Except Error α} {next : α → Except Error β} {result : β}
    (done : first >>= next = .ok result) :
    ∃ value, first = .ok value ∧ next value = .ok result := by
  cases first with
  | error error => cases done
  | ok value => exact ⟨value, rfl, done⟩

theorem expression_mentions {type : NativeType}
    (formed : operator.expression type operands = .ok expression)
    (mentions : reference ∈ expression.references) : Mentioned operands reference := by
  cases operator with
  | constant value =>
    cases formed
    cases mentions
  | not | bvNot | bvNeg =>
    refine oneOperand_mentions (fun operand made inside => ?_) formed mentions
    cases made
    exact inside
  | and | or | plus | times | bvAnd | bvOr | bvXor => exact chainOf_mentions formed mentions
  | iff | equals | le | lt | bvShl | bvLShr => exact pairChain_mentions formed mentions
  | implies | bvAShr | bvSDiv | bvComp => exact pairOf_mentions (fun _ _ => rfl) formed mentions
  | pow =>
    refine pairOf_mentions (fun left right => ?_) formed mentions
    split <;> rfl
  | div => exact quotient_mentions formed mentions
  | minus =>
    simp only [Operator.expression] at formed
    split at formed
    · cases formed
      exact ⟨_, List.mem_cons_self, mentions⟩
    · exact chainOf_mentions formed mentions
  | ite =>
    simp only [Operator.expression] at formed
    split at formed
    · rename_i condition first second
      cases formed
      have listed : reference ∈
          Expression.referencesOf ([condition, first, second].map (·.expression)) := by
        simpa [Expression.references, Expression.referencesOf] using mentions
      exact mentioned_of_map listed
    · cases formed
  | bvAdd | bvSub | bvMul | bvUDiv | bvULt | bvULe | bvSLt | bvSLe =>
    refine twoOperands_mentions (fun left right made inside => ?_) formed mentions
    obtain ⟨width, _, rest⟩ := bind_ok made
    cases rest
    exact inside
  | bvExtract low high =>
    refine oneOperand_mentions (fun operand made inside => ?_) formed mentions
    obtain ⟨width, _, made⟩ := bind_ok made
    obtain ⟨result, _, made⟩ := bind_ok made
    split at made
    · cases made
    · cases made
      exact inside
  | bvConcat =>
    refine twoOperands_mentions (fun left right made inside => ?_) formed mentions
    obtain ⟨high, _, made⟩ := bind_ok made
    obtain ⟨low, _, made⟩ := bind_ok made
    obtain ⟨result, _, made⟩ := bind_ok made
    split at made
    · cases made
    · cases made
      exact inside
  | symbol | bvURem | bvSRem | bvRotateLeft | bvRotateRight | bvZeroExtend | bvSignExtend
  | bvToNat | select | store | arrayValue | toReal | forAll | «exists» | apply => cases formed

end References

/-- The names that the function so far brings into scope. -/
def Draft.Declares (draft : Draft) : Reference → Prop
  | .argument identifier => ∃ column ∈ draft.columns.list, column.identifier = identifier
  | .temporary temporary => ∃ statement ∈ draft.statements, statement.target = temporary

theorem Draft.Declares.mono {before after : Draft} {reference : Reference}
    (declares : before.Declares reference)
    (columns : ∀ column ∈ before.columns.list, column ∈ after.columns.list)
    (statements : ∀ statement ∈ before.statements, statement ∈ after.statements) :
    after.Declares reference := by
  cases reference with
  | argument identifier =>
    obtain ⟨column, member, same⟩ := declares
    exact ⟨column, columns column member, same⟩
  | temporary temporary =>
    obtain ⟨statement, member, same⟩ := declares
    exact ⟨statement, statements statement member, same⟩

/-- The declarations of a type are numbered in order, no temporary is declared twice, and each
declaration mentions only what is in scope before it. -/
structure Draft.Scoped (draft : Draft) : Prop where
  named : ∀ column ∈ draft.columns.list, column.identifier = identifierOf column.name
  numbered : ∀ type : NativeType,
    (draft.statements.filter (·.target.type = type)).map (·.target.number) =
      List.range (draft.counters.getD type 0)
  distinct : (draft.statements.map (·.target)).Nodup
  resolved : ∀ before statement after, draft.statements = before ++ statement :: after →
    ∀ reference ∈ statement.value.references,
      Draft.Declares { draft with statements := before } reference

namespace Draft.Scoped

variable {draft : Draft}

theorem empty : Draft.empty.Scoped where
  named _ member := nomatch member
  numbered type := by simp [Draft.empty]
  distinct := .nil
  resolved before _ _ split := by simp [Draft.empty] at split

theorem register (inOrder : draft.Scoped) {name identifier : String} {type : NativeType}
    {columns : Columns}
    (registered : draft.columns.register name type = .ok (identifier, columns)) :
    ({ draft with columns } : Draft).Scoped ∧
      (∀ column ∈ draft.columns.list, column ∈ columns.list) ∧
      ∃ column ∈ columns.list, column.identifier = identifier := by
  rcases register_ok registered with ⟨column, member, _, _, same, rfl⟩ | ⟨isIdentifier, _, rfl⟩
  · exact ⟨inOrder, fun _ listed => listed, column, member, same⟩
  · have wider : ∀ column ∈ draft.columns.list,
        column ∈ draft.columns.list ++ [⟨name, identifier, type⟩] :=
      fun column listed => List.mem_append_left _ listed
    refine ⟨⟨fun column member => ?_, inOrder.numbered, inOrder.distinct, ?_⟩, wider,
      ⟨name, identifier, type⟩, by simp, rfl⟩
    · rcases List.mem_append.mp member with old | new
      · exact inOrder.named column old
      · cases List.mem_singleton.mp new
        exact isIdentifier
    · intro before statement after split reference mentions
      exact (inOrder.resolved before statement after split reference mentions).mono wider
        fun _ listed => listed

theorem inStep (inOrder : draft.Scoped) (type : NativeType) :
    draft.counters.getD type 0 = draft.statements.countP (·.target.type = type) := by
  have lengths := congrArg List.length (inOrder.numbered type)
  rw [List.length_map, List.length_range, ← List.countP_eq_length_filter] at lengths
  exact lengths.symm

theorem target_new (inOrder : draft.Scoped) (type : NativeType) :
    ⟨type, draft.counters.getD type 0⟩ ∉ draft.statements.map (·.target) := by
  intro member
  obtain ⟨statement, listed, same⟩ := List.mem_map.mp member
  have typed : statement.target.type = type := congrArg Temporary.type same
  have numbered : statement.target.number ∈ List.range (draft.counters.getD type 0) := by
    rw [← inOrder.numbered type]
    exact List.mem_map_of_mem (List.mem_filter.mpr ⟨listed, by simpa using typed⟩)
  rw [List.mem_range, same] at numbered
  exact Nat.lt_irrefl _ numbered

theorem declare (inOrder : draft.Scoped) (type : NativeType) {expression : Expression}
    (known : ∀ reference ∈ expression.references, draft.Declares reference) :
    (draft.declare type expression).2.Scoped := by
  refine ⟨inOrder.named, fun other => ?_, ?_, ?_⟩
  · have before := inOrder.numbered other
    by_cases same : type = other
    · subst same
      simp [Draft.declare, List.filter_append, List.range_succ, before]
    · simp [Draft.declare, List.filter_append, Std.HashMap.getD_insert, same, before]
  · simp only [Draft.declare, List.map_append, List.map_cons, List.map_nil]
    refine List.nodup_append.mpr ⟨inOrder.distinct, List.nodup_singleton _, ?_⟩
    rintro target old _ new rfl
    rw [List.mem_singleton.mp new] at old
    exact inOrder.target_new type old
  · intro before statement after split
    rcases List.eq_nil_or_concat after with rfl | ⟨others, last, rfl⟩
    · obtain ⟨rfl, same⟩ := List.append_inj' split rfl
      cases List.singleton_inj.mp same
      exact known
    · rw [List.concat_eq_append, ← List.cons_append, ← List.append_assoc] at split
      exact inOrder.resolved before statement others (List.append_inj' split rfl).1

end Draft.Scoped

/-- Lowering keeps declarations in order and names in scope, and what stands for the node
mentions only names in scope. -/
theorem Lowers.inScope {node : Node} {operands : List Lowered} {draft next : Draft}
    {lowered : Lowered} (lowers : Lowers node operands draft lowered next)
    (inOrder : draft.Scoped)
    (known : ∀ reference, Mentioned operands reference → draft.Declares reference) :
    next.Scoped ∧ (∀ reference, draft.Declares reference → next.Declares reference) ∧
      ∀ reference ∈ lowered.expression.references, next.Declares reference := by
  cases lowers with
  | kept native keeps single =>
    refine ⟨inOrder, fun _ declares => declares, fun reference mentions => ?_⟩
    exact known reference ⟨lowered, by simp [single], mentions⟩
  | symbol native named registered =>
    obtain ⟨wider, kept, column, member, same⟩ := inOrder.register registered
    refine ⟨wider, fun _ declares => declares.mono kept fun _ listed => listed, ?_⟩
    intro reference mentions
    cases List.mem_singleton.mp mentions
    exact ⟨column, member, same⟩
  | declared native formed =>
    refine ⟨inOrder.declare _ fun reference mentions =>
      known reference (expression_mentions formed mentions), ?_, ?_⟩
    · exact fun _ declares => declares.mono (fun _ listed => listed)
        fun _ listed => List.mem_append_left _ listed
    · intro reference mentions
      cases List.mem_singleton.mp mentions
      exact ⟨_, List.mem_append_right _ List.mem_cons_self, rfl⟩
  | inline native formed =>
    exact ⟨inOrder, fun _ declares => declares, fun reference mentions =>
      known reference (expression_mentions formed mentions)⟩

/-- The function so far is well-scoped, and what stands for a node mentions only what is in
scope. -/
structure InScope (passage : Pass.Passage Draft Lowered) : Prop where
  inOrder : passage.2.Scoped
  known : ∀ (id : NodeId) (lowered : Lowered), passage.1[id]? = some lowered →
    ∀ reference ∈ lowered.expression.references, passage.2.Declares reference

theorem InScope.start : InScope (∅, .empty) where
  inOrder := .empty
  known id lowered inMemo := by simp at inMemo

/-- Leaving a node keeps everything in scope. -/
theorem InScope.depart {passage after : Pass.Passage Draft Lowered} (inScope : InScope passage)
    {id : NodeId} {node : Node} (left : lowering.depart id node passage = .ok after) :
    InScope after := by
  obtain ⟨operands, lowered, gathered, done, remembered⟩ := Pass.depart_ok left
  have operandsKnown : ∀ reference, Mentioned operands reference →
      passage.2.Declares reference := by
    rintro reference ⟨operand, member, mentions⟩
    obtain ⟨child, inMemo⟩ := related_of_mem (Pass.arguments_ok.mp gathered).flip member
    exact inScope.known child operand inMemo reference mentions
  obtain ⟨inOrder, retained, resolved⟩ := (lower_cases done).inScope inScope.inOrder operandsKnown
  refine ⟨inOrder, fun other found inMemo reference mentions => ?_⟩
  rw [remembered, Std.HashMap.getElem?_insert] at inMemo
  split at inMemo
  · cases inMemo
    exact resolved reference mentions
  · exact retained reference (inScope.known other found inMemo reference mentions)

/-- A node is declared exactly if it is a connective, a comparison or a choice that is written
down. -/
theorem Lowers.count {node : Node} {operands : List Lowered} {draft next : Draft}
    {lowered : Lowered} (lowers : Lowers node operands draft lowered next)
    (arity : node.children.length = operands.length) :
    next.statements.length = draft.statements.length + node.materializes.toNat := by
  unfold Node.materializes
  cases lowers with
  | kept native keeps single =>
    rw [single] at arity
    cases same : node.operator <;> simp_all [Operator.keepsSingle]
  | symbol native named => simp [named]
  | declared native formed declares several =>
    cases same : node.operator with
    | and | or =>
      rw [same] at formed several
      rcases operands with _ | ⟨only, _ | ⟨second, rest⟩⟩
      · cases formed
      · exact absurd rfl (several rfl only)
      · simp [Draft.declare, arity]
    | _ => simp_all [Operator.isDeclared, Draft.declare]
  | inline native formed undeclared =>
    cases same : node.operator <;> simp_all [Operator.isDeclared]

section Counting

variable {arena : Arena} {agenda next : List Task} {passage after : Pass.Passage Draft Lowered}
  {left trace : List NodeId}

theorem turn_count (turn : lowering.Turn arena agenda passage left next after) :
    after.2.statements.length =
      passage.2.statements.length + left.countP arena.materializes := by
  cases turn with
  | skip | enter => simp
  | leave unknown found departed =>
    obtain ⟨operands, lowered, gathered, done, _⟩ := Pass.depart_ok departed
    have arity := (Pass.arguments_ok.mp gathered).length_eq
    rw [(lower_cases done).count arity]
    simp [Arena.materializes, found, List.countP_cons, Bool.toNat, Bool.cond_eq_ite]

/-- A walk declares each node that it leaves and that is to be declared, and nothing else. -/
theorem walk_count (walk : lowering.Walk arena agenda passage trace (.ok after)) :
    after.2.statements.length =
      passage.2.statements.length + trace.countP arena.materializes := by
  generalize ended : Except.ok after = outcome at walk
  induction walk with
  | finish =>
    cases ended
    simp
  | fail => cases ended
  | turn first _ ih =>
    rw [ih ended, turn_count first, List.countP_append, Nat.add_assoc]

end Counting

def isNameLetter (letter : Char) : Bool := letter.isAlphanum || letter = '_'

def definedFunction? : List Char → Option String
  | ' ' :: rest => definedFunction? rest
  | 'c' :: 'o' :: 'n' :: 's' :: 't' :: ' ' :: rest => definedFunction? rest
  | 'f' :: 'n' :: ' ' :: rest => some (String.ofList (rest.takeWhile isNameLetter))
  | _ => none

/-- The functions that the prelude defines, methods among them. -/
def preludeFunctions : List String :=
  preludeLines.filterMap fun line => definedFunction? line.toList

theorem functions_spelled (letters : List Char) (lines : List String) :
    (String.ofList letters :: lines).filterMap (fun line => definedFunction? line.toList) =
      (definedFunction? letters).toList ++
        lines.filterMap fun line => definedFunction? line.toList := by
  rw [List.filterMap_cons, String.toList_ofList]
  cases definedFunction? letters <;> rfl

theorem preludeFunctions_eq : preludeFunctions =
    ["new", "from_unsigned", "from_signed", "unsigned", "signed", "bitand", "bitor", "bitxor",
      "not", "neg", "shl", "shr", "bv_ashr", "bv_sdiv", "bv_extract", "bv_concat", "int_div",
      "parse_cell", "render", "parse_cell", "render", "parse_cell", "render", "parse_cell",
      "render", "parse_cell", "render", "next_cell"] := by
  unfold preludeFunctions preludeLines
  repeat rw [functions_spelled]
  cbv

/-- Whether the last letter is a digit. -/
def endsInDigit (name : String) : Bool := name.toList.getLast?.any Char.isDigit

theorem Temporary.name_endsInDigit (temporary : Temporary) : endsInDigit temporary.name := by
  have digits : ∀ stem : String, endsInDigit (stem ++ toString temporary.number) := by
    intro stem
    rw [endsInDigit, String.toList_append, Nat.toString_eq_ofList_toDigits, String.toList_ofList,
      List.getLast?_append_of_ne_nil _ Nat.toDigits_ne_nil,
      List.getLast?_eq_getLast_of_ne_nil Nat.toDigits_ne_nil]
    exact Nat.isDigit_of_mem_toDigits (by decide) (by decide) (List.getLast_mem _)
  exact digits _

theorem Temporary.name_notMem_preludeFunctions (temporary : Temporary) :
    temporary.name ∉ preludeFunctions := by
  intro member
  have plain : ∀ name ∈ preludeFunctions, endsInDigit name = false := by
    rw [preludeFunctions_eq]
    decide
  have ends := temporary.name_endsInDigit
  rw [plain _ member] at ends
  cases ends

theorem Temporary.name_ne_formula (temporary : Temporary) : temporary.name ≠ "formula" := by
  intro same
  have ends := temporary.name_endsInDigit
  rw [same] at ends
  cases ends

/-- Temporaries have names of their own, numbered for each type in the order of declaration.
Whatever a declaration mentions is an argument or declared before it, and whatever the result
mentions is an argument or declared. -/
structure Function.WellScoped (function : Function) : Prop where
  distinct : (function.statements.map (·.target.name)).Nodup
  numbered : ∀ type : NativeType,
    (function.statements.filter (·.target.type = type)).map (·.target.name) =
      (List.range (function.statements.countP (·.target.type = type))).map fun number =>
        type.temporaryStem ++ toString number
  declaredBefore : ∀ before statement after, function.statements = before ++ statement :: after →
    ∀ temporary, .temporary temporary ∈ statement.value.references →
      ∃ earlier ∈ before, earlier.target = temporary
  declared : ∀ temporary, .temporary temporary ∈ function.result.expression.references →
    ∃ statement ∈ function.statements, statement.target = temporary
  arguments : ∀ expression ∈ function.result.expression :: function.statements.map (·.value),
    ∀ identifier, .argument identifier ∈ expression.references →
      ∃ column ∈ function.columns.list, column.identifier = identifier
  apart : ∀ statement ∈ function.statements,
    (∀ column ∈ function.columns.list, statement.target.name ≠ column.identifier) ∧
      statement.target.name ∉ preludeFunctions ∧ statement.target.name ≠ "formula"

theorem Draft.Scoped.wellScoped {draft : Draft} (inOrder : draft.Scoped) {result : Lowered}
    (known : ∀ reference ∈ result.expression.references, draft.Declares reference) :
    (⟨draft.columns, draft.statements, result⟩ : Function).WellScoped where
  distinct := by
    have names := inOrder.distinct.map fun _ _ => Temporary.name_injective
    rwa [List.map_map] at names
  numbered type := by
    rw [← inOrder.inStep type, ← inOrder.numbered type, List.map_map]
    refine List.map_congr_left fun statement member => ?_
    have typed : statement.target.type = type := by simpa using (List.mem_filter.mp member).2
    simp [Temporary.name, typed]
  declaredBefore before statement after split temporary mentions :=
    inOrder.resolved before statement after split _ mentions
  declared temporary mentions := known _ mentions
  arguments expression member identifier mentions := by
    rcases List.mem_cons.mp member with rfl | listed
    · exact known _ mentions
    · obtain ⟨statement, inside, rfl⟩ := List.mem_map.mp listed
      obtain ⟨before, after, split⟩ := List.append_of_mem inside
      exact inOrder.resolved before statement after split _ mentions
  apart statement member := by
    refine ⟨fun column listed => ?_, statement.target.name_notMem_preludeFunctions,
      statement.target.name_ne_formula⟩
    rw [inOrder.named column listed]
    exact statement.target.name_ne_identifierOf column.name

/-- A function is what the walk over the formula has drafted, with what stands for the root. -/
theorem lower_ok {formula : Formula} {function : Function}
    (lowered : formula.lower = .ok function) :
    ∃ result draft, lowering.run formula .empty = .ok (result, draft) ∧
      function = ⟨draft.columns, draft.statements, result⟩ := by
  unfold Formula.lower at lowered
  cases walked : lowering.run formula .empty with
  | error error =>
    rw [walked] at lowered
    cases lowered
  | ok pair =>
    rw [walked] at lowered
    cases lowered
    exact ⟨pair.1, pair.2, rfl, rfl⟩

theorem lower_wellScoped {formula : Formula} {function : Function}
    (lowered : formula.lower = .ok function) : function.WellScoped := by
  obtain ⟨result, draft, walked, rfl⟩ := lower_ok lowered
  obtain ⟨memo, inScope, atRoot⟩ := Pass.run_sound InScope.start
    (fun _ _ _ _ _ _ inScope _ left => inScope.depart left) walked
  exact inScope.inOrder.wellScoped fun reference mentions =>
    inScope.known formula.root result atRoot reference mentions

/-- The function has a declaration for each node to be declared that the root depends on. -/
theorem lower_count {formula : Formula} {function : Function}
    (lowered : formula.lower = .ok function) :
    function.statements.length =
      {id | formula.arena.Reaches formula.root id ∧ formula.arena.materializes id}.ncard := by
  obtain ⟨result, draft, walked, rfl⟩ := lower_ok lowered
  obtain ⟨trace, completed⟩ := lowering.run_completes formula .empty
  rw [walked] at completed
  have materialized : {id | formula.arena.Reaches formula.root id ∧
      formula.arena.materializes id} = (trace.filter formula.arena.materializes).toFinset := by
    ext id
    have left : id ∈ trace ↔ formula.arena.Reaches formula.root id :=
      ⟨completed.reaches id, completed.covers⟩
    simp [left]
  rw [materialized, Set.ncard_coe_finset,
    List.toFinset_card_of_nodup (completed.nodup.filter _), ← List.countP_eq_length_filter]
  cases completed with
  | answer walk atRoot => simpa [Draft.empty] using walk_count walk

/-- Each node is lowered once: a function has as many declarations as there are nodes to be
declared among those that the root depends on, and they are well-scoped. -/
theorem lowered_once (formula : Formula) (function : Function)
    (lowered : formula.lower = .ok function) :
    function.statements.length =
      {id | formula.arena.Reaches formula.root id ∧ formula.arena.materializes id}.ncard ∧
    function.WellScoped :=
  ⟨lower_count lowered, lower_wellScoped lowered⟩

/-- A comparison with three parents, and a disjunction of one operand. -/
def sharedComparison : Formula where
  arena := .ofNodes #[⟨.symbol "x", [], .int⟩, ⟨.symbol "y", [], .int⟩, ⟨.lt, [0, 1], .bool⟩,
    ⟨.not, [2], .bool⟩, ⟨.and, [2, 3], .bool⟩, ⟨.or, [4], .bool⟩, ⟨.iff, [5, 2], .bool⟩]
  root := 6
  ordered := by decide
  rooted := by decide

/-- The comparison is declared once, and the disjunction not at all. -/
def sharedComparisonFunction : Function :=
  ⟨⟨[⟨"x", "v_x", .int⟩, ⟨"y", "v_y", .int⟩]⟩,
    [⟨⟨.bool, 0⟩, .chain .below [.argument "v_x", .argument "v_y"]⟩,
      ⟨⟨.bool, 1⟩, .unary .not (.temporary ⟨.bool, 0⟩)⟩,
      ⟨⟨.bool, 2⟩, .chain .and [.temporary ⟨.bool, 0⟩, .temporary ⟨.bool, 1⟩]⟩,
      ⟨⟨.bool, 3⟩, .chain .equal [.temporary ⟨.bool, 2⟩, .temporary ⟨.bool, 0⟩]⟩],
    ⟨.temporary ⟨.bool, 3⟩, .bool, true⟩⟩

theorem lowered_once_sharedComparison :
    sharedComparison.lower = .ok sharedComparisonFunction ∧
      {id | sharedComparison.arena.Reaches 6 id ∧
        sharedComparison.arena.materializes id}.ncard = 4 ∧
      sharedComparisonFunction.WellScoped := by
  have lowered : sharedComparison.lower = .ok sharedComparisonFunction := by cbv
  obtain ⟨counted, wellScoped⟩ := lowered_once sharedComparison sharedComparisonFunction lowered
  exact ⟨lowered, counted.symm, wellScoped⟩

end Code

end Formulary
