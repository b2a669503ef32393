import Formulary.Proofs.Code.Origin

/-! The expressions of well-sorted nodes. A signature fixes how an operator is written and the
types of its operands; from this follows which expressions a function is made of, and for which
node each of them was written. -/
namespace Formulary.Code

open Expression (Part)

/-- Operators on numbers of one type. -/
def ChainOperator.isArithmetic : ChainOperator → Bool
  | plus | minus | times => true
  | _ => false

theorem ChainOperator.isArithmetic_of_isComparison {form : ChainOperator}
    (compares : form.isComparison) : form.isArithmetic = false := by
  cases form with
  | equal | atMost | below => rfl
  | _ => cases compares

def Expression.isPlain : Expression → Bool
  | .argument _ | .temporary _ | .literal _ | .conditional _ _ _ | .integerQuotient _ _
  | .integerPower _ _ => false
  | .chain operator _ => !operator.isArithmetic && !operator.isComparison
  | _ => true

/-- What is written for an operator of a signature, as far as integers are concerned. -/
inductive Formation (operator : Operator) (type : NativeType) (operands : List Lowered) :
    Expression → Prop where
  | literal {value : Literal} (named : operator = .constant value)
      (typed : value.sort.native = .ok type) (nothing : operands = []) :
      Formation operator type operands (.literal value)
  | arithmetic {form : ChainOperator} (named : operator ∈ [.plus, .minus, .times])
      (numeric : form.isArithmetic) (several : operands ≠ [])
      (typed : ∀ operand ∈ operands, operand.type = type) :
      Formation operator type operands (.chain form (operands.map (·.expression)))
  | negation {only : Lowered} (named : operator = .minus) (single : operands = [only])
      (typed : only.type = type) :
      Formation operator type operands (.unary .negate only.expression)
  | quotient {first : Lowered} {rest : List Lowered} {left right : Expression}
      (named : operator = .div) (integer : type = .int) (several : operands = first :: rest)
      (more : rest ≠ []) (typed : ∀ operand ∈ operands, operand.type = .int)
      (folded : (rest.map (·.expression)).foldl .integerQuotient first.expression =
        .integerQuotient left right) :
      Formation operator type operands (.integerQuotient left right)
  | power {base exponent : Lowered} (named : operator = .pow) (integer : type = .int)
      (pair : operands = [base, exponent]) (typed : ∀ operand ∈ operands, operand.type = .int) :
      Formation operator type operands (.integerPower base.expression exponent.expression)
  | comparison {form : ChainOperator} {left right : Lowered}
      (named : operator ∈ [.iff, .equals, .le, .lt]) (compares : form.isComparison)
      (truth : type = .bool) (pair : operands = [left, right]) (same : left.type = right.type)
      (connective : operator = .iff → left.type = .bool) :
      Formation operator type operands (.chain form [left.expression, right.expression])
  | choice {condition first second : Lowered} (named : operator = .ite)
      (triple : operands = [condition, first, second]) (truth : condition.type = .bool)
      (firstTyped : first.type = type) (secondTyped : second.type = type) :
      Formation operator type operands
        (.conditional condition.expression first.expression second.expression)
  | plain {expression : Expression} (plain : expression.isPlain) (other : type ≠ .int)
      (written : expression.immediate = operands.map (·.expression))
      (apart : ∀ operand ∈ operands, operand.type ≠ .int) :
      Formation operator type operands expression

namespace Expression

variable {piece first : Expression} {rest : List Expression}

theorem quotients_eq (several : rest ≠ []) :
    ∃ left right, rest.foldl integerQuotient first = integerQuotient left right := by
  induction rest generalizing first with
  | nil => exact absurd rfl several
  | cons second more ih =>
    cases more with
    | nil => exact ⟨first, second, rfl⟩
    | cons => exact ih (List.cons_ne_nil _ _)

theorem quotients_part (member : piece ∈ first :: rest) :
    Part piece (rest.foldl integerQuotient first) := by
  induction rest generalizing first piece with
  | nil =>
    cases List.mem_singleton.mp member
    exact .whole
  | cons second more ih =>
    have inside : Part (integerQuotient first second)
        (more.foldl integerQuotient (integerQuotient first second)) := ih List.mem_cons_self
    rcases List.mem_cons.mp member with rfl | later
    · exact .trans (.within List.mem_cons_self .whole) inside
    · rcases List.mem_cons.mp later with rfl | last
      · exact .trans (.within (List.mem_cons_of_mem _ List.mem_cons_self) .whole) inside
      · exact ih (List.mem_cons_of_mem _ last)

theorem quotients_origin (inside : Part piece (rest.foldl integerQuotient first)) :
    (∃ left right, piece = integerQuotient left right) ∨
      ∃ operand ∈ first :: rest, Part piece operand := by
  induction rest generalizing first with
  | nil => exact .inr ⟨first, List.mem_cons_self, inside⟩
  | cons second more ih =>
    rcases ih inside with written | ⟨operand, member, within⟩
    · exact .inl written
    · rcases List.mem_cons.mp member with rfl | later
      · cases within with
        | whole => exact .inl ⟨first, second, rfl⟩
        | within member inner =>
          exact .inr ⟨_, List.mem_append_left more member, inner⟩
      · exact .inr ⟨operand, by simp [later], within⟩

end Expression

section Forming

variable {operator : Operator} {sorts : List TermSort} {sort : TermSort}
  {operands : List Lowered} {type : NativeType} {expression : Expression}

theorem native_type {operand : Lowered} (native : sort.native = .ok operand.type)
    (same : sort.native = .ok type) : operand.type = type := by
  rw [native] at same
  exact Except.ok.inj same

theorem typed_replicate {count : Nat} (typed : Typed operands (List.replicate count sort))
    (native : sort.native = .ok type) : ∀ operand ∈ operands, operand.type = type := by
  intro operand member
  obtain ⟨other, listed, same⟩ := (related_members typed).1 operand member
  rw [List.eq_of_mem_replicate listed] at same
  exact native_type same native

theorem not_int_of_native {operand : Lowered} (native : sort.native = .ok operand.type)
    (other : sort ≠ .int) : operand.type ≠ .int := by
  intro integer
  rw [integer] at native
  exact other (TermSort.native_ok native)

theorem typed_apart (typed : Typed operands sorts) (other : ∀ sort ∈ sorts, sort ≠ .int) :
    ∀ operand ∈ operands, operand.type ≠ .int := by
  intro operand member
  obtain ⟨sort, listed, native⟩ := (related_members typed).1 operand member
  exact not_int_of_native native (other sort listed)

theorem type_ne_int (native : sort.native = .ok type) (other : sort ≠ .int) : type ≠ .int := by
  rintro rfl
  exact other (TermSort.native_ok native)

theorem comparison_formation {form : ChainOperator}
    (named : operator ∈ [.iff, .equals, .le, .lt]) (compares : form.isComparison)
    (connective : operator = .iff → sort = .bool) (typed : Typed operands [sort, sort])
    (native : TermSort.bool.native = .ok type)
    (formed : operator.pairChain form operands = .ok expression) :
    Formation operator type operands expression := by
  obtain _ | ⟨left, _ | ⟨right, _ | _⟩⟩ := typed
  cases formed
  cases native
  refine .comparison named compares rfl rfl (native_type left right) fun isIff => ?_
  rw [connective isIff] at left
  exact (Except.ok.inj left).symm

theorem arithmetic_formation {form : ChainOperator} (named : operator ∈ [.plus, .minus, .times])
    (numeric : form.isArithmetic) (typed : ∀ operand ∈ operands, operand.type = type)
    (formed : operator.chainOf form operands = .ok expression) :
    Formation operator type operands expression := by
  unfold Operator.chainOf at formed
  split at formed
  · cases formed
  · rename_i several
    cases formed
    exact .arithmetic named numeric several typed

theorem plain_pair {form : Lowered → Lowered → Except Error Expression}
    (apart : ∀ operand ∈ operands, operand.type ≠ .int) (other : type ≠ .int)
    (made : ∀ left right, form left right = .ok expression →
      expression.isPlain ∧ expression.immediate = [left.expression, right.expression])
    (formed : operator.twoOperands operands form = .ok expression) :
    Formation operator type operands expression := by
  unfold Operator.twoOperands at formed
  split at formed
  · obtain ⟨plain, written⟩ := made _ _ formed
    exact .plain plain other written apart
  · cases formed

theorem plain_single {form : Lowered → Except Error Expression}
    (apart : ∀ operand ∈ operands, operand.type ≠ .int) (other : type ≠ .int)
    (made : ∀ operand, form operand = .ok expression →
      expression.isPlain ∧ expression.immediate = [operand.expression])
    (formed : operator.oneOperand operands form = .ok expression) :
    Formation operator type operands expression := by
  unfold Operator.oneOperand at formed
  split at formed
  · obtain ⟨plain, written⟩ := made _ formed
    exact .plain plain other written apart
  · cases formed

theorem quotient_formation (several : ∀ only, operands ≠ [only])
    (typed : ∀ operand ∈ operands, operand.type = type)
    (formed : Operator.div.quotient type operands = .ok expression) :
    Formation .div type operands expression := by
  unfold Operator.quotient at formed
  split at formed
  · rename_i first rest
    cases formed
    have more : rest ≠ [] := by
      rintro rfl
      exact several first rfl
    obtain ⟨left, right, folded⟩ :=
      @Expression.quotients_eq first.expression (rest.map (·.expression)) (by simpa using more)
    rw [folded]
    exact .quotient rfl rfl rfl more typed folded
  · rename_i otherwise
    unfold Operator.chainOf at formed
    split at formed
    · cases formed
    · rename_i several
      cases formed
      have other : type ≠ .int := by
        intro integer
        cases operands with
        | nil => exact several rfl
        | cons first rest => exact otherwise first rest integer rfl
      exact .plain rfl other rfl fun operand member => typed operand member ▸ other

theorem power_formation (typed : ∀ operand ∈ operands, operand.type = type)
    (formed : Operator.pow.expression type operands = .ok expression) :
    Formation .pow type operands expression := by
  simp only [Operator.expression] at formed
  by_cases integer : type = .int
  · rw [if_pos integer] at formed
    unfold Operator.pairOf Operator.twoOperands at formed
    split at formed
    · cases formed
      exact .power rfl integer rfl (integer ▸ typed)
    · cases formed
  · rw [if_neg integer] at formed
    refine plain_pair (fun operand member => typed operand member ▸ integer) integer ?_ formed
    intro left right made
    cases made
    exact ⟨rfl, rfl⟩

theorem formation (signature : operator.Signature sorts sort) (typed : Typed operands sorts)
    (native : sort.native = .ok type)
    (several : operator = .div → ∀ only, operands ≠ [only])
    (formed : operator.expression type operands = .ok expression) :
    Formation operator type operands expression := by
  cases signature with
  | symbol => cases formed
  | constant value =>
    cases typed
    cases formed
    exact .literal rfl native rfl
  | not =>
    have apart := typed_apart typed (by simp)
    obtain _ | ⟨_, _ | _⟩ := typed
    cases formed
    exact .plain rfl (type_ne_int native (by simp)) rfl apart
  | junction member more | bitwise member width more =>
    have apart := typed_apart typed fun sort listed => by
      simp [List.eq_of_mem_replicate listed]
    have other := type_ne_int native (by simp)
    obtain _ | ⟨_, _⟩ := typed
    fin_cases member <;> cases formed <;> exact .plain rfl other rfl apart
  | connective member =>
    fin_cases member
    · have apart := typed_apart typed (by simp)
      obtain _ | ⟨_, _ | ⟨_, _ | _⟩⟩ := typed
      cases formed
      exact .plain rfl (type_ne_int native (by simp)) rfl apart
    · exact comparison_formation (by simp) rfl (fun _ => rfl) typed native formed
  | equals => exact comparison_formation (by simp) rfl (by simp) typed native formed
  | comparison member numeric =>
    fin_cases member
    · exact comparison_formation (by simp) rfl (by simp) typed native formed
    · exact comparison_formation (by simp) rfl (by simp) typed native formed
  | ite =>
    obtain _ | ⟨truth, _ | ⟨first, _ | ⟨second, _ | _⟩⟩⟩ := typed
    cases formed
    exact .choice rfl rfl (Except.ok.inj truth).symm (native_type first native)
      (native_type second native)
  | arithmetic member numeric more =>
    have same := typed_replicate typed native
    fin_cases member
    · exact arithmetic_formation (by simp) rfl same formed
    · simp only [Operator.expression] at formed
      split at formed
      · cases formed
        exact .negation rfl rfl (same _ (by simp))
      · exact arithmetic_formation (by simp) rfl same formed
    · exact arithmetic_formation (by simp) rfl same formed
    · exact quotient_formation (several rfl) same formed
  | @pow sort numeric =>
    have pair : Typed operands (List.replicate 2 sort) := typed
    exact power_formation (typed_replicate pair native) formed
  | inversion member width =>
    have apart := typed_apart typed (by simp)
    have other := type_ne_int native (by simp)
    fin_cases member <;> refine plain_single apart other (fun operand made => ?_) formed <;>
      cases made <;> exact ⟨rfl, rfl⟩
  | word member width | order member width =>
    have apart := typed_apart typed (by simp)
    have other := type_ne_int native (by simp)
    fin_cases member <;> refine plain_pair apart other (fun left right made => ?_) formed
    all_goals
      first
      | cases made
        exact ⟨rfl, rfl⟩
      | obtain ⟨width, _, made⟩ := bind_ok made
        cases made
        exact ⟨rfl, rfl⟩
  | bvComp width =>
    refine plain_pair (typed_apart typed (by simp)) (type_ne_int native (by simp)) ?_ formed
    intro left right made
    cases made
    exact ⟨rfl, rfl⟩
  | bvExtract forward inside =>
    refine plain_single (typed_apart typed (by simp)) (type_ne_int native (by simp)) ?_ formed
    intro operand made
    obtain ⟨width, _, made⟩ := bind_ok made
    obtain ⟨result, _, made⟩ := bind_ok made
    split at made
    · cases made
    · cases made
      exact ⟨rfl, rfl⟩
  | bvConcat high low =>
    refine plain_pair (typed_apart typed (by simp)) (type_ne_int native (by simp)) ?_ formed
    intro left right made
    obtain ⟨first, _, made⟩ := bind_ok made
    obtain ⟨second, _, made⟩ := bind_ok made
    obtain ⟨result, _, made⟩ := bind_ok made
    split at made
    · cases made
    · cases made
      exact ⟨rfl, rfl⟩

end Forming

namespace Formation

variable {operator : Operator} {type : NativeType} {operands : List Lowered}
  {expression : Expression}

/-- The operands are put together as they are, but for quotients of more than two. -/
theorem written (formation : Formation operator type operands expression) :
    expression.immediate = operands.map (·.expression) ∨
      ∃ first rest, operands = first :: rest ∧
        expression = (rest.map (·.expression)).foldl .integerQuotient first.expression := by
  cases formation with
  | literal _ _ nothing =>
    rw [nothing]
    exact .inl rfl
  | arithmetic => exact .inl rfl
  | negation _ single =>
    rw [single]
    exact .inl rfl
  | quotient _ _ several _ _ folded => exact .inr ⟨_, _, several, folded.symm⟩
  | power _ _ pair | comparison _ _ _ pair | choice _ pair =>
    rw [pair]
    exact .inl rfl
  | plain _ _ written => exact .inl written

theorem part (formation : Formation operator type operands expression) {operand : Lowered}
    (member : operand ∈ operands) : Part operand.expression expression := by
  rcases formation.written with written | ⟨first, rest, rfl, folded⟩
  · exact .within (written ▸ List.mem_map_of_mem member) .whole
  · rw [folded]
    exact Expression.quotients_part (List.mem_map_of_mem member)

theorem origin (formation : Formation operator type operands expression) {piece : Expression}
    (inside : Part piece expression) :
    piece = expression ∨ (∃ left right, piece = .integerQuotient left right) ∨
      ∃ operand ∈ operands, Part piece operand.expression := by
  rcases formation.written with written | ⟨first, rest, rfl, folded⟩
  · cases inside with
    | whole => exact .inl rfl
    | within member inner =>
      rw [written] at member
      obtain ⟨operand, listed, rfl⟩ := List.mem_map.mp member
      exact .inr (.inr ⟨operand, listed, inner⟩)
  · rw [folded] at inside
    rcases Expression.quotients_origin inside with quotient | ⟨expression, member, inner⟩
    · exact .inr (.inl quotient)
    · rw [← List.map_cons] at member
      obtain ⟨operand, listed, rfl⟩ := List.mem_map.mp member
      exact .inr (.inr ⟨operand, listed, inner⟩)

end Formation

/-- A result of the walk, with the node that it stands for and what it was written from. -/
structure Opened (formula : Formula) (function : Function) (memo : Std.HashMap NodeId Lowered)
    (id : NodeId) (lowered : Lowered) (node : Node) (operands : List Lowered) : Prop where
  path : formula.arena.Reaches formula.root id
  found : formula.arena.node? id = some node
  gathered : List.Forall₂ (fun child operand => memo[child]? = some operand) node.children operands
  native : node.sort.native = .ok lowered.type
  written : Written function.columns function.statements node operands lowered
  typed : ∃ sorts, node.operator.Signature sorts node.sort ∧ Typed operands sorts

section Results

variable {formula : Formula} {function : Function} {memo : Std.HashMap NodeId Lowered}
  {id : NodeId} {lowered : Lowered} {node : Node} {operands : List Lowered}

namespace Opened

variable (opened : Opened formula function memo id lowered node operands)

include opened

theorem child {operand : Lowered} (member : operand ∈ operands) :
    ∃ child ∈ node.children, child < id ∧ formula.arena.Reaches formula.root child ∧
      memo[child]? = some operand := by
  obtain ⟨child, listed, known⟩ := (related_members opened.gathered).2 operand member
  exact ⟨child, listed, formula.ordered id node opened.found child listed,
    opened.path.child opened.found listed, known⟩

theorem operand {child : NodeId} (member : child ∈ node.children) :
    ∃ operand ∈ operands, memo[child]? = some operand :=
  (related_members opened.gathered).1 child member

theorem pair {left right : Lowered} (pair : operands = [left, right]) :
    ∃ first second, node.children = [first, second] ∧ memo[first]? = some left ∧
      memo[second]? = some right := by
  have gathered := opened.gathered
  rw [pair] at gathered
  obtain ⟨first, second, children⟩ := List.length_eq_two.mp gathered.length_eq
  rw [children] at gathered
  obtain _ | ⟨one, _ | ⟨two, _⟩⟩ := gathered
  exact ⟨first, second, children, one, two⟩

/-- What is written for the node, unless its only operand is kept. -/
theorem forms {type : NativeType} {expression : Expression}
    (native : node.sort.native = .ok type)
    (several : node.operator.isDeclared ∨
      (node.operator.keepsSingle → ∀ only, operands ≠ [only]))
    (formed : node.operator.expression type operands = .ok expression) :
    Formation node.operator type operands expression := by
  obtain ⟨sorts, signature, typed⟩ := opened.typed
  refine formation signature typed native (fun isDiv => ?_) formed
  rw [isDiv] at several
  rcases several with declares | several
  · cases declares
  · exact several rfl

end Opened

/-- An expression that was written for a node. -/
def Originates (formula : Formula) (function : Function) (memo : Std.HashMap NodeId Lowered)
    (piece : Expression) : Prop :=
  ∃ id lowered node operands type, Opened formula function memo id lowered node operands ∧
    node.sort.native = .ok type ∧ Formation node.operator type operands piece

/-- Neither a name nor a quotient of integers. -/
def Expression.isComposed : Expression → Bool
  | .argument _ | .temporary _ | .integerQuotient _ _ => false
  | _ => true

theorem Function.Emits.part {whole piece : Expression} (emits : function.Emits whole)
    (inside : Part piece whole) : function.Emits piece := by
  rcases emits with ⟨statement, member, within⟩ | within
  · exact .inl ⟨statement, member, inside.trans within⟩
  · exact .inr (inside.trans within)

section Walks

variable (accounted : Accounted formula function memo) (sorted : formula.WellSorted)

include accounted sorted

theorem Accounted.opens (path : formula.arena.Reaches formula.root id)
    (known : memo[id]? = some lowered) :
    ∃ node operands, Opened formula function memo id lowered node operands := by
  obtain ⟨node, operands, found, gathered, written⟩ := accounted.traced.result id lowered known
  obtain ⟨sorts, childSorts, signature⟩ := (sorted id node path found).signature
  have typed := accounted.recorded.operands gathered childSorts
  have native := accounted.recorded.typed id lowered node known found
  exact ⟨node, operands, path, found, gathered, native, written, sorts, signature, typed⟩

/-- Every declaration was written for a node. -/
theorem Accounted.statement {statement : Statement} (member : statement ∈ function.statements) :
    ∃ id lowered node operands, Opened formula function memo id lowered node operands ∧
      node.sort.native = .ok statement.target.type ∧
      Formation node.operator statement.target.type operands statement.value := by
  obtain ⟨id, node, operands, path, found, gathered, native, declares, formed⟩ :=
    accounted.traced.statement statement member
  obtain ⟨lowered, known⟩ := accounted.covers id path
  obtain ⟨stored, results, opened⟩ := accounted.opens sorted path known
  cases found.symm.trans opened.found
  have same : results = operands := by
    refine List.right_unique_forall₂' (fun child first second one two => ?_) opened.gathered
      gathered
    exact Option.some.inj (one.symm.trans two)
  subst same
  exact ⟨id, lowered, node, results, opened, native,
    opened.forms native (.inl declares) formed⟩

/-- What stands for a node that the root depends on is a part of the function. -/
theorem Accounted.emits (path : formula.arena.Reaches formula.root id)
    (known : memo[id]? = some lowered) : function.Emits lowered.expression := by
  induction path generalizing lowered with
  | root =>
    rw [accounted.atRoot] at known
    cases known
    exact .inr .whole
  | @child parent child node path found member ih =>
    obtain ⟨above, there⟩ := accounted.covers parent path
    obtain ⟨node, operands, opened⟩ := accounted.opens sorted path there
    cases found.symm.trans opened.found
    obtain ⟨operand, listed, here⟩ := opened.operand member
    cases known.symm.trans here
    cases opened.written with
    | kept _ single =>
      rw [single] at listed
      cases List.mem_singleton.mp listed
      exact ih there
    | symbol named =>
      obtain ⟨sorts, signature, typed⟩ := opened.typed
      rw [named] at signature
      rw [signature.symbol_takes] at typed
      cases typed
      cases listed
    | declared formed declares inside =>
      have formation := opened.forms opened.native (.inl declares) formed
      exact .inl ⟨_, inside, formation.part listed⟩
    | inline formed _ several =>
      have formation := opened.forms opened.native (.inr several) formed
      exact (ih there).part (formation.part listed)

/-- Every other part of the function than names and quotients was written for a node. -/
theorem Accounted.origin (path : formula.arena.Reaches formula.root id)
    (known : memo[id]? = some lowered) {piece : Expression} (composed : piece.isComposed)
    (inside : Part piece lowered.expression) : Originates formula function memo piece := by
  induction id using NodeId.strongRecOn generalizing lowered with
  | ind id ih =>
    obtain ⟨node, operands, opened⟩ := accounted.opens sorted path known
    have below : ∀ operand ∈ operands, Part piece operand.expression →
        Originates formula function memo piece := by
      intro operand member inner
      obtain ⟨child, _, smaller, reached, there⟩ := opened.child member
      exact ih child smaller reached there inner
    cases opened.written with
    | kept _ single => exact below lowered (by simp [single]) inside
    | symbol | declared =>
      cases inside with
      | whole => cases composed
      | within member => cases member
    | inline formed _ several =>
      have formation := opened.forms opened.native (.inr several) formed
      rcases formation.origin inside with rfl | ⟨left, right, rfl⟩ | ⟨operand, member, inner⟩
      · exact ⟨_, _, _, _, _, opened, opened.native, formation⟩
      · cases composed
      · exact below operand member inner

theorem Accounted.emitted {piece : Expression} (composed : piece.isComposed)
    (emits : function.Emits piece) : Originates formula function memo piece := by
  rcases emits with ⟨statement, member, inside⟩ | inside
  · obtain ⟨id, lowered, node, operands, opened, native, formation⟩ :=
      accounted.statement sorted member
    rcases formation.origin inside with rfl | ⟨left, right, rfl⟩ | ⟨operand, member, inner⟩
    · exact ⟨_, _, _, _, _, opened, native, formation⟩
    · cases composed
    · obtain ⟨child, _, _, reached, there⟩ := opened.child member
      exact accounted.origin sorted reached there composed inner
  · exact accounted.origin sorted .root accounted.atRoot composed inside

end Walks

end Results

end Formulary.Code
