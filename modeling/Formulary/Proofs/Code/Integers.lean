import Formulary.Proofs.Code.Formation

/-! The types of integers in an evaluator program. An integer literal is written without a type
and takes the one of the operands around it, so it has 64 bits only if an integer of a known type
stands near: an argument, a temporary, a quotient, or the least integer, which is written by name.
What is made of other constants alone leaves its type open. -/
namespace Formulary

/-- Integers that a program writes with literals alone: constants, but for the least one, and what
arithmetic makes of them. A quotient has its own type, unless there is nothing to divide by. -/
inductive Arena.Bare (arena : Arena) : NodeId → Prop where
  | constant {id : NodeId} {node : Node} {value : Int64} (found : arena.node? id = some node)
      (integer : node.sort = .int) (written : node.operator = .constant (.int value))
      (digits : value ≠ Int64.minValue) : Bare arena id
  | applied {id : NodeId} {node : Node} (found : arena.node? id = some node)
      (integer : node.sort = .int) (several : node.children ≠ [])
      (arithmetic : node.operator ∈ [.plus, .minus, .times, .pow] ∨
        node.operator = .div ∧ node.children.length = 1)
      (each : ∀ child ∈ node.children, Bare arena child) : Bare arena id

/-- No comparison is of bare integers only, and no bare integer is raised to a power. -/
structure Formula.Grounded (formula : Formula) : Prop where
  comparison : ∀ id node, formula.arena.Reaches formula.root id →
    formula.arena.node? id = some node → node.operator ∈ [.equals, .le, .lt] →
    ∃ child ∈ node.children, ¬ formula.arena.Bare child
  power : ∀ id node base exponent, formula.arena.Reaches formula.root id →
    formula.arena.node? id = some node → node.operator = .pow →
    node.children = [base, exponent] → ¬ formula.arena.Bare base

/-- No exponent is a bare integer. -/
def Formula.ExponentsGrounded (formula : Formula) : Prop :=
  ∀ id node base exponent, formula.arena.Reaches formula.root id →
    formula.arena.node? id = some node → node.operator = .pow →
    node.children = [base, exponent] → ¬ formula.arena.Bare exponent

namespace Code

namespace Expression

/-- The operands that have the type of the whole. -/
def kin : Expression → List Expression
  | unary _ operand => [operand]
  | chain operator operands => if operator.isArithmetic then operands else []
  | conditional _ first second => [first, second]
  | integerPower base _ => [base]
  | _ => []

/-- Expressions that are 64-bit integers wherever they stand. -/
def Fixed (columns : Columns) : Expression → Prop
  | argument identifier =>
    ∃ column ∈ columns.list, column.identifier = identifier ∧ column.type = .int
  | temporary declared => declared.type = .int
  | literal value => value = .int Int64.minValue
  | integerQuotient _ _ => True
  | _ => False

/-- A part of the expression is a 64-bit integer wherever it stands. -/
def Anchored (columns : Columns) (expression : Expression) : Prop :=
  ∃ part, Part part expression ∧ part.Fixed columns

inductive Integral (columns : Columns) : Expression → Prop where
  | fixed {expression : Expression} (fixed : expression.Fixed columns) :
      Integral columns expression
  | literal (value : Int64) : Integral columns (.literal (.int value))
  | power (base exponent : Expression) : Integral columns (.integerPower base exponent)
  | kin {operand expression : Expression} (member : operand ∈ expression.kin)
      (integral : Integral columns operand) : Integral columns expression

/-- The expression takes the type of 64-bit integers from its own operands. -/
inductive Settled (columns : Columns) : Expression → Prop where
  | fixed {expression : Expression} (fixed : expression.Fixed columns) :
      Settled columns expression
  | kin {operand expression : Expression} (member : operand ∈ expression.kin)
      (settled : Settled columns operand) : Settled columns expression

/-- Whether an expression, given the type of 64-bit integers or not, gives it to its operands.
Neither the base of a power gets a type from outside, nor the exponent, which is converted. -/
def Gives (columns : Columns) (given : Prop) : Expression → Prop
  | expression@(unary _ _) | expression@(conditional _ _ _) =>
    given ∨ expression.Settled columns
  | expression@(chain operator operands) =>
    if operator.isArithmetic then given ∨ expression.Settled columns
    else operator.isComparison ∧ ∃ operand ∈ operands, operand.Settled columns
  | integerQuotient _ _ => True
  | _ => False

/-- Every integer literal in the expression has 64 bits. -/
inductive Sized (columns : Columns) : Prop → Expression → Prop where
  | intro {given : Prop} {expression : Expression}
      (literal : ∀ value, expression = .literal (.int value) →
        given ∨ value = Int64.minValue)
      (operands : ∀ operand ∈ expression.immediate,
        Sized columns (expression.Gives columns given) operand) : Sized columns given expression

end Expression

open Expression (Part)

/-- In every comparison of integers some operand has a part that is a 64-bit integer wherever it
stands, and so has everything that is raised to an integer power. -/
structure Function.Anchored (function : Function) : Prop where
  comparison : ∀ form operands, function.Emits (.chain form operands) → form.isComparison →
    (∀ operand ∈ operands, operand.Integral function.columns) →
    ∃ operand ∈ operands, operand.Anchored function.columns
  power : ∀ base exponent, function.Emits (.integerPower base exponent) →
    base.Anchored function.columns

/-- Every integer literal of the function has 64 bits. Declared values and the result are given
their types. -/
def Function.Sized (function : Function) : Prop :=
  (∀ statement ∈ function.statements,
    statement.value.Sized function.columns (statement.target.type = .int)) ∧
    function.result.expression.Sized function.columns (function.result.type = .int)

namespace Expression

variable {columns : Columns} {expression piece first : Expression} {rest : List Expression}

theorem kin_immediate {operand : Expression} (member : operand ∈ expression.kin) :
    operand ∈ expression.immediate := by
  unfold kin at member
  split at member
  · exact member
  · split at member
    · exact member
    · cases member
  · exact List.mem_cons_of_mem _ member
  · exact List.mem_cons.mpr (.inl (List.mem_singleton.mp member))
  · cases member

theorem anchored_iff :
    expression.Anchored columns ↔
      expression.Fixed columns ∨ ∃ operand ∈ expression.immediate, operand.Anchored columns := by
  constructor
  · rintro ⟨part, _ | ⟨member, inside⟩, fixed⟩
    · exact .inl fixed
    · exact .inr ⟨_, member, part, inside, fixed⟩
  · rintro (fixed | ⟨operand, member, part, inside, fixed⟩)
    · exact ⟨expression, .whole, fixed⟩
    · exact ⟨part, .within member inside, fixed⟩

theorem Settled.anchored (settled : expression.Settled columns) : expression.Anchored columns := by
  induction settled with
  | fixed fixed => exact anchored_iff.mpr (.inl fixed)
  | kin member _ ih => exact anchored_iff.mpr (.inr ⟨_, kin_immediate member, ih⟩)

theorem integral_iff :
    expression.Integral columns ↔ expression.Fixed columns ∨
      (∃ value, expression = .literal (.int value)) ∨
      (∃ base exponent, expression = .integerPower base exponent) ∨
      ∃ operand ∈ expression.kin, operand.Integral columns := by
  constructor
  · rintro (fixed | value | ⟨base, exponent⟩ | ⟨member, integral⟩)
    · exact .inl fixed
    · exact .inr (.inl ⟨value, rfl⟩)
    · exact .inr (.inr (.inl ⟨base, exponent, rfl⟩))
    · exact .inr (.inr (.inr ⟨_, member, integral⟩))
  · rintro (fixed | ⟨value, rfl⟩ | ⟨base, exponent, rfl⟩ | ⟨operand, member, integral⟩)
    · exact .fixed fixed
    · exact .literal value
    · exact .power base exponent
    · exact .kin member integral

/-- Where integers are neither named nor written, they are in the operands of the same type. -/
theorem integral_iff_kin (unfixed : ¬ expression.Fixed columns)
    (unwritten : ∀ value, expression ≠ .literal value)
    (other : ∀ base exponent, expression ≠ .integerPower base exponent) :
    expression.Integral columns ↔ ∃ operand ∈ expression.kin, operand.Integral columns := by
  rw [integral_iff]
  constructor
  · rintro (fixed | ⟨value, written⟩ | ⟨base, exponent, raised⟩ | among)
    · exact absurd fixed unfixed
    · exact absurd written (unwritten _)
    · exact absurd raised (other base exponent)
    · exact among
  · exact fun among => .inr (.inr (.inr among))

theorem Sized.part {given : Prop} (sized : expression.Sized columns given)
    (inside : Part piece expression) : ∃ given, piece.Sized columns given := by
  induction inside generalizing given with
  | whole => exact ⟨given, sized⟩
  | within member _ ih =>
    cases sized with
    | intro _ operands => exact ih (operands _ member)

theorem Sized.leaf {given : Prop} (other : ∀ value, expression ≠ .literal value)
    (nothing : expression.immediate = []) : expression.Sized columns given := by
  refine .intro (fun value written => absurd written (other _)) fun operand member => ?_
  rw [nothing] at member
  cases member

theorem quotients_sized (each : ∀ operand ∈ first :: rest, operand.Sized columns True)
    (several : rest ≠ []) (given : Prop) :
    (rest.foldl integerQuotient first).Sized columns given := by
  induction rest generalizing first with
  | nil => exact absurd rfl several
  | cons second more ih =>
    have pair : ∀ given, (integerQuotient first second).Sized columns given := fun given =>
      .intro nofun fun operand member => each operand (List.mem_append_left more member)
    cases more with
    | nil => exact pair given
    | cons third others =>
      refine ih (fun operand member => ?_) (List.cons_ne_nil _ _)
      rcases List.mem_cons.mp member with rfl | later
      · exact pair True
      · exact each operand (List.mem_cons_of_mem _ (List.mem_cons_of_mem _ later))

end Expression

theorem ordering_of_int {operator : Operator} {type : NativeType}
    (named : operator ∈ [.iff, .equals, .le, .lt]) (connective : operator = .iff → type = .bool)
    (integer : type = .int) : operator ∈ [.equals, .le, .lt] := by
  rcases List.mem_cons.mp named with isIff | ordering
  · rw [connective isIff] at integer
    cases integer
  · exact ordering

namespace Formation

variable {columns : Columns} {operator : Operator} {type : NativeType} {operands : List Lowered}
  {expression : Expression}

/-- What is written is an integer expression exactly if its type is that of integers. -/
theorem integral_iff (formation : Formation operator type operands expression)
    (each : ∀ operand ∈ operands, operand.expression.Integral columns ↔ operand.type = .int) :
    expression.Integral columns ↔ type = .int := by
  cases formation with
  | @literal value named typed nothing =>
    rw [Expression.integral_iff]
    cases value with
    | int value =>
      cases typed
      exact ⟨fun _ => rfl, fun _ => .inr (.inl ⟨value, rfl⟩)⟩
    | bool | real | bitVec =>
      have other := type_ne_int typed (by simp [Literal.sort])
      simp [other, Expression.Fixed, Expression.kin]
  | @arithmetic form named numeric several typed =>
    rw [Expression.integral_iff_kin (by simp [Expression.Fixed]) (by simp) (by simp)]
    simp only [Expression.kin, numeric, if_true, List.mem_map]
    constructor
    · rintro ⟨_, ⟨operand, member, rfl⟩, integral⟩
      rw [← typed operand member]
      exact (each operand member).mp integral
    · intro integer
      obtain ⟨operand, member⟩ := List.exists_mem_of_ne_nil operands several
      exact ⟨_, ⟨operand, member, rfl⟩, (each operand member).mpr (typed operand member ▸ integer)⟩
  | @negation only named single typed =>
    rw [Expression.integral_iff_kin (by simp [Expression.Fixed]) (by simp) (by simp), ← typed,
      ← each only (by simp [single])]
    simp [Expression.kin]
  | quotient named integer => exact ⟨fun _ => integer, fun _ => .fixed trivial⟩
  | power named integer => exact ⟨fun _ => integer, fun _ => .power _ _⟩
  | @comparison form left right named compares truth =>
    have unrelated := ChainOperator.isArithmetic_of_isComparison compares
    rw [Expression.integral_iff_kin (by simp [Expression.Fixed]) (by simp) (by simp), truth]
    simp [Expression.kin, unrelated]
  | @choice condition first second named triple truth firstTyped secondTyped =>
    rw [Expression.integral_iff_kin (by simp [Expression.Fixed]) (by simp) (by simp)]
    have firstEach := each first (by simp [triple])
    have secondEach := each second (by simp [triple])
    simp [Expression.kin, firstEach, secondEach, firstTyped, secondTyped]
  | plain plain other written apart =>
    refine ⟨fun integral => ?_, fun integer => absurd integer other⟩
    have among : ∃ operand ∈ expression.kin, operand.Integral columns := by
      refine (Expression.integral_iff_kin ?_ ?_ ?_).mp integral
      · cases expression <;> first | exact id | cases plain
      · rintro value rfl
        cases plain
      · rintro base exponent rfl
        cases plain
    obtain ⟨operand, member, inner⟩ := among
    have listed := Expression.kin_immediate member
    rw [written] at listed
    obtain ⟨lowered, among, rfl⟩ := List.mem_map.mp listed
    exact absurd ((each lowered among).mp inner) (apart lowered among)

/-- Integers whose literals all have 64 bits got them from outside or from their operands. -/
theorem given_or_settled (formation : Formation operator type operands expression)
    (integer : type = .int)
    (each : ∀ operand ∈ operands, operand.type = .int → ∀ given,
      operand.expression.Sized columns given → given ∨ operand.expression.Settled columns)
    {given : Prop} (sized : expression.Sized columns given) :
    given ∨ expression.Settled columns := by
  obtain ⟨literals, below⟩ := sized
  cases formation with
  | @literal value named typed nothing =>
    have whole : value.sort = .int := by rw [TermSort.native_ok typed, integer]; rfl
    cases value with
    | int value =>
      rcases literals value rfl with known | least
      · exact .inl known
      · exact .inr (.fixed (congrArg Literal.int least))
    | bool | real | bitVec => cases whole
  | @arithmetic form named numeric several typed =>
    obtain ⟨operand, member⟩ := List.exists_mem_of_ne_nil operands several
    have listed := List.mem_map_of_mem (f := (·.expression)) member
    have inner := each operand member ((typed operand member).trans integer) _
      (below _ listed)
    simp only [Expression.Gives, numeric, if_true] at inner
    rcases inner with known | settled
    · exact known
    · exact .inr (.kin (by simpa [Expression.kin, numeric] using ⟨operand, member, rfl⟩) settled)
  | @negation only named single typed =>
    have inner := each only (by simp [single]) (typed.trans integer) _
      (below _ List.mem_cons_self)
    rcases inner with known | settled
    · exact known
    · exact .inr (.kin List.mem_cons_self settled)
  | quotient => exact .inr (.fixed trivial)
  | @power base exponent named integer pair typed =>
    have member : base ∈ operands := by simp [pair]
    rcases each base member (typed base member) _ (below _ List.mem_cons_self) with
      known | settled
    · exact absurd known id
    · exact .inr (.kin List.mem_cons_self settled)
  | comparison _ _ truth =>
    rw [truth] at integer
    cases integer
  | @choice condition first second named triple truth firstTyped secondTyped =>
    have inner := each first (by simp [triple]) (firstTyped.trans integer) _
      (below _ (List.mem_cons_of_mem _ List.mem_cons_self))
    rcases inner with known | settled
    · exact known
    · exact .inr (.kin List.mem_cons_self settled)
  | plain _ other => exact absurd integer other

/-- Literals have 64 bits where a type is known from outside or from the operands, provided that
comparisons and powers have such operands. -/
theorem sized (formation : Formation operator type operands expression)
    (each : ∀ operand ∈ operands, ∀ given,
      (operand.type = .int → given ∨ operand.expression.Settled columns) →
        operand.expression.Sized columns given)
    (compared : operator ∈ [.equals, .le, .lt] → (∀ operand ∈ operands, operand.type = .int) →
      ∃ operand ∈ operands, operand.expression.Settled columns)
    (raised : operator = .pow → ∀ {left right}, operands = [left, right] →
      (∀ operand ∈ operands, operand.type = .int) →
      ∀ operand ∈ operands, operand.expression.Settled columns)
    {given : Prop} (known : type = .int → given ∨ expression.Settled columns) :
    expression.Sized columns given := by
  cases formation with
  | @literal value named typed nothing =>
    refine .intro (fun number written => ?_) (fun operand member => nomatch member)
    cases written
    cases typed
    rcases known rfl with given | fixed | ⟨member, _⟩
    · exact .inl given
    · exact .inr (Literal.int.inj fixed)
    · cases member
  | @arithmetic form named numeric several typed =>
    refine .intro nofun fun operand member => ?_
    obtain ⟨lowered, listed, rfl⟩ := List.mem_map.mp member
    refine each lowered listed _ fun integer => .inl ?_
    simpa [Expression.Gives, numeric] using known (typed lowered listed ▸ integer)
  | @negation only named single typed =>
    refine .intro nofun fun operand member => ?_
    cases List.mem_singleton.mp member
    exact each only (by simp [single]) _ fun integer => .inl (known (typed ▸ integer))
  | quotient named integer several more typed folded =>
    rw [← folded]
    refine Expression.quotients_sized (fun expression member => ?_) (by simpa using more) given
    rw [← List.map_cons, ← several] at member
    obtain ⟨lowered, among, rfl⟩ := List.mem_map.mp member
    exact each lowered among True fun _ => .inl trivial
  | @power base exponent named integer pair typed =>
    refine .intro nofun fun expression member => ?_
    have listed : expression ∈ operands.map (·.expression) := pair ▸ member
    obtain ⟨lowered, among, rfl⟩ := List.mem_map.mp listed
    exact each lowered among _ fun _ => .inr (raised named pair typed lowered among)
  | @comparison form left right named compares truth pair same connective =>
    have unrelated := ChainOperator.isArithmetic_of_isComparison compares
    refine .intro nofun fun expression member => ?_
    have listed : expression ∈ operands.map (·.expression) := pair ▸ member
    obtain ⟨lowered, among, rfl⟩ := List.mem_map.mp listed
    refine each lowered among _ fun integer => .inl ?_
    have integers : left.type = .int ∧ right.type = .int := by
      rw [pair] at among
      rcases List.mem_pair.mp among with rfl | rfl
      · exact ⟨integer, same ▸ integer⟩
      · exact ⟨same.trans integer, integer⟩
    have ordering := ordering_of_int named connective integers.1
    obtain ⟨operand, member, settled⟩ := compared ordering (by simpa [pair] using integers)
    have inPair : operand.expression ∈ [left.expression, right.expression] := by
      rw [pair] at member
      exact List.mem_map_of_mem (f := (·.expression)) member
    simp only [Expression.Gives, unrelated, Bool.false_eq_true, if_false]
    exact ⟨compares, operand.expression, inPair, settled⟩
  | @choice condition first second named triple truth firstTyped secondTyped =>
    refine .intro nofun fun expression member => ?_
    have listed : expression ∈ operands.map (·.expression) := triple ▸ member
    obtain ⟨lowered, among, rfl⟩ := List.mem_map.mp listed
    refine each lowered among _ fun integer => .inl (known ?_)
    simp only [triple, List.mem_cons, List.not_mem_nil, or_false] at among
    rcases among with rfl | rfl | rfl
    · rw [truth] at integer
      cases integer
    · exact firstTyped ▸ integer
    · exact secondTyped ▸ integer
  | plain plain other written apart =>
    refine .intro (fun value literal => ?_) fun operand member => ?_
    · rw [literal] at plain
      cases plain
    · rw [written] at member
      obtain ⟨lowered, among, rfl⟩ := List.mem_map.mp member
      exact each lowered among _ fun integer => absurd integer (apart lowered among)

end Formation

section Results

variable {formula : Formula} {function : Function} {memo : Std.HashMap NodeId Lowered}
  {id : NodeId} {lowered : Lowered} {node : Node} {operands : List Lowered}

namespace Opened

variable (opened : Opened formula function memo id lowered node operands)

include opened

theorem sort_int (integer : lowered.type = .int) : node.sort = .int := by
  rw [TermSort.native_ok opened.native, integer]
  rfl

end Opened

/-- What stands for a node is an integer expression exactly if its type is that of integers. -/
theorem Accounted.integral_iff (accounted : Accounted formula function memo)
    (sorted : formula.WellSorted) (path : formula.arena.Reaches formula.root id)
    (known : memo[id]? = some lowered) :
    lowered.expression.Integral function.columns ↔ lowered.type = .int := by
  induction id using NodeId.strongRecOn generalizing lowered with
  | ind id ih =>
    obtain ⟨node, operands, opened⟩ := accounted.opens sorted path known
    have each : ∀ operand ∈ operands,
        operand.expression.Integral function.columns ↔ operand.type = .int := by
      intro operand member
      obtain ⟨child, _, below, reached, there⟩ := opened.child member
      exact ih child below reached there
    cases opened.written with
    | kept _ single => exact each lowered (by simp [single])
    | symbol named listed =>
      obtain ⟨column, member, rfl, rfl⟩ := listed
      rw [Expression.integral_iff]
      constructor
      · rintro (⟨other, listed, same, integer⟩ | ⟨_, ⟨⟩⟩ | ⟨_, _, ⟨⟩⟩ | ⟨_, ⟨⟩, _⟩)
        rw [accounted.recorded.distinct column member other listed same.symm]
        exact integer
      · intro integer
        exact .inl ⟨column, member, rfl, integer⟩
    | declared =>
      rw [Expression.integral_iff]
      simp [Expression.Fixed, Expression.kin]
    | inline formed _ several =>
      exact (opened.forms opened.native (.inr several) formed).integral_iff each

theorem bare_iff {arena : Arena} (found : arena.node? id = some node) :
    arena.Bare id ↔ node.sort = .int ∧
      ((∃ value, node.operator = .constant (.int value) ∧ value ≠ Int64.minValue) ∨
      (node.children ≠ [] ∧
        (node.operator ∈ [.plus, .minus, .times, .pow] ∨
          node.operator = .div ∧ node.children.length = 1) ∧
        ∀ child ∈ node.children, arena.Bare child)) := by
  constructor
  · rintro (⟨there, integer, written, digits⟩ | ⟨there, integer, several, arithmetic, each⟩)
    · cases found.symm.trans there
      exact ⟨integer, .inl ⟨_, written, digits⟩⟩
    · cases found.symm.trans there
      exact ⟨integer, .inr ⟨several, arithmetic, each⟩⟩
  · rintro ⟨integer, ⟨value, written, digits⟩ | ⟨several, arithmetic, each⟩⟩
    · exact .constant found integer written digits
    · exact .applied found integer several arithmetic each

/-- The operators that integers are kept by. -/
theorem keepsSingle_int {operator : Operator} {sorts : List TermSort}
    (signature : operator.Signature sorts .int) (keeps : operator.keepsSingle) :
    operator ∈ [.plus, .times, .div] := by
  cases operator with
  | plus | times | div => simp
  | and | or | bvAnd | bvOr | bvXor => nomatch signature
  | _ => cases keeps

namespace Opened

variable (opened : Opened formula function memo id lowered node operands)

include opened

theorem bare_arithmetic (integer : lowered.type = .int) (several : operands ≠ [])
    (arithmetic : node.operator ∈ [.plus, .minus, .times, .pow] ∨
      node.operator = .div ∧ node.children.length = 1) :
    formula.arena.Bare id ↔ ∀ child ∈ node.children, formula.arena.Bare child := by
  rw [bare_iff opened.found]
  constructor
  · rintro ⟨_, ⟨value, written, _⟩ | ⟨_, _, each⟩⟩
    · rw [written] at arithmetic
      simp at arithmetic
    · exact each
  · intro each
    refine ⟨opened.sort_int integer, .inr ⟨?_, arithmetic, each⟩⟩
    intro nothing
    have gathered := opened.gathered
    rw [nothing] at gathered
    cases gathered
    exact several rfl

/-- An operator that is no arithmetic leaves no bare integer. -/
theorem not_bare (other : node.operator ∉ [.plus, .minus, .times, .pow])
    (unwritten : ∀ value, node.operator ≠ .constant value)
    (divided : node.operator = .div → node.children.length ≠ 1) : ¬ formula.arena.Bare id := by
  rw [bare_iff opened.found]
  rintro ⟨_, ⟨value, written, _⟩ | ⟨_, arithmetic | ⟨isDiv, single⟩, _⟩⟩
  · exact unwritten _ written
  · exact other arithmetic
  · exact divided isDiv single

theorem not_bare_child (mixed : ¬ ∀ child ∈ node.children, formula.arena.Bare child) :
    ∃ child operand, child < id ∧ formula.arena.Reaches formula.root child ∧
      memo[child]? = some operand ∧ operand ∈ operands ∧ ¬ formula.arena.Bare child := by
  simp only [not_forall] at mixed
  obtain ⟨child, listed, free⟩ := mixed
  obtain ⟨operand, member, there⟩ := opened.operand listed
  exact ⟨child, operand, formula.ordered id node opened.found child listed,
    opened.path.child opened.found listed, there, member, free⟩

end Opened

/-- What may stand for an integer, and whether it is bare. -/
inductive IntegerForm (function : Function) (arena : Arena) (id : NodeId) (node : Node)
    (operands : List Lowered) : Expression → Prop where
  | fixed {expression : Expression} (fixed : expression.Fixed function.columns)
      (other : ¬ arena.Bare id) : IntegerForm function arena id node operands expression
  | literal {value : Int64} (digits : value ≠ Int64.minValue) (bare : arena.Bare id) :
      IntegerForm function arena id node operands (.literal (.int value))
  | kept {only : Lowered} (single : operands = [only]) (integer : only.type = .int)
      (bare : arena.Bare id ↔ ∀ child ∈ node.children, arena.Bare child) :
      IntegerForm function arena id node operands only.expression
  | joined {expression : Expression} (typed : ∀ operand ∈ operands, operand.type = .int)
      (written : expression.immediate = operands.map (·.expression))
      (related : expression.kin = expression.immediate)
      (unfixed : ¬ expression.Fixed function.columns)
      (bare : arena.Bare id ↔ ∀ child ∈ node.children, arena.Bare child) :
      IntegerForm function arena id node operands expression
  | power {base exponent : Lowered} (named : node.operator = .pow)
      (pair : operands = [base, exponent]) (typed : ∀ operand ∈ operands, operand.type = .int)
      (bare : arena.Bare id ↔ ∀ child ∈ node.children, arena.Bare child) :
      IntegerForm function arena id node operands
        (.integerPower base.expression exponent.expression)

theorem Opened.integerForm (opened : Opened formula function memo id lowered node operands)
    (integer : lowered.type = .int) :
    IntegerForm function formula.arena id node operands lowered.expression := by
  have length := opened.gathered.length_eq
  have sort := opened.sort_int integer
  cases opened.written with
  | kept keeps single =>
    obtain ⟨sorts, signature, _⟩ := opened.typed
    rw [sort] at signature
    have arithmetic := keepsSingle_int signature keeps
    have one : node.children.length = 1 := by rw [length, single]; rfl
    refine .kept single integer (opened.bare_arithmetic integer (by simp [single]) ?_)
    simp only [List.mem_cons, List.not_mem_nil, or_false] at arithmetic ⊢
    rcases arithmetic with isPlus | isTimes | isDiv
    · exact .inl (.inl isPlus)
    · exact .inl (.inr (.inr (.inl isTimes)))
    · exact .inr ⟨isDiv, one⟩
  | symbol named listed =>
    obtain ⟨column, member, rfl, rfl⟩ := listed
    refine .fixed ⟨column, member, rfl, integer⟩ (opened.not_bare ?_ ?_ ?_) <;> simp [named]
  | declared formed declares =>
    refine .fixed integer (opened.not_bare ?_ ?_ ?_)
    · intro arithmetic
      simp only [List.mem_cons, List.not_mem_nil, or_false] at arithmetic
      rcases arithmetic with same | same | same | same <;> rw [same] at declares <;> cases declares
    · intro value same
      rw [same] at declares
      cases declares
    · intro same
      rw [same] at declares
      cases declares
  | inline formed undeclared several =>
    cases opened.forms opened.native (.inr several) formed with
    | @literal value named typed =>
      have whole : value.sort = .int := by rw [TermSort.native_ok typed, integer]; rfl
      cases value with
      | bool | real | bitVec => cases whole
      | int value =>
        by_cases least : value = Int64.minValue
        · refine .fixed (congrArg Literal.int least) ?_
          rw [bare_iff opened.found, named]
          simp [least]
        · exact .literal least (.constant opened.found sort named least)
    | @arithmetic form named numeric several typed =>
      have operator : node.operator ∈ [.plus, .minus, .times, .pow] :=
        List.mem_append_left [Operator.pow] named
      exact .joined (fun operand member => (typed operand member).trans integer) rfl
        (by simp [Expression.kin, Expression.immediate, numeric]) (fun fixed => fixed)
        (opened.bare_arithmetic integer several (.inl operator))
    | @negation only named single typed =>
      have operator : node.operator ∈ [.plus, .minus, .times, .pow] := by simp [named]
      refine .joined ?_ (by rw [single]; rfl) rfl (fun fixed => fixed)
        (opened.bare_arithmetic integer (by simp [single]) (.inl operator))
      simpa [single] using typed.trans integer
    | quotient named _ several more =>
      refine .fixed trivial (opened.not_bare ?_ ?_ ?_)
      · simp [named]
      · simp [named]
      · intro _ one
        rw [length, several, List.length_cons, Nat.add_eq_right] at one
        exact more (List.length_eq_zero_iff.mp one)
    | @power base exponent named _ pair typed =>
      exact .power named pair typed
        (opened.bare_arithmetic integer (by simp [pair]) (.inl (by simp [named])))
    | comparison _ _ truth =>
      rw [truth] at integer
      cases integer
    | choice named =>
      rw [named] at undeclared
      cases undeclared
    | plain _ other => exact absurd integer other

theorem pairChain_eq {operator : Operator} {form : ChainOperator} {value : Expression}
    (formed : operator.pairChain form operands = .ok value) :
    value = .chain form (operands.map (·.expression)) ∧ operands ≠ [] := by
  unfold Operator.pairChain Operator.pairOf Operator.twoOperands at formed
  split at formed
  · cases formed
    exact ⟨rfl, List.cons_ne_nil _ _⟩
  · cases formed

theorem Function.Sized.part (sized : function.Sized) {piece : Expression}
    (emits : function.Emits piece) : ∃ given, piece.Sized function.columns given := by
  rcases emits with ⟨statement, member, inside⟩ | inside
  · exact (sized.1 statement member).part inside
  · exact sized.2.part inside

section Walks

variable (accounted : Accounted formula function memo) (sorted : formula.WellSorted)

include accounted sorted

theorem Accounted.anchored_iff (path : formula.arena.Reaches formula.root id)
    (known : memo[id]? = some lowered) (integer : lowered.type = .int) :
    lowered.expression.Anchored function.columns ↔ ¬ formula.arena.Bare id := by
  induction id using NodeId.strongRecOn generalizing lowered with
  | ind id ih =>
    obtain ⟨node, operands, opened⟩ := accounted.opens sorted path known
    -- Some operand is anchored exactly if some child is not bare.
    have among (typed : ∀ operand ∈ operands, operand.type = .int) :
        (∃ operand ∈ operands, operand.expression.Anchored function.columns) ↔
          ¬ ∀ child ∈ node.children, formula.arena.Bare child := by
      constructor
      · rintro ⟨operand, member, anchored⟩ each
        obtain ⟨child, listed, below, reached, there⟩ := opened.child member
        exact (ih child below reached there (typed operand member)).mp anchored (each child listed)
      · intro mixed
        obtain ⟨child, operand, below, reached, there, member, other⟩ :=
          opened.not_bare_child mixed
        exact ⟨operand, member, (ih child below reached there (typed operand member)).mpr other⟩
    have form := opened.integerForm integer
    generalize lowered.expression = expression at form
    cases form with
    | fixed fixed other => exact iff_of_true (Expression.anchored_iff.mpr (.inl fixed)) other
    | literal digits bare =>
      refine iff_of_false ?_ (not_not.mpr bare)
      rw [Expression.anchored_iff]
      simp [Expression.Fixed, Expression.immediate, digits]
    | kept single typed bare =>
      rw [bare, ← among (by simpa [single] using typed), single]
      simp
    | joined typed written related unfixed bare =>
      rw [bare, ← among typed, Expression.anchored_iff, written]
      simp [unfixed]
    | power named pair typed bare =>
      rw [bare, ← among typed, Expression.anchored_iff, pair]
      simp [Expression.Fixed, Expression.immediate]

/-- An integer that is not bare takes its type from its own operands, if no bare integer is raised
to a power. -/
theorem Accounted.settled (grounded : formula.Grounded)
    (path : formula.arena.Reaches formula.root id) (known : memo[id]? = some lowered)
    (integer : lowered.type = .int) (other : ¬ formula.arena.Bare id) :
    lowered.expression.Settled function.columns := by
  induction id using NodeId.strongRecOn generalizing lowered with
  | ind id ih =>
    obtain ⟨node, operands, opened⟩ := accounted.opens sorted path known
    have among (typed : ∀ operand ∈ operands, operand.type = .int)
        (mixed : ¬ ∀ child ∈ node.children, formula.arena.Bare child) :
        ∃ operand ∈ operands, operand.expression.Settled function.columns := by
      obtain ⟨child, operand, below, reached, there, member, free⟩ := opened.not_bare_child mixed
      exact ⟨operand, member, ih child below reached there (typed operand member) free⟩
    have form := opened.integerForm integer
    generalize lowered.expression = expression at form
    cases form with
    | fixed fixed => exact .fixed fixed
    | literal _ bare => exact absurd bare other
    | kept single typed bare =>
      rw [bare] at other
      obtain ⟨operand, member, settled⟩ := among (by simpa [single] using typed) other
      rw [single] at member
      cases List.mem_singleton.mp member
      exact settled
    | joined typed written related unfixed bare =>
      rw [bare] at other
      obtain ⟨operand, member, settled⟩ := among typed other
      refine .kin ?_ settled
      rw [related, written]
      exact List.mem_map_of_mem member
    | @power base exponent named pair typed bare =>
      obtain ⟨first, second, children, there, _⟩ := opened.pair pair
      have listed : first ∈ node.children := by simp [children]
      have settled := ih first (formula.ordered id node opened.found first listed)
        (path.child opened.found listed) there (typed base (by simp [pair]))
        (grounded.power id node first second path opened.found named children)
      exact .kin List.mem_cons_self settled

/-- Integers whose literals all have 64 bits got them from outside or from their operands. -/
theorem Accounted.given_or_settled (path : formula.arena.Reaches formula.root id)
    (known : memo[id]? = some lowered) (integer : lowered.type = .int) {given : Prop}
    (sized : lowered.expression.Sized function.columns given) :
    given ∨ lowered.expression.Settled function.columns := by
  induction id using NodeId.strongRecOn generalizing lowered given with
  | ind id ih =>
    obtain ⟨node, operands, opened⟩ := accounted.opens sorted path known
    have each : ∀ operand ∈ operands, operand.type = .int → ∀ given,
        operand.expression.Sized function.columns given →
          given ∨ operand.expression.Settled function.columns := by
      intro operand member typed given inner
      obtain ⟨child, _, below, reached, there⟩ := opened.child member
      exact ih child below reached there typed inner
    cases opened.written with
    | kept _ single => exact each lowered (by simp [single]) integer given sized
    | symbol _ listed =>
      obtain ⟨column, member, rfl, rfl⟩ := listed
      exact .inr (.fixed ⟨column, member, rfl, integer⟩)
    | declared => exact .inr (.fixed integer)
    | inline formed _ several =>
      exact (opened.forms opened.native (.inr several) formed).given_or_settled integer each sized

theorem Accounted.compared (grounded : formula.Grounded)
    (opened : Opened formula function memo id lowered node operands)
    (ordering : node.operator ∈ [.equals, .le, .lt])
    (typed : ∀ operand ∈ operands, operand.type = .int) :
    ∃ operand ∈ operands, operand.expression.Settled function.columns := by
  obtain ⟨child, listed, free⟩ :=
    grounded.comparison id node opened.path opened.found ordering
  obtain ⟨operand, member, there⟩ := opened.operand listed
  exact ⟨operand, member, accounted.settled sorted grounded
    (opened.path.child opened.found listed) there (typed operand member) free⟩

theorem Accounted.raised (grounded : formula.Grounded) (exponents : formula.ExponentsGrounded)
    (opened : Opened formula function memo id lowered node operands)
    (named : node.operator = .pow) {left right : Lowered} (pair : operands = [left, right])
    (typed : ∀ operand ∈ operands, operand.type = .int) :
    ∀ operand ∈ operands, operand.expression.Settled function.columns := by
  obtain ⟨base, exponent, children, one, two⟩ := opened.pair pair
  have free : ∀ child ∈ node.children, ¬ formula.arena.Bare child := by
    rw [children]
    intro child member
    rcases List.mem_pair.mp member with rfl | rfl
    · exact grounded.power id node child exponent opened.path opened.found named children
    · exact exponents id node base child opened.path opened.found named children
  intro operand member
  obtain ⟨child, listed, _, reached, there⟩ := opened.child member
  exact accounted.settled sorted grounded reached there (typed operand member) (free child listed)

/-- Where comparisons and powers are grounded, literals have 64 bits as soon as a type is known
from outside or from the operands. -/
theorem Accounted.sized (grounded : formula.Grounded) (exponents : formula.ExponentsGrounded)
    (path : formula.arena.Reaches formula.root id) (known : memo[id]? = some lowered)
    {given : Prop} (enough : lowered.type = .int →
      given ∨ lowered.expression.Settled function.columns) :
    lowered.expression.Sized function.columns given := by
  induction id using NodeId.strongRecOn generalizing lowered given with
  | ind id ih =>
    obtain ⟨node, operands, opened⟩ := accounted.opens sorted path known
    have each : ∀ operand ∈ operands, ∀ given,
        (operand.type = .int → given ∨ operand.expression.Settled function.columns) →
          operand.expression.Sized function.columns given := by
      intro operand member given enough
      obtain ⟨child, _, below, reached, there⟩ := opened.child member
      exact ih child below reached there enough
    cases opened.written with
    | kept _ single => exact each lowered (by simp [single]) given enough
    | symbol | declared => exact .leaf nofun rfl
    | inline formed _ several =>
      exact (opened.forms opened.native (.inr several) formed).sized each
        (accounted.compared sorted grounded opened)
        (accounted.raised sorted grounded exponents opened) enough

theorem Accounted.bare_int (path : formula.arena.Reaches formula.root id)
    (known : memo[id]? = some lowered) (bare : formula.arena.Bare id) : lowered.type = .int := by
  obtain ⟨node, operands, opened⟩ := accounted.opens sorted path known
  have native := opened.native
  rw [((bare_iff opened.found).mp bare).1] at native
  exact (Except.ok.inj native).symm

theorem Accounted.comparison (path : formula.arena.Reaches formula.root id)
    (found : formula.arena.node? id = some node)
    (ordering : node.operator ∈ [.equals, .le, .lt]) :
    ∃ lowered operands form target, Opened formula function memo id lowered node operands ∧
      form.isComparison ∧ operands ≠ [] ∧
      ⟨target, .chain form (operands.map (·.expression))⟩ ∈ function.statements := by
  obtain ⟨lowered, known⟩ := accounted.covers id path
  obtain ⟨stored, operands, opened⟩ := accounted.opens sorted path known
  cases found.symm.trans opened.found
  simp only [List.mem_cons, List.not_mem_nil, or_false] at ordering
  cases opened.written with
  | kept keeps =>
    rcases ordering with same | same | same <;> rw [same] at keeps <;> cases keeps
  | symbol named =>
    rcases ordering with same | same | same <;> rw [same] at named <;> cases named
  | inline _ undeclared =>
    rcases ordering with same | same | same <;> rw [same] at undeclared <;> cases undeclared
  | @declared target value formed declares member =>
    rcases ordering with same | same | same <;> rw [same] at formed <;>
      obtain ⟨rfl, several⟩ := pairChain_eq formed
    · exact ⟨_, operands, .equal, target, opened, rfl, several, member⟩
    · exact ⟨_, operands, .atMost, target, opened, rfl, several, member⟩
    · exact ⟨_, operands, .below, target, opened, rfl, several, member⟩

theorem Accounted.power (path : formula.arena.Reaches formula.root id)
    (found : formula.arena.node? id = some node) (named : node.operator = .pow)
    {base exponent : NodeId} (children : node.children = [base, exponent])
    (integer : ∃ child ∈ node.children, formula.arena.Bare child) :
    ∃ left right, memo[base]? = some left ∧ memo[exponent]? = some right ∧
      left.type = .int ∧ right.type = .int ∧
      function.Emits (.integerPower left.expression right.expression) := by
  obtain ⟨lowered, known⟩ := accounted.covers id path
  obtain ⟨stored, operands, opened⟩ := accounted.opens sorted path known
  cases found.symm.trans opened.found
  obtain ⟨child, member, bare⟩ := integer
  obtain ⟨operand, listed, there⟩ := opened.operand member
  have whole := accounted.bare_int sorted (path.child found member) there bare
  have emits := accounted.emits sorted path known
  cases opened.written with
  | kept keeps => rw [named] at keeps; cases keeps
  | symbol isSymbol => rw [named] at isSymbol; cases isSymbol
  | declared _ declares => rw [named] at declares; cases declares
  | inline formed _ several =>
    have formation := opened.forms opened.native (.inr several) formed
    rw [named] at formation
    cases formation with
    | literal other | negation other | quotient other | choice other => cases other
    | arithmetic other | comparison other => simp at other
    | @power left right _ integer pair typed =>
      obtain ⟨first, second, same, one, two⟩ := opened.pair pair
      cases children.symm.trans same
      exact ⟨left, right, one, two, typed left (by simp [pair]), typed right (by simp [pair]),
        emits⟩
    | plain _ _ _ apart => exact absurd whole (apart operand listed)

theorem Accounted.grounded_of_anchored (anchored : function.Anchored) : formula.Grounded := by
  refine ⟨fun id node path found ordering => ?_, fun id node base exponent path found named
    children bare => ?_⟩
  · obtain ⟨lowered, operands, form, target, opened, compares, _, member⟩ :=
      accounted.comparison sorted path found ordering
    by_contra all
    simp only [not_exists, not_and, not_not] at all
    have typed : ∀ operand ∈ operands, operand.type = .int := by
      intro operand listed
      obtain ⟨child, among, _, reached, there⟩ := opened.child listed
      exact accounted.bare_int sorted reached there (all child among)
    have integral : ∀ operand ∈ operands.map (·.expression),
        operand.Integral function.columns := by
      intro expression listed
      obtain ⟨operand, among, rfl⟩ := List.mem_map.mp listed
      obtain ⟨child, _, _, reached, there⟩ := opened.child among
      exact (accounted.integral_iff sorted reached there).mpr (typed operand among)
    obtain ⟨expression, listed, holds⟩ :=
      anchored.comparison form _ (.inl ⟨_, member, .whole⟩) compares integral
    obtain ⟨operand, among, rfl⟩ := List.mem_map.mp listed
    obtain ⟨child, below, _, reached, there⟩ := opened.child among
    exact (accounted.anchored_iff sorted reached there (typed operand among)).mp holds
      (all child below)
  · have listed : base ∈ node.children := by simp [children]
    obtain ⟨left, right, one, _, integer, _, emits⟩ :=
      accounted.power sorted path found named children ⟨base, listed, bare⟩
    exact (accounted.anchored_iff sorted (path.child found listed) one integer).mp
      (anchored.power _ _ emits) bare

theorem Accounted.anchored_of_grounded (grounded : formula.Grounded) : function.Anchored := by
  refine ⟨fun form expressions emits compares integral => ?_, fun base exponent emits => ?_⟩
  · obtain ⟨id, lowered, node, operands, type, opened, native, formation⟩ :=
      accounted.emitted sorted rfl emits
    have unrelated := ChainOperator.isArithmetic_of_isComparison compares
    cases formation with
    | arithmetic _ numeric =>
      rw [unrelated] at numeric
      cases numeric
    | plain plain => simp [Expression.isPlain, compares] at plain
    | @comparison _ left right named _ truth pair same connective =>
      have typed : ∀ operand ∈ operands, operand.type = .int := by
        intro operand member
        obtain ⟨child, _, _, reached, there⟩ := opened.child member
        refine (accounted.integral_iff sorted reached there).mp (integral _ ?_)
        rw [pair] at member
        exact List.mem_map_of_mem (f := (·.expression)) member
      have ordering := ordering_of_int named connective (typed left (by simp [pair]))
      obtain ⟨operand, member, settled⟩ :=
        accounted.compared sorted grounded opened ordering typed
      refine ⟨operand.expression, ?_, settled.anchored⟩
      rw [pair] at member
      exact List.mem_map_of_mem (f := (·.expression)) member
  · obtain ⟨id, lowered, node, operands, type, opened, native, formation⟩ :=
      accounted.emitted sorted rfl emits
    cases formation with
    | plain plain => cases plain
    | @power left right named integer pair typed =>
      obtain ⟨first, second, children, there, _⟩ := opened.pair pair
      have listed : first ∈ node.children := by simp [children]
      have free := grounded.power id node first second opened.path opened.found named children
      exact (accounted.anchored_iff sorted (opened.path.child opened.found listed) there
        (typed left (by simp [pair]))).mpr free

/-- The operands of a power take no type from outside, so they are not bare if they are sized. -/
theorem Accounted.powers_grounded (sized : function.Sized)
    (path : formula.arena.Reaches formula.root id)
    (found : formula.arena.node? id = some node) (named : node.operator = .pow)
    {base exponent : NodeId} (children : node.children = [base, exponent]) :
    ∀ child ∈ node.children, ¬ formula.arena.Bare child := by
  intro child member bare
  obtain ⟨left, right, one, two, leftInteger, rightInteger, emits⟩ :=
    accounted.power sorted path found named children ⟨child, member, bare⟩
  obtain ⟨given, _, operands⟩ := sized.part emits
  obtain ⟨operand, there, integer, inner⟩ : ∃ operand : Lowered, memo[child]? = some operand ∧
      operand.type = .int ∧ operand.expression.Sized function.columns False := by
    rw [children] at member
    rcases List.mem_pair.mp member with rfl | rfl
    · exact ⟨left, one, leftInteger, operands _ List.mem_cons_self⟩
    · exact ⟨right, two, rightInteger,
        operands _ (List.mem_cons_of_mem _ List.mem_cons_self)⟩
  have reached := path.child found member
  rcases accounted.given_or_settled sorted reached there integer inner with given | settled
  · exact given
  · exact (accounted.anchored_iff sorted reached there integer).mp settled.anchored bare

theorem Accounted.grounded_of_sized (sized : function.Sized) :
    formula.Grounded ∧ formula.ExponentsGrounded := by
  refine ⟨⟨fun id node path found ordering => ?_, ?_⟩, ?_⟩
  · obtain ⟨lowered, operands, form, target, opened, compares, several, member⟩ :=
      accounted.comparison sorted path found ordering
    have unrelated := ChainOperator.isArithmetic_of_isComparison compares
    by_contra all
    simp only [not_exists, not_and, not_not] at all
    -- An operand of bare integers takes no type from the others.
    have unsettled : ∀ operand ∈ operands, ¬ operand.expression.Settled function.columns := by
      intro operand listed settled
      obtain ⟨child, among, _, reached, there⟩ := opened.child listed
      have integer := accounted.bare_int sorted reached there (all child among)
      exact (accounted.anchored_iff sorted reached there integer).mp settled.anchored
        (all child among)
    obtain ⟨first, listed⟩ := List.exists_mem_of_ne_nil operands several
    obtain ⟨child, among, _, reached, there⟩ := opened.child listed
    obtain ⟨_, below⟩ := sized.1 _ member
    have inner := below first.expression (List.mem_map_of_mem listed)
    simp only [Expression.Gives, unrelated, Bool.false_eq_true, if_false] at inner
    rcases accounted.given_or_settled sorted reached there
      (accounted.bare_int sorted reached there (all child among)) inner with
      ⟨_, expression, given, settled⟩ | settled
    · obtain ⟨operand, member, rfl⟩ := List.mem_map.mp given
      exact unsettled operand member settled
    · exact unsettled first listed settled
  · intro id node base exponent path found named children
    exact accounted.powers_grounded sorted sized path found named children base
      (by simp [children])
  · intro id node base exponent path found named children
    exact accounted.powers_grounded sorted sized path found named children exponent
      (by simp [children])

theorem Accounted.sized_of_grounded (grounded : formula.Grounded)
    (exponents : formula.ExponentsGrounded) : function.Sized := by
  constructor
  · intro statement member
    obtain ⟨id, lowered, node, operands, opened, native, formation⟩ :=
      accounted.statement sorted member
    refine formation.sized (fun operand listed given enough => ?_)
      (accounted.compared sorted grounded opened)
      (accounted.raised sorted grounded exponents opened) .inl
    obtain ⟨child, _, _, reached, there⟩ := opened.child listed
    exact accounted.sized sorted grounded exponents reached there enough
  · exact accounted.sized sorted grounded exponents .root accounted.atRoot .inl

end Walks

end Results

/-- Some operand of every comparison of integers, and everything that is raised to an integer
power, has a part of a known type exactly if no comparison of the formula is of bare integers only
and no bare integer is raised to a power. Every literal has 64 bits exactly if, besides, no bare
integer is an exponent. -/
theorem integers_sized_iff (formula : Formula) (function : Function)
    (sorted : formula.WellSorted) (lowered : formula.lower = .ok function) :
    (function.Anchored ↔ formula.Grounded) ∧
      (function.Sized ↔ formula.Grounded ∧ formula.ExponentsGrounded) := by
  obtain ⟨memo, accounted⟩ := lower_accounted sorted lowered
  refine ⟨⟨accounted.grounded_of_anchored sorted, accounted.anchored_of_grounded sorted⟩,
    accounted.grounded_of_sized sorted, ?_⟩
  rintro ⟨grounded, exponents⟩
  exact accounted.sized_of_grounded sorted grounded exponents

/-- A power of a sum that is compared with a constant. -/
def offsetPower : Formula where
  arena := .ofNodes #[⟨.symbol "x", [], .int⟩, ⟨.constant (.int 2), [], .int⟩,
    ⟨.plus, [0, 1], .int⟩, ⟨.pow, [2, 0], .int⟩, ⟨.constant (.int 5), [], .int⟩, ⟨.lt, [3, 4], .bool⟩]
  root := 5
  ordered := by decide
  rooted := by decide

theorem offsetPower_wellSorted : offsetPower.WellSorted := by
  intro id node _ found
  have member := Arena.mem_nodes found
  simp only [offsetPower, Arena.ofNodes, List.mem_cons, List.not_mem_nil, or_false] at member
  rcases member with rfl | rfl | rfl | rfl | rfl | rfl
  · exact ⟨⟨[], _, rfl, .symbol "x" .int⟩, fun absent => (by cases absent), trivial⟩
  · exact ⟨⟨[], _, rfl, .constant (.int 2)⟩, fun _ => rfl, trivial⟩
  · exact ⟨⟨[.int, .int], _, rfl, .arithmetic (by decide) (.inl rfl) 1⟩, fun _ => rfl, trivial⟩
  · exact ⟨⟨[.int, .int], _, rfl, .pow (.inl rfl)⟩, fun _ => rfl, trivial⟩
  · exact ⟨⟨[], _, rfl, .constant (.int 5)⟩, fun _ => rfl, trivial⟩
  · exact ⟨⟨[.int, .int], _, rfl, .comparison (by decide) (.inl rfl)⟩, fun _ => rfl, trivial⟩

theorem offsetPower_free : ¬ offsetPower.arena.Bare 0 ∧ ¬ offsetPower.arena.Bare 2 ∧
    ¬ offsetPower.arena.Bare 3 := by
  have symbolNode : offsetPower.arena.node? 0 = some ⟨.symbol "x", [], .int⟩ := rfl
  have sumNode : offsetPower.arena.node? 2 = some ⟨.plus, [0, 1], .int⟩ := rfl
  have powerNode : offsetPower.arena.node? 3 = some ⟨.pow, [2, 0], .int⟩ := rfl
  have symbol : ¬ offsetPower.arena.Bare 0 := by
    rw [bare_iff symbolNode]
    simp
  have sum : ¬ offsetPower.arena.Bare 2 := by
    rw [bare_iff sumNode]
    simp [symbol]
  have power : ¬ offsetPower.arena.Bare 3 := by
    rw [bare_iff powerNode]
    simp [sum]
  exact ⟨symbol, sum, power⟩

theorem integers_sized_iff_offsetPower :
    ∃ function, offsetPower.lower = .ok function ∧ function.Anchored ∧ function.Sized := by
  obtain ⟨symbol, sum, power⟩ := offsetPower_free
  have grounded : offsetPower.Grounded := by
    refine ⟨fun id node _ found ordering => ?_, fun id node base exponent _ found named
      children => ?_⟩
    · have member := Arena.mem_nodes found
      simp only [offsetPower, Arena.ofNodes, List.mem_cons, List.not_mem_nil, or_false] at member
      rcases member with rfl | rfl | rfl | rfl | rfl | rfl
      · simp at ordering
      · simp at ordering
      · simp at ordering
      · simp at ordering
      · simp at ordering
      · exact ⟨3, List.mem_cons_self, power⟩
    · have member := Arena.mem_nodes found
      simp only [offsetPower, Arena.ofNodes, List.mem_cons, List.not_mem_nil, or_false] at member
      rcases member with rfl | rfl | rfl | rfl | rfl | rfl <;> cases named
      cases children
      exact sum
  have exponents : offsetPower.ExponentsGrounded := by
    intro id node base exponent _ found named children
    have member := Arena.mem_nodes found
    simp only [offsetPower, Arena.ofNodes, List.mem_cons, List.not_mem_nil, or_false] at member
    rcases member with rfl | rfl | rfl | rfl | rfl | rfl <;> cases named
    cases children
    exact symbol
  have succeeds : offsetPower.lower.isOk = true := by cbv
  cases lowered : offsetPower.lower with
  | error error =>
    rw [lowered] at succeeds
    cases succeeds
  | ok function =>
    obtain ⟨anchored, sized⟩ :=
      integers_sized_iff offsetPower function offsetPower_wellSorted lowered
    exact ⟨function, rfl, anchored.mpr grounded, sized.mpr ⟨grounded, exponents⟩⟩

/-- A power of constants that is compared with a constant. -/
def powerBelow : Formula where
  arena := .ofNodes #[⟨.constant (.int 2), [], .int⟩, ⟨.constant (.int 3), [], .int⟩,
    ⟨.pow, [0, 1], .int⟩, ⟨.constant (.int 5), [], .int⟩, ⟨.lt, [2, 3], .bool⟩]
  root := 4
  ordered := by decide
  rooted := by decide

theorem powerBelow_wellSorted : powerBelow.WellSorted := by
  intro id node _ found
  have member := Arena.mem_nodes found
  simp only [powerBelow, Arena.ofNodes, List.mem_cons, List.not_mem_nil, or_false] at member
  rcases member with rfl | rfl | rfl | rfl | rfl
  · exact ⟨⟨[], _, rfl, .constant (.int 2)⟩, fun _ => rfl, trivial⟩
  · exact ⟨⟨[], _, rfl, .constant (.int 3)⟩, fun _ => rfl, trivial⟩
  · exact ⟨⟨[.int, .int], _, rfl, .pow (.inl rfl)⟩, fun _ => rfl, trivial⟩
  · exact ⟨⟨[], _, rfl, .constant (.int 5)⟩, fun _ => rfl, trivial⟩
  · exact ⟨⟨[.int, .int], _, rfl, .comparison (by decide) (.inl rfl)⟩, fun _ => rfl, trivial⟩

def powerBelowFunction : Function :=
  let power : Expression := .integerPower (.literal (.int 2)) (.literal (.int 3))
  ⟨⟨[]⟩, [⟨⟨.bool, 0⟩, .chain .below [power, .literal (.int 5)]⟩],
    ⟨.temporary ⟨.bool, 0⟩, .bool, true⟩⟩

/-- A power of a literal, which has no type of its own. -/
theorem literals_unsized :
    powerBelow.WellSorted ∧ powerBelow.lower = .ok powerBelowFunction ∧
      powerBelowFunction.statements.map (·.text) =
        ["let bool0: bool = ((2).wrapping_pow((3) as u32) < 5);"] ∧
      ¬ powerBelowFunction.Anchored := by
  refine ⟨powerBelow_wellSorted, by cbv, rfl, fun anchored => ?_⟩
  have emits : powerBelowFunction.Emits
      (.integerPower (.literal (.int 2)) (.literal (.int 3))) :=
    .inl ⟨_, List.mem_cons_self, .within List.mem_cons_self .whole⟩
  rcases Expression.anchored_iff.mp (anchored.power _ _ emits) with fixed | ⟨_, member, _⟩
  · exact absurd (Literal.int.inj fixed) (by decide)
  · cases member

end Code

end Formulary
