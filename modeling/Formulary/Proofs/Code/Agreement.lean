import Formulary.Proofs.Code.Words
import Formulary.Proofs.Evaluation.Soundness

namespace Formulary.Code

/-- What was lowered has the given value, and the value's type. -/
structure Lowered.Denotes (environment : Environment) (lowered : Lowered) (value : Value) :
    Prop where
  computes : lowered.expression.operand environment = some value
  typed : value.native = lowered.type

section Operators

variable {environment : Environment} {operator : Operator} {operands : List Lowered}
  {expression : Expression}

theorem operands_denote {values : List Value}
    (denote : List.Forall₂ (Lowered.Denotes environment) operands values) :
    Expression.operands environment (operands.map (·.expression)) = some values := by
  induction denote with
  | nil => rfl
  | cons first _ ih => simp [Expression.operands, first.computes, ih]

theorem chainOf_computes {values : List Value} {form : ChainOperator}
    (denote : List.Forall₂ (Lowered.Denotes environment) operands values)
    (formed : operator.chainOf form operands = .ok expression) :
    expression.operand environment = form.applyAll values := by
  unfold Operator.chainOf at formed
  split at formed
  · cases formed
  · cases formed
    simp [Expression.operand, operands_denote denote]

theorem operandWidth_vector {lowered : Lowered} {bits : UInt64} {width : Nat}
    (denotes : lowered.Denotes environment (.bitVec bits width)) :
    operator.operandWidth lowered = .ok width := by
  rw [Operator.operandWidth, ← denotes.typed]
  rfl

/-- A chain of values that are made alike combines what they hold, from the left. -/
theorem applyAll_made {α : Type} {make : α → Value} {form : ChainOperator}
    {step : α → α → α} (chains : form.isComparison = false)
    (applied : ∀ a b, form.apply (make a) (make b) = some (make (step a b)))
    (first : α) (rest : List α) :
    form.applyAll ((first :: rest).map make) = some (make (rest.foldl step first)) := by
  have folded : (rest.map make).foldlM form.apply (make first) =
      some (make (rest.foldl step first)) := by
    induction rest generalizing first with
    | nil => rfl
    | cons second rest ih => simp [applied, ih]
  simp only [List.map_cons, ChainOperator.applyAll, chains, Bool.false_eq_true, false_and,
    if_false, folded]

/-- The program's expression and the evaluator's application have one value. -/
def Agrees (environment : Environment) (application : Application) (expression : Expression) :
    Prop :=
  ∃ value, application.value = .ok value ∧ expression.operand environment = some value

theorem chain_agrees {α : Type} {make : α → Value} {form : ChainOperator} {step : α → α → α}
    {first : α} {rest : List α} (chains : form.isComparison = false)
    (applied : ∀ a b, form.apply (make a) (make b) = some (make (step a b)))
    (denote : List.Forall₂ (Lowered.Denotes environment) operands ((first :: rest).map make))
    (formed : operator.chainOf form operands = .ok expression)
    (valued : Application.value ⟨operator, (first :: rest).map make⟩ =
      .ok (make (rest.foldl step first))) :
    Agrees environment ⟨operator, (first :: rest).map make⟩ expression := by
  refine ⟨_, valued, ?_⟩
  rw [chainOf_computes denote formed, applyAll_made chains applied]

theorem junction_agrees {first : Bool} {rest : List Bool} {type : NativeType}
    (member : operator ∈ [.and, .or])
    (denote : List.Forall₂ (Lowered.Denotes environment) operands ((first :: rest).map .bool))
    (formed : operator.expression type operands = .ok expression) :
    Agrees environment ⟨operator, (first :: rest).map .bool⟩ expression := by
  fin_cases member
  · refine chain_agrees rfl (fun _ _ => rfl) denote formed ?_
    rw [Application.value, Value.bools?_map, foldl_and]
    rfl
  · refine chain_agrees rfl (fun _ _ => rfl) denote formed ?_
    rw [Application.value, Value.bools?_map, foldl_or]
    rfl

theorem quotients_compute {first : Expression} {number : Int64} {rest : List Lowered}
    {numbers : List Int64} (start : first.operand environment = some (.int number))
    (denote : List.Forall₂ (Lowered.Denotes environment) rest (numbers.map .int)) :
    ((rest.map (·.expression)).foldl Expression.integerQuotient first).operand environment =
      some (.int (numbers.foldl Word.divEuclid number)) := by
  induction numbers generalizing first number rest with
  | nil =>
    cases denote
    exact start
  | cons divisor numbers ih =>
    obtain _ | ⟨second, others⟩ := denote
    rw [List.map_cons, List.foldl_cons, List.foldl_cons]
    refine ih ?_ others
    simp [Expression.operand, start, second.computes, both, Machine.onInts,
      Machine.integerQuotient_eq]

theorem minus_agrees {α : Type} {make : α → Value} {negative : α → α} {step : α → α → α}
    {first : α} {rest : List α} {type : NativeType}
    (inverted : ∀ a, UnaryOperator.negate.apply (make a) = some (make (negative a)))
    (applied : ∀ a b, ChainOperator.minus.apply (make a) (make b) = some (make (step a b)))
    (denote : List.Forall₂ (Lowered.Denotes environment) operands ((first :: rest).map make))
    (formed : Operator.minus.expression type operands = .ok expression)
    (negated : Application.value ⟨.minus, [make first]⟩ = .ok (make (negative first)))
    (valued : rest ≠ [] → Application.value ⟨.minus, (first :: rest).map make⟩ =
      .ok (make (rest.foldl step first))) :
    Agrees environment ⟨.minus, (first :: rest).map make⟩ expression := by
  cases rest with
  | nil =>
    obtain _ | ⟨only, _ | _⟩ := denote
    cases formed
    exact ⟨_, negated, by simp [Expression.operand, only.computes, inverted]⟩
  | cons second rest =>
    have chained : Operator.minus.chainOf .minus operands = .ok expression := by
      obtain _ | ⟨_, _ | ⟨_, _⟩⟩ := denote
      exact formed
    exact chain_agrees rfl applied denote chained (valued (by simp))

theorem integers_agree {first : Int64} {rest : List Int64}
    (member : operator ∈ [.plus, .minus, .times, .div])
    (denote : List.Forall₂ (Lowered.Denotes environment) operands ((first :: rest).map .int))
    (formed : operator.expression .int operands = .ok expression) :
    Agrees environment ⟨operator, (first :: rest).map .int⟩ expression := by
  fin_cases member
  · exact chain_agrees rfl (fun _ _ => rfl) denote formed
      (Application.arithmetic_ints .plus _ _ first rest)
  · refine minus_agrees (fun _ => rfl) (fun _ _ => rfl) denote formed rfl fun several => ?_
    cases rest with
    | nil => exact absurd rfl several
    | cons second rest => exact Application.arithmetic_ints .minus _ _ first (second :: rest)
  · exact chain_agrees rfl (fun _ _ => rfl) denote formed
      (Application.arithmetic_ints .times _ _ first rest)
  · refine ⟨_, Application.arithmetic_ints .div _ _ first rest, ?_⟩
    obtain _ | ⟨start, others⟩ := denote
    cases formed
    exact quotients_compute start.computes others

theorem reals_agree {first : Float} {rest : List Float}
    (member : operator ∈ [.plus, .minus, .times, .div])
    (denote : List.Forall₂ (Lowered.Denotes environment) operands ((first :: rest).map .real))
    (formed : operator.expression .real operands = .ok expression) :
    Agrees environment ⟨operator, (first :: rest).map .real⟩ expression := by
  fin_cases member
  · exact chain_agrees rfl (fun _ _ => rfl) denote formed
      (Application.arithmetic_reals .plus _ _ first rest)
  · refine minus_agrees (fun _ => rfl) (fun _ _ => rfl) denote formed rfl fun several => ?_
    cases rest with
    | nil => exact absurd rfl several
    | cons second rest => exact Application.arithmetic_reals .minus _ _ first (second :: rest)
  · exact chain_agrees rfl (fun _ _ => rfl) denote formed
      (Application.arithmetic_reals .times _ _ first rest)
  · exact chain_agrees rfl (fun _ _ => rfl) denote formed
      (Application.arithmetic_reals .div _ _ first rest)

theorem foldl_fits {step : UInt64 → UInt64 → UInt64} {width : Nat}
    (kept : ∀ a b : UInt64, a.toNat < 2 ^ width → b.toNat < 2 ^ width →
      (step a b).toNat < 2 ^ width)
    {first : UInt64} {rest : List UInt64} (fits : ∀ bits ∈ first :: rest, bits.toNat < 2 ^ width) :
    (rest.foldl step first).toNat < 2 ^ width := by
  induction rest generalizing first with
  | nil => exact fits first List.mem_cons_self
  | cons second rest ih =>
    refine ih fun bits member => ?_
    rcases List.mem_cons.mp member with rfl | later
    · exact kept first second (fits first (by simp)) (fits second (by simp))
    · exact fits bits (by simp [later])

theorem fits_of_typed {list : List UInt64} {width count : Nat}
    (typed : List.Forall₂ Value.HasSort (list.map (.bitVec · width))
      (List.replicate count (.bitVec width))) : ∀ bits ∈ list, bits.toNat < 2 ^ width := by
  induction list generalizing count with
  | nil => simp
  | cons first rest ih =>
    cases count with
    | zero => cases typed
    | succ count =>
      obtain _ | ⟨held, others⟩ := typed
      cases held with
      | bitVec firstFits => simpa using ⟨firstFits, ih others⟩

/-- The program does not cut the results of bitwise operators, and need not. -/
theorem bitwise_agrees {first : UInt64} {rest : List UInt64} {width : Nat} {type : NativeType}
    (member : operator ∈ [.bvAnd, .bvOr, .bvXor]) (narrow : width ≤ 64)
    (fits : ∀ bits ∈ first :: rest, bits.toNat < 2 ^ width)
    (denote : List.Forall₂ (Lowered.Denotes environment) operands
      ((first :: rest).map (.bitVec · width)))
    (formed : operator.expression type operands = .ok expression) :
    Agrees environment ⟨operator, (first :: rest).map (.bitVec · width)⟩ expression := by
  fin_cases member
  · refine chain_agrees (rfl : ChainOperator.bitAnd.isComparison = false)
      (fun _ _ => if_pos rfl) denote formed ?_
    rw [← Machine.vector_of_fits narrow (foldl_fits (fun a b left right => ?_) fits)]
    · exact Application.bitwise_vectors .bvAnd _ first rest width
    · rw [UInt64.toNat_and]
      exact Nat.and_lt_two_pow _ right
  · refine chain_agrees (rfl : ChainOperator.bitOr.isComparison = false)
      (fun _ _ => if_pos rfl) denote formed ?_
    rw [← Machine.vector_of_fits narrow (foldl_fits (fun a b left right => ?_) fits)]
    · exact Application.bitwise_vectors .bvOr _ first rest width
    · rw [UInt64.toNat_or]
      exact Nat.or_lt_two_pow left right
  · refine chain_agrees (rfl : ChainOperator.bitXor.isComparison = false)
      (fun _ _ => if_pos rfl) denote formed ?_
    rw [← Machine.vector_of_fits narrow (foldl_fits (fun a b left right => ?_) fits)]
    · exact Application.bitwise_vectors .bvXor _ first rest width
    · rw [UInt64.toNat_xor]
      exact Nat.xor_lt_two_pow left right

section Pairs

variable {left right : Lowered} {x y : Value}

theorem pair_computes (leftDenotes : left.Denotes environment x)
    (rightDenotes : right.Denotes environment y) (form : ChainOperator) :
    (Expression.chain form [left.expression, right.expression]).operand environment =
      form.apply x y := by
  simp [Expression.operand, Expression.operands, leftDenotes.computes, rightDenotes.computes,
    ChainOperator.applyAll]

theorem both_computes (leftDenotes : left.Denotes environment x)
    (rightDenotes : right.Denotes environment y) (compute : Value → Value → Option Value) :
    both compute (left.expression.operand environment) (right.expression.operand environment) =
      compute x y := by
  rw [leftDenotes.computes, rightDenotes.computes]
  rfl

theorem shift_agrees {a b : UInt64} {width : Nat} {type : NativeType}
    (member : operator ∈ [.bvShl, .bvLShr, .bvAShr]) (positive : 1 ≤ width)
    (narrow : width ≤ 64) (fits : a.toNat < 2 ^ width)
    (leftDenotes : left.Denotes environment (.bitVec a width))
    (rightDenotes : right.Denotes environment (.bitVec b width))
    (formed : operator.expression type [left, right] = .ok expression) :
    Agrees environment ⟨operator, [.bitVec a width, .bitVec b width]⟩ expression := by
  fin_cases member
  · cases formed
    refine ⟨.vector (if width ≤ b.toNat then 0 else a <<< b) width, ?_, ?_⟩
    · simp only [Application.value, Application.onVectors_pair, Word.shiftLeft?_eq a b narrow,
        Application.word]
    · rw [pair_computes leftDenotes rightDenotes, ← Machine.shiftLeft_eq a b narrow]
      exact if_pos rfl
  · cases formed
    refine ⟨.vector (if width ≤ b.toNat then 0 else a >>> b) width, ?_, ?_⟩
    · simp only [Application.value, Application.onVectors_pair, Word.shiftRight?_eq a b narrow,
        Application.word]
    · rw [pair_computes leftDenotes rightDenotes, ← Machine.shiftRight_eq b narrow fits]
      exact if_pos rfl
  · cases formed
    obtain ⟨shifted, known⟩ := Word.shiftRightSigned?_isSome a b positive narrow
    refine ⟨.vector shifted width, ?_, ?_⟩
    · simp only [Application.value, Application.onVectors_pair, known, Application.word]
    · rw [Expression.operand, both_computes leftDenotes rightDenotes]
      simp [Machine.onVectors, Machine.signedShiftRight_eq a b positive narrow, known]

theorem wrapping_agrees {a b : UInt64} {width : Nat} {form : WrappingOperator}
    (leftDenotes : left.Denotes environment (.bitVec a width))
    (rightDenotes : right.Denotes environment (.bitVec b width))
    (formed : operator.wrapping form [left, right] = .ok expression)
    (valued : Application.value ⟨operator, [.bitVec a width, .bitVec b width]⟩ =
      .ok (.vector (form.apply a b) width)) :
    Agrees environment ⟨operator, [.bitVec a width, .bitVec b width]⟩ expression := by
  simp only [Operator.wrapping, Operator.twoOperands, operandWidth_vector leftDenotes, bind,
    Except.bind, pure, Except.pure] at formed
  cases formed
  refine ⟨_, valued, ?_⟩
  rw [Expression.operand, both_computes leftDenotes rightDenotes, ← Machine.new_eq]
  rfl

theorem quotient_agrees {a b : UInt64} {width : Nat} {type : NativeType}
    (member : operator ∈ [.bvUDiv, .bvSDiv]) (positive : 1 ≤ width) (narrow : width ≤ 64)
    (leftDenotes : left.Denotes environment (.bitVec a width))
    (rightDenotes : right.Denotes environment (.bitVec b width))
    (formed : operator.expression type [left, right] = .ok expression) :
    Agrees environment ⟨operator, [.bitVec a width, .bitVec b width]⟩ expression := by
  fin_cases member
  · simp only [Operator.expression, Operator.twoOperands, operandWidth_vector leftDenotes, bind,
      Except.bind, pure, Except.pure] at formed
    cases formed
    refine ⟨.vector (Word.divUnsigned a b) width, ?_, ?_⟩
    · simp only [Application.value, Application.onVectors_pair]
    · rw [Expression.operand, both_computes leftDenotes rightDenotes,
        ← Machine.unsignedQuotient_eq, ← Machine.new_eq]
      rfl
  · cases formed
    obtain ⟨quotient, known⟩ := Word.divSigned?_isSome a b positive narrow
    refine ⟨.vector quotient width, ?_, ?_⟩
    · simp only [Application.value, Application.onVectors_pair, known, Application.word]
    · rw [Expression.operand, both_computes leftDenotes rightDenotes]
      simp [Machine.onVectors, Machine.signedQuotient_eq a b positive narrow, known]

theorem word_agrees {a b : UInt64} {width : Nat} {type : NativeType}
    (member : operator ∈
      [.bvShl, .bvLShr, .bvAShr, .bvAdd, .bvSub, .bvMul, .bvUDiv, .bvSDiv])
    (positive : 1 ≤ width) (narrow : width ≤ 64) (fits : a.toNat < 2 ^ width)
    (leftDenotes : left.Denotes environment (.bitVec a width))
    (rightDenotes : right.Denotes environment (.bitVec b width))
    (formed : operator.expression type [left, right] = .ok expression) :
    Agrees environment ⟨operator, [.bitVec a width, .bitVec b width]⟩ expression := by
  fin_cases member
  · exact shift_agrees (by decide) positive narrow fits leftDenotes rightDenotes formed
  · exact shift_agrees (by decide) positive narrow fits leftDenotes rightDenotes formed
  · exact shift_agrees (by decide) positive narrow fits leftDenotes rightDenotes formed
  · refine wrapping_agrees leftDenotes rightDenotes formed ?_
    simp only [Application.value, Application.onVectors_pair, WrappingOperator.apply]
  · refine wrapping_agrees leftDenotes rightDenotes formed ?_
    simp only [Application.value, Application.onVectors_pair, WrappingOperator.apply]
  · refine wrapping_agrees leftDenotes rightDenotes formed ?_
    simp only [Application.value, Application.onVectors_pair, WrappingOperator.apply]
  · exact quotient_agrees (by decide) positive narrow leftDenotes rightDenotes formed
  · exact quotient_agrees (by decide) positive narrow leftDenotes rightDenotes formed

theorem order_agrees {a b : UInt64} {width : Nat} {type : NativeType}
    (member : operator ∈ [.bvULt, .bvULe, .bvSLt, .bvSLe]) (positive : 1 ≤ width)
    (narrow : width ≤ 64) (leftDenotes : left.Denotes environment (.bitVec a width))
    (rightDenotes : right.Denotes environment (.bitVec b width))
    (formed : operator.expression type [left, right] = .ok expression) :
    Agrees environment ⟨operator, [.bitVec a width, .bitVec b width]⟩ expression := by
  obtain ⟨number, leftRead⟩ : ∃ number, Word.signed? a width = some number :=
    ⟨_, Word.signed?_eq a positive narrow⟩
  obtain ⟨other, rightRead⟩ : ∃ other, Word.signed? b width = some other :=
    ⟨_, Word.signed?_eq b positive narrow⟩
  fin_cases member <;>
    simp only [Operator.expression, Operator.compareVectors, Operator.twoOperands,
      operandWidth_vector leftDenotes, discard, Functor.discard, bind, Except.bind, pure,
      Except.pure] at formed <;>
    cases formed <;>
    simp [Agrees, Application.value, Application.compareSigned, Application.onVectors_pair,
      Expression.operand, both_computes leftDenotes rightDenotes, View.apply, Machine.onBits,
      Machine.compareSigned, Machine.signed_eq _ positive narrow, leftRead, rightRead]

theorem sameBits_agrees {a b : UInt64} {width : Nat} {type : NativeType}
    (leftDenotes : left.Denotes environment (.bitVec a width))
    (rightDenotes : right.Denotes environment (.bitVec b width))
    (formed : Operator.bvComp.expression type [left, right] = .ok expression) :
    Agrees environment ⟨.bvComp, [.bitVec a width, .bitVec b width]⟩ expression := by
  cases formed
  refine ⟨.vector (if a = b then 1 else 0) 1, ?_, ?_⟩
  · simp only [Application.value, Application.onVectors_pair]
  · rw [Expression.operand, both_computes leftDenotes rightDenotes, ← Machine.new_eq]
    simp [Machine.sameBits, Machine.onVectors]

theorem concat_agrees {a b : UInt64} {high low : Nat} {type : NativeType}
    (positive : 1 ≤ high) (narrow : high + low ≤ 64)
    (leftDenotes : left.Denotes environment (.bitVec a high))
    (rightDenotes : right.Denotes environment (.bitVec b low))
    (formed : Operator.bvConcat.expression type [left, right] = .ok expression) :
    Agrees environment ⟨.bvConcat, [.bitVec a high, .bitVec b low]⟩ expression := by
  simp only [Operator.expression, Operator.joinVectors, Operator.twoOperands,
    operandWidth_vector leftDenotes, operandWidth_vector rightDenotes, bind, Except.bind, pure,
    Except.pure] at formed
  split at formed
  · cases formed
  · split at formed
    · cases formed
    · rename_i result _ sum
      cases formed
      have room : low < 64 := by omega
      have whole : high + low = result := by omega
      subst whole
      refine ⟨_, Application.concat_vectors .bvConcat a b positive narrow, ?_⟩
      rw [Expression.operand, both_computes leftDenotes rightDenotes]
      simp [Machine.onWidths, Machine.concat, room, Machine.new_eq]

theorem equality_agrees {sort : TermSort} {type : NativeType}
    (member : operator ∈ [.iff, .equals]) (leftSort : x.HasSort sort) (rightSort : y.HasSort sort)
    (leftDenotes : left.Denotes environment x) (rightDenotes : right.Denotes environment y)
    (formed : operator.expression type [left, right] = .ok expression) :
    Agrees environment ⟨operator, [x, y]⟩ expression := by
  have compared : ChainOperator.equal.apply x y = some (.bool (x.same y)) := by
    cases leftSort <;> cases rightSort
    · rfl
    · rfl
    · rfl
    · simp [ChainOperator.apply, Machine.equal, Machine.onVectors, Value.same]
  fin_cases member <;> cases formed <;>
    exact ⟨_, rfl, (pair_computes leftDenotes rightDenotes .equal).trans compared⟩

theorem comparison_agrees {sort : TermSort} {type : NativeType}
    (member : operator ∈ [.le, .lt]) (numeric : sort.Numeric) (leftSort : x.HasSort sort)
    (rightSort : y.HasSort sort) (leftDenotes : left.Denotes environment x)
    (rightDenotes : right.Denotes environment y)
    (formed : operator.expression type [left, right] = .ok expression) :
    Agrees environment ⟨operator, [x, y]⟩ expression := by
  rcases numeric with rfl | rfl <;> cases leftSort <;> cases rightSort <;>
    fin_cases member <;> cases formed <;>
    exact ⟨_, rfl, pair_computes leftDenotes rightDenotes _⟩

theorem power_agrees {sort : TermSort} {type : NativeType} (numeric : sort.Numeric)
    (native : sort.native = .ok type) (leftSort : x.HasSort sort) (rightSort : y.HasSort sort)
    (leftDenotes : left.Denotes environment x) (rightDenotes : right.Denotes environment y)
    (formed : Operator.pow.expression type [left, right] = .ok expression) :
    Agrees environment ⟨.pow, [x, y]⟩ expression := by
  rcases numeric with rfl | rfl <;> cases leftSort <;> cases rightSort <;> cases native <;>
    cases formed
  · refine ⟨_, rfl, ?_⟩
    rw [← Machine.integerPower_eq]
    exact both_computes leftDenotes rightDenotes _
  · exact ⟨_, rfl, both_computes leftDenotes rightDenotes _⟩

end Pairs

theorem extract_agrees {only : Lowered} {bits : UInt64} {low high width : Nat}
    {type : NativeType} (forward : low ≤ high) (inside : high < width) (narrow : width ≤ 64)
    (denotes : only.Denotes environment (.bitVec bits width))
    (formed : (Operator.bvExtract low high).expression type [only] = .ok expression) :
    Agrees environment ⟨.bvExtract low high, [.bitVec bits width]⟩ expression := by
  simp only [Operator.expression, Operator.extractBits, Operator.oneOperand,
    operandWidth_vector denotes, bind, Except.bind, pure, Except.pure] at formed
  split at formed
  · cases formed
  · split at formed
    · cases formed
    · rename_i result _ bounds
      cases formed
      have room : low < 64 := by omega
      have whole : high - low + 1 = result := by omega
      subst whole
      refine ⟨_, Application.extract_vector _ bits forward inside narrow, ?_⟩
      simp [Expression.operand, denotes.computes, Machine.onVector, Machine.extract, forward,
        inside, room, Machine.new_eq]

theorem inversion_agrees {only : Lowered} {bits : UInt64} {width : Nat} {type : NativeType}
    (member : operator ∈ [.bvNot, .bvNeg])
    (denotes : only.Denotes environment (.bitVec bits width))
    (formed : operator.expression type [only] = .ok expression) :
    Agrees environment ⟨operator, [.bitVec bits width]⟩ expression := by
  fin_cases member <;> cases formed <;>
    refine ⟨_, rfl, ?_⟩ <;>
    simp [Expression.operand, denotes.computes, UnaryOperator.apply, Machine.new_eq]

/-- An expression that may stand within another one may also stand by itself. -/
theorem value_of_operand {value : Value}
    (computed : expression.operand environment = some value) :
    expression.value environment = some value := by
  cases expression with
  | implication | conditional => simp [Expression.operand] at computed
  | _ => exact computed

theorem Agrees.alone {application : Application}
    (agrees : Agrees environment application expression) :
    ∃ value, application.value = .ok value ∧ expression.value environment = some value ∧
      (application.operator.isDeclared = false →
        expression.operand environment = some value) := by
  obtain ⟨value, valued, computed⟩ := agrees
  exact ⟨value, valued, value_of_operand computed, fun _ => computed⟩

theorem implication_agrees {premise conclusion : Lowered} {p q : Bool} {type : NativeType}
    (premiseDenotes : premise.Denotes environment (.bool p))
    (conclusionDenotes : conclusion.Denotes environment (.bool q))
    (formed : Operator.implies.expression type [premise, conclusion] = .ok expression) :
    expression.value environment = some (.bool (!p || q)) := by
  cases formed
  exact both_computes premiseDenotes conclusionDenotes _

theorem conditional_agrees {condition first second : Lowered} {holds : Bool} {x y : Value}
    {sort : TermSort} {type : NativeType} (firstSort : x.HasSort sort) (secondSort : y.HasSort sort)
    (conditionDenotes : condition.Denotes environment (.bool holds))
    (firstDenotes : first.Denotes environment x) (secondDenotes : second.Denotes environment y)
    (formed : Operator.ite.expression type [condition, first, second] = .ok expression) :
    expression.value environment = some (if holds then x else y) := by
  cases formed
  have sameType : x.native = y.native := by
    cases firstSort <;> cases secondSort <;> rfl
  simp [Expression.value, Machine.choose, conditionDenotes.computes, firstDenotes.computes,
    secondDenotes.computes, sameType]

/-- On values of the sorts in its signature, an operator's expression has its value. -/
theorem expression_agrees {sorts : List TermSort} {sort : TermSort} {values : List Value}
    {type : NativeType} (accepts : operator.Accepts sorts sort values)
    (applied : ∀ name, operator ≠ .symbol name) (native : sort.native = .ok type)
    (denote : List.Forall₂ (Lowered.Denotes environment) operands values)
    (formed : operator.expression type operands = .ok expression) :
    ∃ value, Application.value ⟨operator, values⟩ = .ok value ∧
      expression.value environment = some value ∧
      (operator.isDeclared = false → expression.operand environment = some value) := by
  obtain ⟨signature, typed, narrow, narrowArguments⟩ := accepts
  cases signature with
  | symbol name sort => exact absurd rfl (applied name)
  | constant literal =>
    cases formed
    have agrees : Agrees environment ⟨.constant literal, values⟩ (.literal literal) :=
      ⟨_, rfl, by rw [Expression.operand, Machine.literal_eq]⟩
    exact agrees.alone
  | not =>
    obtain _ | ⟨⟨p⟩, _ | _⟩ := typed
    obtain _ | ⟨only, _ | _⟩ := denote
    cases formed
    exact Agrees.alone ⟨_, rfl, by simp [Expression.operand, only.computes, UnaryOperator.apply]⟩
  | junction member more =>
    obtain ⟨_ | ⟨first, rest⟩, rfl, counted⟩ := Value.HasSort.bools typed
    · cases counted
    · exact (junction_agrees member denote formed).alone
  | connective member =>
    obtain _ | ⟨⟨p⟩, _ | ⟨⟨q⟩, _ | _⟩⟩ := typed
    obtain _ | ⟨left, _ | ⟨right, _ | _⟩⟩ := denote
    rcases List.mem_cons.mp member with rfl | member
    · exact ⟨_, rfl, implication_agrees left right formed, by simp [Operator.isDeclared]⟩
    · exact (equality_agrees (List.mem_cons.mpr (.inl (List.mem_singleton.mp member))) (.bool p)
        (.bool q) left right formed).alone
  | equals sort =>
    obtain _ | ⟨first, _ | ⟨second, _ | _⟩⟩ := typed
    obtain _ | ⟨left, _ | ⟨right, _ | _⟩⟩ := denote
    exact (equality_agrees (by decide) first second left right formed).alone
  | ite sort =>
    obtain _ | ⟨⟨holds⟩, _ | ⟨first, _ | ⟨second, _ | _⟩⟩⟩ := typed
    obtain _ | ⟨condition, _ | ⟨left, _ | ⟨right, _ | _⟩⟩⟩ := denote
    exact ⟨_, rfl, conditional_agrees first second condition left right formed,
      by simp [Operator.isDeclared]⟩
  | arithmetic member numeric more =>
    rcases numeric with rfl | rfl <;> cases native
    · obtain ⟨_ | ⟨first, rest⟩, rfl, counted⟩ := Value.HasSort.ints typed
      · cases counted
      · exact (integers_agree member denote formed).alone
    · obtain ⟨_ | ⟨first, rest⟩, rfl, counted⟩ := Value.HasSort.reals typed
      · cases counted
      · exact (reals_agree member denote formed).alone
  | pow numeric =>
    obtain _ | ⟨first, _ | ⟨second, _ | _⟩⟩ := typed
    obtain _ | ⟨left, _ | ⟨right, _ | _⟩⟩ := denote
    exact (power_agrees numeric native first second left right formed).alone
  | comparison member numeric =>
    obtain _ | ⟨first, _ | ⟨second, _ | _⟩⟩ := typed
    obtain _ | ⟨left, _ | ⟨right, _ | _⟩⟩ := denote
    exact (comparison_agrees member numeric first second left right formed).alone
  | inversion member width =>
    obtain _ | ⟨⟨fits⟩, _ | _⟩ := typed
    obtain _ | ⟨only, _ | _⟩ := denote
    exact (inversion_agrees member only formed).alone
  | bitwise member width more =>
    obtain ⟨_ | ⟨first, rest⟩, rfl, counted⟩ := Value.HasSort.vectors typed
    · cases counted
    · exact (bitwise_agrees member narrow.2 (fits_of_typed typed) denote
        formed).alone
  | word member width =>
    obtain ⟨positive, small⟩ := narrow
    obtain _ | ⟨first, _ | ⟨second, _ | _⟩⟩ := typed
    obtain _ | ⟨left, _ | ⟨right, _ | _⟩⟩ := denote
    cases first with
    | bitVec fits =>
      cases second
      exact (word_agrees member positive small fits left right formed).alone
  | order member width =>
    obtain ⟨positive, small⟩ := narrowArguments (.bitVec width) (by simp)
    obtain _ | ⟨⟨leftFits⟩, _ | ⟨⟨rightFits⟩, _ | _⟩⟩ := typed
    obtain _ | ⟨left, _ | ⟨right, _ | _⟩⟩ := denote
    exact (order_agrees member positive small left right formed).alone
  | bvComp width =>
    obtain _ | ⟨⟨leftFits⟩, _ | ⟨⟨rightFits⟩, _ | _⟩⟩ := typed
    obtain _ | ⟨left, _ | ⟨right, _ | _⟩⟩ := denote
    exact (sameBits_agrees left right formed).alone
  | bvExtract forward inside =>
    have small := (narrowArguments _ (List.mem_singleton.mpr rfl)).2
    obtain _ | ⟨⟨fits⟩, _ | _⟩ := typed
    obtain _ | ⟨only, _ | _⟩ := denote
    exact (extract_agrees forward inside small only formed).alone
  | bvConcat high low =>
    have positive := (narrowArguments (.bitVec high) (by simp)).1
    obtain _ | ⟨⟨leftFits⟩, _ | ⟨⟨rightFits⟩, _ | _⟩⟩ := typed
    obtain _ | ⟨left, _ | ⟨right, _ | _⟩⟩ := denote
    exact (concat_agrees positive narrow.2 left right formed).alone

end Operators

end Formulary.Code
