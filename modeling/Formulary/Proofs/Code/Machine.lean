import Formulary.Code.Lowering
import Mathlib.Algebra.Ring.Int.Defs

/-! What an evaluator function computes: its helpers, operators and expressions, and its
declarations in order. There is no value where the program would have no type or stop with
a fault. -/
namespace Formulary

def Value.native : Value → NativeType
  | bool _ => .bool
  | int _ => .int
  | real _ => .real
  | bitVec _ width => .bitVec width

namespace Code

namespace Machine

/-- The bits that a vector of this width may use. -/
def mask (width : Nat) : UInt64 :=
  if 64 ≤ width then 0xFFFFFFFFFFFFFFFF else ((1 : UInt64) <<< UInt64.ofNat width) - 1

def new (width : Nat) (bits : UInt64) : Value := .bitVec (bits &&& mask width) width

def ofSigned (width : Nat) (number : Int64) : Value := new width number.toUInt64

/-- Two's complement reading: up to the top of the word, and back with copies of the sign. -/
def signed (width : Nat) (bits : UInt64) : Option Int64 :=
  if 64 < width ∨ width = 0 then none
  else
    let room := UInt64.ofNat (64 - width)
    some ((bits <<< room).toInt64 >>> room.toInt64)

def shiftLeft (width : Nat) (bits amount : UInt64) : Option Value :=
  if UInt64.ofNat width ≤ amount then some (.bitVec 0 width)
  else if amount < 64 then some (new width (bits <<< amount))
  else none

/-- Bits only move down, so nothing is cut. -/
def shiftRight (width : Nat) (bits amount : UInt64) : Option Value :=
  if UInt64.ofNat width ≤ amount then some (.bitVec 0 width)
  else if amount < 64 then some (.bitVec (bits >>> amount) width)
  else none

def signedShiftRight (width : Nat) (bits amount : UInt64) : Option Value := do
  let number ← signed width bits
  return ofSigned width (number >>> (min amount 63).toInt64)

def signedQuotient (width : Nat) (left right : UInt64) : Option Value := do
  let number ← signed width left
  let divisor ← signed width right
  if divisor = 0 then return ofSigned width (if number < 0 then 1 else -1)
  else return ofSigned width (number / divisor)

def unsignedQuotient (left right : UInt64) : UInt64 :=
  (if right = 0 then none else some (left / right)).getD 0xFFFFFFFFFFFFFFFF

def extract (result width low high : Nat) (bits : UInt64) : Option Value :=
  if low ≤ high ∧ high < width ∧ high - low + 1 = result ∧ low < 64 then
    some (new result (bits >>> UInt64.ofNat low))
  else none

def concat (high low result : Nat) (left right : UInt64) : Option Value :=
  if high + low = result ∧ low < 64 then
    some (new result (left <<< UInt64.ofNat low ||| right))
  else none

/-- The Euclidean quotient, if there is one and it is an integer of the machine. -/
def checkedQuotient (left right : Int64) : Option Int64 :=
  let quotient := left.toInt / right.toInt
  if right = 0 then none
  else if Int64.minValue.toInt ≤ quotient ∧ quotient ≤ Int64.maxValue.toInt then
    some (Int64.ofInt quotient)
  else none

def integerQuotient (left right : Int64) : Int64 := (checkedQuotient left right).getD 0

/-- The power modulo the size of a word; the exponent is cut to half a word. -/
def integerPower (base exponent : Int64) : Int64 :=
  Int64.ofInt (base.toInt ^ exponent.toUInt64.toUInt32.toNat)

/-- A constant at the type of its node. -/
def literal : Literal → Value
  | .bool value => .bool value
  | .int value => .int value
  | .real value => .real value.toFloat
  | .bitVec bits width => new width bits

def onVectors (compute : Nat → UInt64 → UInt64 → Option Value) : Value → Value → Option Value
  | .bitVec left v, .bitVec right w => if v = w then compute v left right else none
  | _, _ => none

/-- A computation on the numbers that two vectors stand for. -/
def onBits (compute : UInt64 → UInt64 → Option Value) : Value → Value → Option Value
  | .bitVec left _, .bitVec right _ => compute left right
  | _, _ => none

/-- A computation on two vectors of given types. -/
def onWidths (v w : Nat) (compute : UInt64 → UInt64 → Option Value) :
    Value → Value → Option Value
  | .bitVec left found, .bitVec right other =>
    if found = v ∧ other = w then compute left right else none
  | _, _ => none

def onVector (width : Nat) (compute : UInt64 → Option Value) : Value → Option Value
  | .bitVec bits found => if found = width then compute bits else none
  | _ => none

def onInts (compute : Int64 → Int64 → Value) : Value → Value → Option Value
  | .int left, .int right => some (compute left right)
  | _, _ => none

def onReals (compute : Float → Float → Value) : Value → Value → Option Value
  | .real left, .real right => some (compute left right)
  | _, _ => none

def onBools (compute : Bool → Bool → Bool) : Value → Value → Option Value
  | .bool p, .bool q => some (.bool (compute p q))
  | _, _ => none

/-- Two values of one type are compared. -/
def equal : Value → Value → Option Value
  | .bool p, .bool q => some (.bool (p == q))
  | .int left, .int right => some (.bool (left == right))
  | .real left, .real right => some (.bool (left == right))
  | left, right => onVectors (fun _ a b => some (.bool (a == b))) left right

/-- The computation for integers, or the one for doubles. -/
def onNumbers (ints : Int64 → Int64 → Value) (reals : Float → Float → Value)
    (left right : Value) : Option Value :=
  (onInts ints left right).or (onReals reals left right)

def sameBits : Value → Value → Option Value :=
  onVectors fun _ a b => some (new 1 (if a == b then 1 else 0))

def compareSigned (holds : Int64 → Int64 → Bool) : Value → Value → Option Value
  | .bitVec left v, .bitVec right w => do
    return .bool (holds (← signed v left) (← signed w right))
  | _, _ => none

/-- A choice between two values of one type. -/
def choose : Value → Value → Value → Option Value
  | .bool holds, first, second =>
    if first.native = second.native then some (if holds then first else second) else none
  | _, _, _ => none

end Machine

open Machine

def UnaryOperator.apply : UnaryOperator → Value → Option Value
  | not, .bool p => some (.bool !p)
  | not, .bitVec bits width => some (new width (~~~bits))
  | negate, .int value => some (.int (-value))
  | negate, .real value => some (.real (-value))
  | negate, .bitVec bits width => some (new width (-bits))
  | _, _ => none

/-- Integers wrap, and only doubles are divided by an operator. -/
def ChainOperator.apply : ChainOperator → Value → Value → Option Value
  | and => onBools (· && ·)
  | or => onBools (· || ·)
  | equal => Machine.equal
  | atMost => onNumbers (fun a b => .bool (a ≤ b)) (fun a b => .bool (a ≤ b))
  | below => onNumbers (fun a b => .bool (a < b)) (fun a b => .bool (a < b))
  | plus => onNumbers (fun a b => .int (a + b)) (fun a b => .real (a + b))
  | minus => onNumbers (fun a b => .int (a - b)) (fun a b => .real (a - b))
  | times => onNumbers (fun a b => .int (a * b)) (fun a b => .real (a * b))
  | divide => onReals fun a b => .real (a / b)
  | bitAnd => onVectors fun width a b => some (.bitVec (a &&& b) width)
  | bitOr => onVectors fun width a b => some (.bitVec (a ||| b) width)
  | bitXor => onVectors fun width a b => some (.bitVec (a ^^^ b) width)
  | shiftLeft => onVectors Machine.shiftLeft
  | shiftRight => onVectors Machine.shiftRight

/-- Comparisons cannot be strung together. -/
def ChainOperator.isComparison : ChainOperator → Bool
  | equal | atMost | below => true
  | _ => false

/-- Operators group from the left. -/
def ChainOperator.applyAll (operator : ChainOperator) : List Value → Option Value
  | [] => none
  | first :: rest =>
    if operator.isComparison ∧ rest.length ≠ 1 then none
    else rest.foldlM operator.apply first

def WrappingOperator.apply : WrappingOperator → UInt64 → UInt64 → UInt64
  | add => (· + ·)
  | sub => (· - ·)
  | mul => (· * ·)

def View.apply (strict : Bool) : View → Value → Value → Option Value
  | unsigned => onBits fun a b => some (.bool (if strict then a < b else a ≤ b))
  | signed => compareSigned fun a b => if strict then a < b else a ≤ b

/-- The values of the names in scope; of two with one name the later one comes first. -/
abbrev Environment := List (String × Value)

def both (compute : Value → Value → Option Value) (left right : Option Value) :
    Option Value := do
  compute (← left) (← right)

namespace Expression

mutual

/-- The value of an expression within another one. Implications and choices are written
without parentheses, so they have none there. -/
def operand (environment : Environment) : Expression → Option Value
  | argument identifier => environment.lookup identifier
  | temporary declared => environment.lookup declared.name
  | literal value => some (Machine.literal value)
  | unary operator inner => (operand environment inner).bind operator.apply
  | chain operator inner => (operands environment inner).bind operator.applyAll
  | implication _ _ | conditional _ _ _ => none
  | integerQuotient left right =>
    both (onInts fun a b => .int (Machine.integerQuotient a b))
      (operand environment left) (operand environment right)
  | integerPower base exponent =>
    both (onInts fun a b => .int (Machine.integerPower a b))
      (operand environment base) (operand environment exponent)
  | realPower base exponent =>
    both (onReals fun a b => .real (Float.pow a b))
      (operand environment base) (operand environment exponent)
  | wrapping operator width left right =>
    both (onBits fun a b => some (new width (operator.apply a b)))
      (operand environment left) (operand environment right)
  | unsignedQuotient width left right =>
    both (onBits fun a b => some (new width (Machine.unsignedQuotient a b)))
      (operand environment left) (operand environment right)
  | signedQuotient left right =>
    both (onVectors Machine.signedQuotient) (operand environment left)
      (operand environment right)
  | signedShiftRight left right =>
    both (onVectors Machine.signedShiftRight) (operand environment left)
      (operand environment right)
  | compare view strict left right =>
    both (view.apply strict) (operand environment left) (operand environment right)
  | sameBits left right =>
    both Machine.sameBits (operand environment left) (operand environment right)
  | extract result width low high inner =>
    (operand environment inner).bind
      (Machine.onVector width (Machine.extract result width low high))
  | concat high low result left right =>
    both (onWidths high low (Machine.concat high low result))
      (operand environment left) (operand environment right)

def operands (environment : Environment) : List Expression → Option (List Value)
  | [] => some []
  | first :: rest => do return (← operand environment first) :: (← operands environment rest)

end

def value (environment : Environment) : Expression → Option Value
  | implication premise conclusion =>
    both (onBools fun p q => !p || q) (operand environment premise)
      (operand environment conclusion)
  | conditional condition first second => do
    Machine.choose (← operand environment condition) (← operand environment first)
      (← operand environment second)
  | other => operand environment other

end Expression

/-- A declaration puts a value of the declared type in scope. -/
def Statement.execute (environment : Environment) (statement : Statement) :
    Option Environment := do
  let value ← statement.value.value environment
  if value.native = statement.target.type then
    some ((statement.target.name, value) :: environment)
  else none

/-- Declarations one after the other. -/
def executeAll (statements : List Statement) (environment : Environment) :
    Option Environment :=
  statements.foldlM Statement.execute environment

def argumentOf (row : Row) (column : Column) : Option (String × Value) := do
  let value := Value.ofLiteral (← row.get? column.name)
  if value.native = column.type then some (column.identifier, value) else none

/-- The result of calling the function on the values of a row. -/
def Function.execute (function : Function) (row : Row) : Option Value := do
  let arguments ← function.columns.list.mapM (argumentOf row)
  let environment ← executeAll function.statements arguments
  let result ← function.result.expression.value environment
  if result.native = function.result.type then some result else none

/-- Every name in scope stays in scope, with its value. -/
def Environment.Extends (before after : Environment) : Prop :=
  ∀ name value, before.lookup name = some value → after.lookup name = some value

/-- A value that is known before is the same after. -/
def Persists {α : Type} (before after : Option α) : Prop :=
  ∀ value, before = some value → after = some value

theorem Persists.bind {α β : Type} {before after : Option α} (inner : Persists before after)
    (compute : α → Option β) : Persists (before.bind compute) (after.bind compute) := by
  intro value computed
  obtain ⟨argument, known, result⟩ := Option.bind_eq_some_iff.mp computed
  rw [inner argument known]
  exact result

theorem Persists.both {left right left' right' : Option Value} (first : Persists left left')
    (second : Persists right right') (compute : Value → Value → Option Value) :
    Persists (both compute left right) (both compute left' right') := by
  intro value computed
  obtain ⟨leftValue, leftKnown, rest⟩ := Option.bind_eq_some_iff.mp computed
  obtain ⟨rightValue, rightKnown, result⟩ := Option.bind_eq_some_iff.mp rest
  simp [Code.both, first leftValue leftKnown, second rightValue rightKnown, result]

namespace Expression

variable {before after : Environment}

mutual

theorem operand_extends (extended : before.Extends after) :
    ∀ expression : Expression, Persists (expression.operand before) (expression.operand after)
  | argument identifier => extended identifier
  | temporary declared => extended declared.name
  | literal _ => fun _ known => known
  | unary operator inner => by
    rw [operand, operand]
    exact (operand_extends extended inner).bind operator.apply
  | chain operator inner => by
    rw [operand, operand]
    exact (operands_extends extended inner).bind operator.applyAll
  | implication _ _ | conditional _ _ _ => by
    intro value known
    rw [operand] at known
    cases known
  | integerQuotient left right | integerPower left right | realPower left right
  | wrapping _ _ left right | unsignedQuotient _ left right | signedQuotient left right
  | signedShiftRight left right | compare _ _ left right | sameBits left right
  | concat _ _ _ left right => by
    rw [operand, operand]
    exact (operand_extends extended left).both (operand_extends extended right) _
  | extract _ _ _ _ inner => by
    rw [operand, operand]
    exact (operand_extends extended inner).bind _

theorem operands_extends (extended : before.Extends after) :
    ∀ list : List Expression, Persists (operands before list) (operands after list)
  | [] => fun _ known => known
  | first :: rest => by
    intro values known
    rw [operands] at known ⊢
    obtain ⟨value, firstKnown, more⟩ := Option.bind_eq_some_iff.mp known
    obtain ⟨others, restKnown, made⟩ := Option.bind_eq_some_iff.mp more
    simp [operand_extends extended first value firstKnown,
      operands_extends extended rest others restKnown, ← made]

end

theorem value_extends (extended : before.Extends after) (expression : Expression) :
    Persists (expression.value before) (expression.value after) := by
  cases expression with
  | implication premise conclusion =>
    exact (operand_extends extended premise).both (operand_extends extended conclusion) _
  | conditional condition first second =>
    intro value known
    rw [Expression.value] at known ⊢
    obtain ⟨choice, conditionKnown, more⟩ := Option.bind_eq_some_iff.mp known
    obtain ⟨whenTrue, firstKnown, more⟩ := Option.bind_eq_some_iff.mp more
    obtain ⟨whenFalse, secondKnown, chosen⟩ := Option.bind_eq_some_iff.mp more
    simp only [operand_extends extended condition choice conditionKnown,
      operand_extends extended first whenTrue firstKnown,
      operand_extends extended second whenFalse secondKnown, Option.bind_eq_bind,
      Option.bind_some]
    exact chosen
  | _ => exact operand_extends extended _

end Expression

end Code

end Formulary
