import Formulary.Proofs.Code.Parsing
import Formulary.Proofs.Code.Reading

/-! What terms mean. The helpers do what the program defines them to, numbers are read at the
type that they are used at, and how doubles are read is left open. There is no meaning where a
program would have no type or stop with a fault. -/
namespace Formulary.Code

open Machine

/-- What a term stands for. Beside values there are numbers of a word and of half a word, quotients
of words, which may be missing, and numbers of no type yet. -/
inductive Datum where
  | value (value : Value)
  | word (bits : UInt64)
  | half (bits : UInt32)
  | quotient (result : Option UInt64)
  | numeral (number : Nat)

namespace Datum

/-- Where a value is asked for, a number of no type is an integer. -/
def value? : Datum → Option Value
  | value found => some found
  | numeral number => (Ratio.word? number).map .int
  | _ => none

def word? : Datum → Option UInt64
  | word bits => some bits
  | numeral number => if number < Word.size then some (.ofNat number) else none
  | _ => none

def position? : Datum → Option Nat
  | numeral number => some number
  | _ => none

end Datum

def onValues (compute : Value → Value → Option Value) (left right : Datum) : Option Datum := do
  return .value (← compute (← left.value?) (← right.value?))

def numberMeaning (real? : String → Option Float) (text : String) : Option Datum :=
  match Reader.digits? text.toList with
  | some number => some (.numeral number)
  | none => (real? text).map fun number => .value (.real number)

def pathMeaning (environment : Environment) : List Segment → Option Datum
  | [⟨"true", []⟩] => some (.value (.bool true))
  | [⟨"false", []⟩] => some (.value (.bool false))
  | [⟨name, []⟩] => (environment.lookup name).map .value
  | [⟨"i64", []⟩, ⟨"MIN", []⟩] => some (.value (.int Int64.minValue))
  | [⟨"u64", []⟩, ⟨"MAX", []⟩] => some (.word Word.ones)
  | _ => none

/-- Words are only compared by their order. -/
def binaryMeaning : ChainOperator → Datum → Datum → Option Datum
  | .below, .word left, .word right => some (.value (.bool (left < right)))
  | .atMost, .word left, .word right => some (.value (.bool (left ≤ right)))
  | operator, left, right => onValues operator.apply left right

def castMeaning (type : String) (datum : Datum) : Option Datum :=
  match type, datum.value? with
  | "u64", some (.bool holds) => some (.word (if holds then 1 else 0))
  | "u32", some (.int number) => some (.half number.toUInt64.toUInt32)
  | _, _ => none

/-- The functions of the prelude, at the widths that they are instantiated for. -/
inductive Helper where
  | integerQuotient
  | signedQuotient
  | signedShiftRight
  | extract (result width : Nat)
  | concat (high low result : Nat)
  | vector (width : Nat)

namespace Helper

def ofPath? : List Segment → Option Helper
  | [⟨name, []⟩] =>
    [("int_div", integerQuotient), ("bv_sdiv", signedQuotient),
      ("bv_ashr", signedShiftRight)].lookup name
  | [⟨"bv_extract", [result, width]⟩] => do
    return extract (← Reader.digits? result.toList) (← Reader.digits? width.toList)
  | [⟨"bv_concat", [high, low, result]⟩] => do
    return concat (← Reader.digits? high.toList) (← Reader.digits? low.toList)
      (← Reader.digits? result.toList)
  | [⟨"Bv", [width]⟩, ⟨constructor, []⟩] =>
    if constructor ∈ ["new", "from_unsigned"] then (Reader.digits? width.toList).map vector
    else none
  | _ => none

def apply : Helper → List Datum → Option Datum
  | integerQuotient, [left, right] =>
    onValues (onInts fun a b => .int (Machine.integerQuotient a b)) left right
  | signedQuotient, [left, right] => onValues (onVectors Machine.signedQuotient) left right
  | signedShiftRight, [left, right] => onValues (onVectors Machine.signedShiftRight) left right
  | extract result width, [operand, first, last] => do
    let bits := Machine.extract result width (← first.position?) (← last.position?)
    return .value (← onVector width bits (← operand.value?))
  | concat high low result, [left, right] =>
    onValues (onWidths high low (Machine.concat high low result)) left right
  | vector width, [bits] => bits.word?.map fun bits => .value (new width bits)
  | _, _ => none

end Helper

inductive Method where
  | view (view : View)
  | wrapping (operator : WrappingOperator)
  | checkedQuotient
  | unwrapOr
  | wrappingPower
  | realPower

namespace Method

def ofName? (name : String) : Option Method :=
  [("unsigned", view .unsigned), ("signed", view .signed), ("wrapping_add", wrapping .add),
    ("wrapping_sub", wrapping .sub), ("wrapping_mul", wrapping .mul),
    ("checked_div", checkedQuotient), ("unwrap_or", unwrapOr), ("wrapping_pow", wrappingPower),
    ("powf", realPower)].lookup name

def apply : Method → Datum → List Datum → Option Datum
  | view .unsigned, .value (.bitVec bits _), [] => some (.word bits)
  | view .signed, .value (.bitVec bits width), [] =>
    (signed width bits).map fun number => .value (.int number)
  | wrapping operator, .word left, [.word right] => some (.word (operator.apply left right))
  | checkedQuotient, .word left, [.word right] =>
    some (.quotient (if right = 0 then none else some (left / right)))
  | unwrapOr, .quotient result, [.word otherwise] => some (.word (result.getD otherwise))
  | wrappingPower, base, [.half exponent] =>
    match base.value? with
    | some (.int base) => some (.value (.int (Int64.ofInt (base.toInt ^ exponent.toNat))))
    | _ => none
  | realPower, .value (.real base), [.value (.real exponent)] =>
    some (.value (.real (Float.pow base exponent)))
  | _, _, _ => none

end Method

namespace Term

variable (real? : String → Option Float) (environment : Environment)

mutual

def meaning : Term → Option Datum
  | number text => numberMeaning real? text
  | path segments => pathMeaning environment segments
  | unary operator operand => do
    return .value (← operator.apply (← (← operand.meaning).value?))
  | binary operator left right => do
    binaryMeaning operator (← left.meaning) (← right.meaning)
  | cast operand type => operand.meaning.bind (castMeaning type)
  | call function arguments => do
    (← Helper.ofPath? function).apply (← meanings arguments)
  | method receiver name arguments => do
    (← Method.ofName? name).apply (← receiver.meaning) (← meanings arguments)
  | group inner => inner.meaning
  | conditional condition first second => do
    return .value (← choose (← (← condition.meaning).value?) (← (← first.meaning).value?)
      (← (← second.meaning).value?))

def meanings : List Term → Option (List Datum)
  | [] => some []
  | first :: rest => do return (← first.meaning) :: (← meanings rest)

end

end Term

end Formulary.Code
