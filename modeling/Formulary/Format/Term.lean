import Formulary.Format.Shape
import Formulary.Operator

namespace Formulary

namespace TermSort

mutual

def toJson : TermSort → Json
  | bool => .ofText "Bool"
  | int => .ofText "Int"
  | real => .ofText "Real"
  | bitVec width => Format.tagged "BitVec" (.ofNat width)
  | array index element => Format.tagged "Array" (.array [index.toJson, element.toJson])
  | function arguments result =>
    Format.tagged "Function" (.array [.array (allToJson arguments), result.toJson])
  | uninterpreted name => Format.tagged "Uninterpreted" (.ofText name)

def allToJson : List TermSort → List Json
  | [] => []
  | sort :: rest => sort.toJson :: allToJson rest

end

def scalar : String → Option TermSort
  | "Bool" => some bool
  | "Int" => some int
  | "Real" => some real
  | _ => none

/-- Each sort inside another is at least two levels deeper, so the nesting allowed
bounds the recursion. -/
def ofJson : Format.Decoder TermSort
  | _, .string (some name) => scalar name
  | _ + 1, .object [(some name, .null)] => scalar name
  | _ + 1, .object [(some "BitVec", content)] => (Format.word32 content).map bitVec
  | _ + 1, .object [(some "Uninterpreted", content)] => (Format.text content).map uninterpreted
  | nesting + 2, .object [(some "Array", .array [index, element])] => do
    return array (← ofJson nesting index) (← ofJson nesting element)
  | nesting + 3, .object [(some "Function", .array [.array arguments, result])] => do
    return function (← arguments.mapM (ofJson nesting)) (← ofJson (nesting + 1) result)
  | _, _ => none

end TermSort

namespace Literal

def toJson : Literal → Json
  | bool value => Format.tagged "Bool" (.bool value)
  | int value => Format.tagged "Int" (.ofInt value.toInt)
  | real value =>
    Format.tagged "Real"
      (.array [.ofInt value.numerator.toInt, .ofInt value.denominator.toInt])
  | bitVec bits width =>
    Format.tagged "BitVec" (.record [("value", .ofNat bits.toNat), ("width", .ofNat width)])

def fraction (nesting : Nat) (document : Json) : Option Literal := do
  match ← Format.list (fun _ => Format.signed) nesting document with
  | [numerator, denominator] => (Ratio.ofParts? numerator denominator).map real
  | _ => none

def vectorFields (nesting : Nat) (document : Json) : Option Literal := do
  match ← Format.fields ["value", "width"] nesting document with
  | (_, [value, width]) => return bitVec (← Format.unsigned value) (← Format.word32 width)
  | _ => none

/-- Bits and fractions are taken as they are; only a zero denominator is refused. -/
def ofJson : Format.Decoder Literal := fun nesting document => do
  let chosen ← Format.choice nesting document
  let content ← chosen.content
  match chosen.name with
  | "Bool" => (Format.boolean content).map bool
  | "Int" => (Format.signed content).map int
  | "Real" => fraction chosen.nesting content
  | "BitVec" => vectorFields chosen.nesting content
  | _ => none

end Literal

namespace Operator

/-- Operators that carry no data, under their names in documents. -/
def bareNames : List (String × Operator) :=
  [("Not", not), ("And", and), ("Or", or), ("Implies", implies), ("Iff", iff), ("Ite", ite),
    ("Equals", equals), ("Plus", plus), ("Minus", minus), ("Times", times), ("Div", div),
    ("Pow", pow), ("Le", le), ("Lt", lt), ("BvNot", bvNot), ("BvAnd", bvAnd), ("BvOr", bvOr),
    ("BvXor", bvXor), ("BvNeg", bvNeg), ("BvAdd", bvAdd), ("BvSub", bvSub), ("BvMul", bvMul),
    ("BvUDiv", bvUDiv), ("BvSDiv", bvSDiv), ("BvURem", bvURem), ("BvSRem", bvSRem),
    ("BvShl", bvShl), ("BvLShr", bvLShr), ("BvAShr", bvAShr), ("BvConcat", bvConcat),
    ("BvULt", bvULt), ("BvULe", bvULe), ("BvSLt", bvSLt), ("BvSLe", bvSLe), ("BvComp", bvComp),
    ("BvToNatural", bvToNat), ("ArraySelect", select), ("ArrayStore", store),
    ("ArrayValue", arrayValue), ("ToReal", toReal)]

/-- The document name of an operator without data. -/
def bareName (operator : Operator) : String :=
  ((bareNames.find? fun entry => entry.2 = operator).map (·.1)).getD ""

def names (list : List String) : Json := .array (list.map Json.ofText)

def toJson : Operator → Json
  | symbol name => Format.tagged "Symbol" (.ofText name)
  | constant value => Format.tagged "Constant" value.toJson
  | bvRotateLeft amount => Format.tagged "BvRol" (.ofNat amount)
  | bvRotateRight amount => Format.tagged "BvRor" (.ofNat amount)
  | bvZeroExtend extra => Format.tagged "BvZExt" (.ofNat extra)
  | bvSignExtend extra => Format.tagged "BvSExt" (.ofNat extra)
  | bvExtract low high =>
    Format.tagged "BvExtract" (.record [("start", .ofNat low), ("end", .ofNat high)])
  | forAll bound => Format.tagged "Forall" (names bound)
  | «exists» bound => Format.tagged "Exists" (names bound)
  | apply function => Format.tagged "Apply" (.ofText function)
  | bare => .ofText bare.bareName

def extractFields (nesting : Nat) (document : Json) : Option Operator := do
  match ← Format.fields ["start", "end"] nesting document with
  | (_, [low, high]) => return bvExtract (← Format.word32 low) (← Format.word32 high)
  | _ => none

def withData (name : String) (content : Json) (nesting : Nat) : Option Operator :=
  match name with
  | "Symbol" => (Format.text content).map symbol
  | "Constant" => (Literal.ofJson nesting content).map constant
  | "BvRol" => (Format.word32 content).map bvRotateLeft
  | "BvRor" => (Format.word32 content).map bvRotateRight
  | "BvZExt" => (Format.word32 content).map bvZeroExtend
  | "BvSExt" => (Format.word32 content).map bvSignExtend
  | "BvExtract" => extractFields nesting content
  | "Forall" => (Format.list (fun _ => Format.text) nesting content).map forAll
  | "Exists" => (Format.list (fun _ => Format.text) nesting content).map «exists»
  | "Apply" => (Format.text content).map apply
  | _ => none

def ofJson : Format.Decoder Operator := fun nesting document => do
  let chosen ← Format.choice nesting document
  match bareNames.lookup chosen.name with
  | some operator => if chosen.isBare then some operator else none
  | none => withData chosen.name (← chosen.content) chosen.nesting

end Operator

end Formulary
