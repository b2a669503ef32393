import Formulary.Error
import Formulary.Row
import Formulary.Word

namespace Formulary

namespace Value

def int? : Value → Option Int64
  | int value => some value
  | _ => none

def real? : Value → Option Float
  | real value => some value
  | _ => none

/-- Truth values, at least one. -/
def bools? (values : List Value) : Option (List Bool) :=
  if values.isEmpty then none else values.mapM bool?

/-- Combines integers from the left, at least one. -/
def foldInts? (step : Int64 → Int64 → Int64) (values : List Value) : Option Value :=
  match values.mapM int? with
  | some (first :: rest) => some (int (rest.foldl step first))
  | _ => none

/-- Combines doubles from the left, at least one. -/
def foldReals? (step : Float → Float → Float) (values : List Value) : Option Value :=
  match values.mapM real? with
  | some (first :: rest) => some (real (rest.foldl step first))
  | _ => none

def bitsOfWidth? (width : Nat) : List Value → Option (List UInt64)
  | [] => some []
  | bitVec bits found :: rest =>
    if found = width then (bitsOfWidth? width rest).map (bits :: ·) else none
  | _ :: _ => none

/-- Vectors of one width, at least one: the first, the others, and the width. -/
def vectors? : List Value → Option (UInt64 × List UInt64 × Nat)
  | bitVec bits width :: rest =>
    (bitsOfWidth? width rest).map fun others => (bits, others, width)
  | _ => none

end Value

/-- A node's operator with the values of its children. -/
structure Application where
  operator : Operator
  arguments : List Value

namespace Application

/-- The values do not suit the operator. -/
def refuse (application : Application) : Except Error Value :=
  .error (.graph (.inapplicable application.operator application.arguments))

def expect (application : Application) : Option Value → Except Error Value
  | some value => .ok value
  | none => application.refuse

/-- Goes on only with the given number of values. -/
def withArity (application : Application) (count : Nat) (value : Except Error Value) :
    Except Error Value :=
  if application.arguments.length = count then value
  else .error (.graph (.arity application.operator count application.arguments.length))

/-- A word operation that has no room fails for the whole evaluation. -/
def word (width : Nat) : Option UInt64 → Except Error Value
  | some bits => .ok (.vector bits width)
  | none => .error .overflow

def onVector (application : Application) (compute : UInt64 → Nat → Except Error Value) :
    Except Error Value :=
  application.withArity 1 <|
    match application.arguments with
    | [.bitVec bits width] => compute bits width
    | _ => application.refuse

/-- An operator on two vectors of one width. -/
def onVectors (application : Application)
    (compute : UInt64 → UInt64 → Nat → Except Error Value) : Except Error Value :=
  application.withArity 2 <|
    match application.arguments with
    | [.bitVec left v, .bitVec right w] =>
      if v = w then compute left right v else application.refuse
    | _ => application.refuse

/-- A bitwise operator on any number of vectors of one width. -/
def bitwise (application : Application) (step : UInt64 → UInt64 → UInt64) :
    Except Error Value :=
  application.expect <|
    (Value.vectors? application.arguments).map fun (first, rest, width) =>
      .vector (rest.foldl step first) width

/-- An operator that acts alike on integers and on doubles, from the left. -/
def arithmetic (application : Application) (ints : Int64 → Int64 → Int64)
    (reals : Float → Float → Float) : Except Error Value :=
  application.expect <|
    (Value.foldInts? ints application.arguments).orElse fun _ =>
      Value.foldReals? reals application.arguments

/-- A comparison of two integers or of two doubles; none holds of a NaN. -/
def compare (application : Application) (ints : Int64 → Int64 → Bool)
    (reals : Float → Float → Bool) : Except Error Value :=
  application.withArity 2 <|
    match application.arguments with
    | [.int left, .int right] => .ok (.bool (ints left right))
    | [.real left, .real right] => .ok (.bool (reals left right))
    | _ => application.refuse

/-- A comparison of two vectors of one width as two's complement numbers. -/
def compareSigned (application : Application) (holds : Int64 → Int64 → Bool) :
    Except Error Value :=
  application.onVectors fun left right width =>
    match Word.signed? left width, Word.signed? right width with
    | some left, some right => .ok (.bool (holds left right))
    | _, _ => .error .overflow

def negate (application : Application) : Except Error Value :=
  match application.arguments with
  | [.int value] => .ok (.int (-value))
  | [.real value] => .ok (.real (-value))
  | _ => application.refuse

/-- Bits `low` to `high` of a vector, bit 0 being the least significant. -/
def extract (application : Application) (low high : Nat) : Except Error Value :=
  application.onVector fun bits width =>
    if high < low ∨ width ≤ high then application.refuse
    else if low < 64 then .ok (.vector (bits >>> low.toUInt64) (high - low + 1))
    else .error .overflow

/-- The first vector becomes the more significant half. -/
def concat (application : Application) : Except Error Value :=
  application.withArity 2 <|
    match application.arguments with
    | [.bitVec high v, .bitVec low w] =>
      if Word.halfSize ≤ v + w then .error .overflow
      else if 64 < v + w then application.refuse
      else .ok (.vector ((if 64 ≤ w then 0 else high <<< w.toUInt64) ||| low) (v + w))
    | _ => application.refuse

/-- The value of an operator other than a symbol. -/
def value (application : Application) : Except Error Value :=
  match application.operator with
  | .constant literal => .ok (.ofLiteral literal)
  | .not =>
    application.withArity 1 <|
      match application.arguments with
      | [.bool p] => .ok (.bool !p)
      | _ => application.refuse
  | .and =>
    application.expect <|
      (Value.bools? application.arguments).map fun values => .bool (values.all id)
  | .or =>
    application.expect <|
      (Value.bools? application.arguments).map fun values => .bool (values.any id)
  | .implies =>
    application.withArity 2 <|
      match application.arguments with
      | [.bool p, .bool q] => .ok (.bool (!p || q))
      | _ => application.refuse
  | .iff | .equals =>
    application.withArity 2 <|
      match application.arguments with
      | [left, right] => .ok (.bool (left.same right))
      | _ => application.refuse
  | .ite =>
    application.withArity 3 <|
      match application.arguments with
      | [.bool condition, first, second] => .ok (if condition then first else second)
      | _ => application.refuse
  | .plus => application.arithmetic (· + ·) (· + ·)
  | .minus =>
    if application.arguments.length = 1 then application.negate
    else application.arithmetic (· - ·) (· - ·)
  | .times => application.arithmetic (· * ·) (· * ·)
  | .div => application.arithmetic Word.divEuclid (· / ·)
  | .pow =>
    application.withArity 2 <|
      match application.arguments with
      | [.int base, .int exponent] => .ok (.int (Word.power base exponent))
      | [.real base, .real exponent] => .ok (.real (Float.pow base exponent))
      | _ => application.refuse
  | .le => application.compare (fun a b => a ≤ b) (fun a b => a ≤ b)
  | .lt => application.compare (fun a b => a < b) (fun a b => a < b)
  | .bvNot => application.onVector fun bits width => .ok (.vector (~~~bits) width)
  | .bvNeg => application.onVector fun bits width => .ok (.vector (-bits) width)
  | .bvAnd => application.bitwise (· &&& ·)
  | .bvOr => application.bitwise (· ||| ·)
  | .bvXor => application.bitwise (· ^^^ ·)
  | .bvShl => application.onVectors fun a b width => word width (Word.shiftLeft? a b width)
  | .bvLShr => application.onVectors fun a b width => word width (Word.shiftRight? a b width)
  | .bvAShr =>
    application.onVectors fun a b width => word width (Word.shiftRightSigned? a b width)
  | .bvAdd => application.onVectors fun a b width => .ok (.vector (a + b) width)
  | .bvSub => application.onVectors fun a b width => .ok (.vector (a - b) width)
  | .bvMul => application.onVectors fun a b width => .ok (.vector (a * b) width)
  | .bvUDiv => application.onVectors fun a b width => .ok (.vector (Word.divUnsigned a b) width)
  | .bvSDiv => application.onVectors fun a b width => word width (Word.divSigned? a b width)
  | .bvULt => application.onVectors fun a b _ => .ok (.bool (a < b))
  | .bvULe => application.onVectors fun a b _ => .ok (.bool (a ≤ b))
  | .bvSLt => application.compareSigned fun a b => a < b
  | .bvSLe => application.compareSigned fun a b => a ≤ b
  | .bvComp => application.onVectors fun a b _ => .ok (.vector (if a = b then 1 else 0) 1)
  | .bvExtract low high => application.extract low high
  | .bvConcat => application.concat
  | other => .error (.unsupported other)

end Application

def Row.value (row : Row) (index : Nat) (name : String) (sort : TermSort) :
    Except Error Value :=
  match row.get? name with
  | none => .error (.cell index name .unbound)
  | some bound =>
    if bound.sort = sort then .ok (.ofLiteral bound)
    else .error (.cell index name (.sort sort bound.sort))

/-- The value of a node, given its children's. -/
def Node.value (node : Node) (row : Row) (index : Nat) (arguments : List Value) :
    Except Error Value :=
  match node.operator with
  | .symbol name => row.value index name node.sort
  | operator => Application.value ⟨operator, arguments⟩

end Formulary
