import Formulary.Decimal.Layout
import Formulary.Literal

namespace Formulary

inductive Value where
  | bool (value : Bool)
  | int (value : Int64)
  | real (value : Float)
  | bitVec (bits : UInt64) (width : Nat)
deriving DecidableEq

namespace Value

def vector (bits : UInt64) (width : Nat) : Value :=
  bitVec (bits &&& lowBits width) width

/-- A fraction becomes the quotient of its parts, and a bit-vector loses its extra bits. -/
def ofLiteral : Literal → Value
  | .bool value => bool value
  | .int value => int value
  | .real value => real value.toFloat
  | .bitVec bits width => vector bits width

def bool? : Value → Option Bool
  | bool value => some value
  | _ => none

/-- Equality as formulas test it: doubles compare as numbers, and values of two kinds
or of two widths are never equal. -/
def same : Value → Value → Bool
  | bool left, bool right => left == right
  | int left, int right => left == right
  | real left, real right => Float.beq left right
  | bitVec left v, bitVec right w => left == right && v == w
  | _, _ => false

/-- The cell that stands for the value in pattern and result files. -/
def cell : Value → String
  | bool value => if value then "1" else "0"
  | int value => toString value.toInt
  | real value => Decimal.plain.text value
  | bitVec bits _ => toString bits.toNat

/-- The value with its kind, as diagnostics show it. -/
def inspect : Value → String
  | bool value => if value then "Bool(true)" else "Bool(false)"
  | int value => "Int(" ++ toString value.toInt ++ ")"
  | real value => "Real(" ++ Decimal.programText.text value ++ ")"
  | bitVec bits width =>
    "BitVec \x7b value: " ++ toString bits.toNat ++ ", width: " ++ toString width ++ " \x7d"

def inspectAll (values : List Value) : String :=
  "[" ++ String.intercalate ", " (values.map inspect) ++ "]"

end Value

end Formulary
