import Formulary.Ratio
import Formulary.TermSort
import Formulary.Word

namespace Formulary

/-- The low `width` bits of a word, all of them from 64 on. -/
def lowBits (width : Nat) : UInt64 :=
  if width < 64 then ((1 : UInt64) <<< width.toUInt64) - 1 else Word.ones

inductive Literal where
  | bool (value : Bool)
  | int (value : Int64)
  | real (value : Ratio)
  | bitVec (bits : UInt64) (width : Nat)
deriving DecidableEq, Hashable

namespace Literal

/-- A bit-vector cut to its width. -/
def vector (bits : UInt64) (width : Nat) : Literal :=
  bitVec (bits &&& lowBits width) width

/-- A quotient of two integers in lowest terms. -/
def quotient? (numerator denominator : Int64) : Option Literal :=
  (Ratio.lowest? numerator denominator).map real

def sort : Literal → TermSort
  | bool _ => .bool
  | int _ => .int
  | real _ => .real
  | bitVec _ width => .bitVec width

def bool? : Literal → Option Bool
  | bool value => some value
  | _ => none

/-- Literals are the same when their sorts and numbers agree: fractions compare as
numbers, bit-vectors by all their stored bits. -/
def same : Literal → Literal → Bool
  | real left, real right => left.same right
  | left, right => left = right

def binary (bits : UInt64) (width : Nat) : String :=
  let digits := Nat.toDigits 2 bits.toNat
  String.ofList (List.replicate (width - digits.length) '0' ++ digits)

/-- The most digits that a written number is filled up to. -/
def maxDigits : Nat := 65535

/-- The written form; a bit-vector shows at least as many binary digits as it is wide, and
has no written form if these are too many. -/
def text? : Literal → Option String
  | bool value => some (if value then "true" else "false")
  | int value => some (toString value.toInt)
  | real value => some value.text
  | bitVec bits width =>
    if width ≤ maxDigits then some ("#b" ++ binary bits width) else none

end Literal

end Formulary
