import Formulary.Decimal.Shortest

/-! How a double is written out. A layout fixes when an exponent is used and whether a
whole number keeps a point; the digits are always the shortest. -/
namespace Formulary.Decimal

/-- `positional e` says that numbers from `10^e` to below `10^(e+1)` get no exponent. -/
structure Layout where
  wholePoint : Bool
  positional : Int → Bool

/-- Never an exponent, and nothing after a whole number. -/
def plain : Layout := ⟨false, fun _ => true⟩

/-- A whole number shows one decimal place; an exponent below a ten-thousandth and
from ten quadrillions on. -/
def programText : Layout := ⟨true, fun e => -4 ≤ e && e < 16⟩

/-- The sign bit is set, which also one zero has. -/
def isNegative (x : Float) : Bool := 0x8000000000000000 ≤ x.toBits

namespace Layout

def zeros (count : Nat) : List Char := List.replicate count '0'

def unsigned (layout : Layout) (x : Shortest) : List Char :=
  let digits := Nat.toDigits 10 x.digits
  let lead : Int := digits.length + x.exponent - 1
  if layout.positional lead then
    if 0 ≤ x.exponent then
      digits ++ zeros x.exponent.toNat ++ if layout.wholePoint then ".0".toList else []
    else if 0 ≤ lead then
      digits.take (lead + 1).toNat ++ '.' :: digits.drop (lead + 1).toNat
    else
      '0' :: '.' :: zeros (-1 - lead).toNat ++ digits
  else
    let mantissa := match digits with
      | first :: second :: rest => first :: '.' :: second :: rest
      | short => short
    mantissa ++ 'e' :: (toString lead).toList

/-- The text of a double without its sign. -/
def magnitude (layout : Layout) (x : Float) : String :=
  match Double.ofBits? x.toBits with
  | some finite => String.ofList (layout.unsigned finite.shortest)
  | none => if x.isInf then "inf" else if layout.wholePoint then "0.0" else "0"

/-- The text of any double: zeros and infinities show their sign, a NaN has none. -/
def text (layout : Layout) (x : Float) : String :=
  if x.isNaN then "NaN"
  else (if isNegative x then "-" else "") ++ layout.magnitude x

end Layout

end Formulary.Decimal
