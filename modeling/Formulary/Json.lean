/-! JSON documents as trees. Members keep their order and repeated keys, numbers their
kind, and a string that escapes spell out of half a surrogate pair is text-less. -/
namespace Formulary

/-- A number without fraction and exponent, signed even when zero, or any other. -/
inductive JsonNumber where
  | integer (negative : Bool) (magnitude : Nat)
  | fractional
deriving DecidableEq

inductive Json where
  | null
  | bool (value : Bool)
  | number (value : JsonNumber)
  | string (text : Option String)
  | array (items : List Json)
  | object (members : List (Option String × Json))

namespace Json

def ofNat (n : Nat) : Json := number (.integer false n)

def ofInt (i : Int) : Json := number (.integer (i < 0) i.natAbs)

def ofText (text : String) : Json := string (some text)

def record (members : List (String × Json)) : Json :=
  object (members.map fun member => (some member.1, member.2))

end Json

end Formulary
