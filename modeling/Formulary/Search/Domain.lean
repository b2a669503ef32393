import Formulary.Error
import Formulary.Row

namespace Formulary.Search

structure Domain where
  name : String
  values : List Literal
deriving DecidableEq

/-- The widest bit-vectors whose values are listed. -/
def maxListedWidth : Nat := 12

/-- The largest number of points that is counted. -/
def maxPoints : Nat := 0xFFFFFFFFFFFFFFFF

namespace Domain

/-- The integers between two bounds, none if they are out of order. -/
def ints (name : String) (least greatest : Int64) : Domain :=
  ⟨name, (List.range (greatest.toInt - least.toInt + 1).toNat).map fun (step : Nat) =>
    .int (Int64.ofInt (least.toInt + step))⟩

def full (name : String) : TermSort → Except Error Domain
  | .bool => .ok ⟨name, [.bool false, .bool true]⟩
  | .bitVec width =>
    if 1 ≤ width ∧ width ≤ maxListedWidth then
      .ok ⟨name, (List.range (Nat.pow 2 width)).map fun value => .vector (UInt64.ofNat value) width⟩
    else .error (.sort (.bitVec width) .notEnumerable)
  | other => .error (.sort other .notEnumerable)

end Domain

/-- The number of points, as far as it is counted. -/
def productSize (domains : List Domain) : Nat :=
  domains.foldl (fun size domain => min (size * domain.values.length) maxPoints) 1

/-- Binds variables from the last one on; each takes its digit of the index. -/
def pointFrom : (reversed : List Domain) → (index : Nat) → Row → Row
  | [], _, row => row
  | domain :: rest, index, row =>
    let count := domain.values.length
    match domain.values[index % count]? with
    | some value => pointFrom rest (index / count) (row.insert domain.name value)
    | none => pointFrom rest (index / count) row

def point (domains : List Domain) (index : Nat) : Row :=
  pointFrom domains.reverse index Row.empty

end Formulary.Search
