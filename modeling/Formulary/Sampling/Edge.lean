import Formulary.Columns
import Formulary.Row

namespace Formulary.Sampling

/-- Leaves one of each run of equal items. -/
def dropRepeats {α : Type} [DecidableEq α] : List α → List α
  | first :: second :: rest =>
    if first = second then dropRepeats (second :: rest)
    else first :: dropRepeats (second :: rest)
  | short => short

def vectorEdges (width : Nat) : List Literal :=
  let all := lowBits width
  let sign := (1 : UInt64) <<< (width - 1).toUInt64
  (dropRepeats [0, 1, all, sign, (sign - 1) &&& all]).map fun bits => .vector bits width

/-- Zero, one, all ones and the signed extremes, as far as the type has them. -/
def edgeValues : NativeType → List Literal
  | .bool => [.bool false, .bool true]
  | .int => [.int 0, .int 1, .int (-1), .int Int64.maxValue, .int Int64.minValue]
  | .real => [.real (.whole 0), .real (.whole 1), .real (.whole (-1)), .real ⟨1, 2, by decide⟩]
  | .bitVec width => vectorEdges width

/-- Every column at one slot; shorter lists start over. -/
def slotRow (columns : List Column) (slot : Nat) : Row :=
  Row.ofList <| columns.filterMap fun column =>
    let values := edgeValues column.type
    values[slot % values.length]?.map fun value => (column.name, value)

def slotCount (columns : List Column) : Nat :=
  (columns.map fun column => (edgeValues column.type).length).foldl max 0

/-- Adds a row unless the same row is there. -/
def addRow (rows : List Row) (row : Row) : List Row :=
  if rows.any (·.same row) then rows else rows ++ [row]

/-- The rows that pair values of the first two columns, all others at their first slot. -/
def pairRows : List Column → List Row
  | first :: second :: rest =>
    let base := slotRow (first :: second :: rest) 0
    (edgeValues first.type).flatMap fun one =>
      (edgeValues second.type).map fun other =>
        (base.insert first.name one).insert second.name other
  | _ => []

def edgeRows (columns : List Column) : List Row :=
  (pairRows columns).foldl addRow ((List.range (slotCount columns)).map (slotRow columns))

end Formulary.Sampling
