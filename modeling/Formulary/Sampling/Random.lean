import Formulary.Columns
import Formulary.Row
import Formulary.Sampling.Stream

namespace Formulary

namespace Sampling

structure RandomConfig where
  count : Nat
  least : Int64
  greatest : Int64
  maxDenominator : Int64

namespace RandomConfig

def default : RandomConfig := ⟨10, -1000, 1000, 16⟩

/-- Sets the range of integers, whichever bound comes first. -/
def withRange (config : RandomConfig) (one other : Int64) : RandomConfig :=
  { config with least := min one other, greatest := max one other }

end RandomConfig

/-- An integer between two bounds. A word is scaled to the size of the range; where the
part that is cut off could have carried, a second word decides. -/
def between (least greatest : Int64) : Draw Int64 := do
  let span := (greatest - least + 1).toUInt64
  let word ← draw64
  if span = 0 then return word.toInt64
  else
    let product := word.toNat * span.toNat
    let scaled := product / Word.size
    let rest := product % Word.size
    let offset ←
      if Word.size - span.toNat < rest then do
        let more ← draw64
        let carry := more.toNat * span.toNat / Word.size
        pure (if Word.size ≤ rest + carry then scaled + 1 else scaled)
      else pure scaled
    return least + (UInt64.ofNat offset).toInt64

/-- A literal of a type. For a fraction the denominator comes first; it is positive, so
there always is a quotient and the zero is never used. -/
def literal (config : RandomConfig) : NativeType → Draw Literal
  | .bool => do return .bool ((← draw32) >>> 31 = 1)
  | .int => do return .int (← between config.least config.greatest)
  | .real => do
    let denominator ← between 1 (max config.maxDenominator 1)
    let numerator ← between config.least config.greatest
    return .real ((Ratio.lowest? numerator denominator).getD (Ratio.whole 0))
  | .bitVec width => do return .vector (← draw64) width

/-- A literal for each column, drawn from left to right. -/
def bindings (config : RandomConfig) : List Column → Draw (List (String × Literal))
  | [] => return []
  | column :: rest => do
    let value ← literal config column.type
    let more ← bindings config rest
    return (column.name, value) :: more

def rows (config : RandomConfig) (columns : List Column) : (count : Nat) → Draw (List Row)
  | 0 => return []
  | count + 1 => do
    let row := Row.ofList (← bindings config columns)
    let more ← rows config columns count
    return row :: more

/-- As many rows as asked for, from the start of the key's stream. -/
def randomRows (config : RandomConfig) (columns : List Column) (key : Key) : List Row :=
  (rows config columns config.count ⟨key, 0⟩).1

end Sampling

end Formulary
