import Formulary.Columns
import Formulary.Row

namespace Formulary

/-- The cell that stands for a literal; a bit-vector shows all its stored bits. -/
def Literal.cell : Literal → String
  | bool value => if value then "1" else "0"
  | int value => toString value.toInt
  | real value => Decimal.plain.text value.toFloat
  | bitVec bits _ => toString bits.toNat

def Row.cell (row : Row) (index : Nat) (column : Column) : Except Error String :=
  match row.get? column.name with
  | none => .error (.cell index column.name .unbound)
  | some value =>
    match value.sort.native with
    | .error (.sort sort fault) => .error (.cell index column.name (.unresolved sort fault))
    | .error error => .error error
    | .ok type =>
      if type = column.type then .ok value.cell
      else .error (.cell index column.name (.type column.type type))

def Row.cells (row : Row) (index : Nat) (columns : Columns) : Except Error (List String) :=
  columns.list.mapM (row.cell index)

/-- Rows as cells, the first of them counted as number `base`. -/
def encodeRows (columns : Columns) : (base : Nat) → List Row → Except Error (List (List String))
  | _, [] => .ok []
  | base, row :: rest => do
    let cells ← row.cells base columns
    let more ← encodeRows columns (base + 1) rest
    return cells :: more

/-- Encoded rows that wait for evaluation. -/
structure Batch where
  rows : List (List String)
deriving DecidableEq

namespace Batch

def empty : Batch := ⟨[]⟩

def size (batch : Batch) : Nat := batch.rows.length

def append (batch : Batch) (rows : List (List String)) : Batch := ⟨batch.rows ++ rows⟩

/-- The pattern file of the batch. -/
def text (batch : Batch) : String :=
  toString batch.size ++ "\n" ++
    String.join (batch.rows.map fun row => String.intercalate " " row ++ "\n")

end Batch

end Formulary
