import Formulary.Columns
import Std.Data.HashMap

namespace Formulary

structure Registry where
  columns : Columns
  byName : Std.HashMap String Nat
  byIdentifier : Std.HashMap String Nat

namespace Registry

def empty : Registry := ⟨.empty, ∅, ∅⟩

/-- Puts a column at the end, and its slot into both tables. -/
def add (registry : Registry) (column : Column) : Registry where
  columns := ⟨registry.columns.list ++ [column]⟩
  byName := registry.byName.insert column.name registry.columns.list.length
  byIdentifier := registry.byIdentifier.insert column.identifier registry.columns.list.length

/-- The identifier of a symbol, or why it gets none, with the registry that is left. A symbol
without a column gets one at the end. -/
def register (registry : Registry) (name : String) (type : NativeType) :
    Except Error String × Registry :=
  match registry.byName[name]? with
  | some slot =>
    match registry.columns.list[slot]? with
    | none => (.error (.dangling slot), registry)
    | some column =>
      if column.type = type then (.ok column.identifier, registry)
      else (.error (.typeClash name column.type type column.identifier), registry)
  | none =>
    let identifier := identifierOf name
    match registry.byIdentifier[identifier]? with
    | some slot =>
      match registry.columns.list[slot]? with
      | none => (.error (.dangling slot), registry)
      | some column => (.error (.nameClash column.name name identifier), registry)
    | none => (.ok identifier, registry.add ⟨name, identifier, type⟩)

end Registry

end Formulary
