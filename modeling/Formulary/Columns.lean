import Formulary.Error

namespace Formulary

structure Column where
  name : String
  identifier : String
  type : NativeType
deriving DecidableEq

/-- A name with every character but ASCII letters, digits and underscores replaced by an
underscore. The start keeps identifiers apart from all other names in a program. -/
def identifierOf (name : String) : String :=
  "v_" ++ name.map fun c => if c.isAlphanum || c = '_' then c else '_'

structure Columns where
  list : List Column
deriving DecidableEq

namespace Columns

def empty : Columns := ⟨[]⟩

def named? (columns : Columns) (name : String) : Option Column :=
  columns.list.find? fun column => column.name = name

def identified? (columns : Columns) (identifier : String) : Option Column :=
  columns.list.find? fun column => column.identifier = identifier

/-- The identifier of a symbol, which gets a new column at the end if it has none. One
name cannot have two types, nor two names one identifier. -/
def register (columns : Columns) (name : String) (type : NativeType) :
    Except Error (String × Columns) :=
  match columns.named? name with
  | some column =>
    if column.type = type then .ok (column.identifier, columns)
    else .error (.typeClash name column.type type column.identifier)
  | none =>
    let identifier := identifierOf name
    match columns.identified? identifier with
    | some column => .error (.nameClash column.name name identifier)
    | none => .ok (identifier, ⟨columns.list ++ [⟨name, identifier, type⟩]⟩)

end Columns

end Formulary
