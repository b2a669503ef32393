import Formulary.Format.Term
import Formulary.Formula
import Formulary.Json.Reader
import Formulary.Json.Writer
import Formulary.Row

namespace Formulary

namespace NodeId

def toJson (id : NodeId) : Json := .ofNat id

def ofJson (document : Json) : Option NodeId := (Format.word32 document).map ofPosition

end NodeId

namespace Node

def toJson (node : Node) : Json :=
  .record [("op", node.operator.toJson), ("children", .array (node.children.map NodeId.toJson)),
    ("sort", node.sort.toJson)]

def ofJson : Format.Decoder Node := fun nesting document => do
  match ← Format.fields ["op", "children", "sort"] nesting document with
  | (inner, [operator, children, sort]) =>
    return ⟨← Operator.ofJson inner operator,
      ← Format.list (fun _ => NodeId.ofJson) inner children, ← TermSort.ofJson inner sort⟩
  | _ => none

end Node

namespace FormulaFile

def toJson (file : FormulaFile) : Json :=
  .record [("nodes", .array (file.nodes.map Node.toJson)), ("root", file.root.toJson)]

def ofJson : Format.Decoder FormulaFile := fun nesting document => do
  match ← Format.fields ["nodes", "root"] nesting document with
  | (inner, [nodes, root]) =>
    return ⟨← Format.list Node.ofJson inner nodes, ← NodeId.ofJson root⟩
  | _ => none

def text (file : FormulaFile) : String := file.toJson.text

end FormulaFile

namespace Row

def toJson (row : Row) : Json :=
  .record (row.entries.map fun entry => (entry.1, entry.2.toJson))

def binding (nesting : Nat) (member : Option String × Json) :
    Option (String × Literal) := do
  return (← member.1, ← Literal.ofJson nesting member.2)

def ofJson : Format.Decoder Row := fun nesting document => do
  let inner ← Format.descend nesting
  match document with
  | .object members => return ofList (← members.mapM (binding inner))
  | _ => none

def text (row : Row) : String := row.toJson.text

end Row

namespace Format

def decode {α : Type} (decoder : Decoder α) (document : Json) : Except Error α :=
  match decoder maxNesting document with
  | some value => .ok value
  | none => .error .undecodable

/-- A text that must be a document of the form of the decoder. -/
def decodeText {α : Type} (decoder : Decoder α) (text : String) : Except Error α :=
  match Json.parse? text with
  | some document => decode decoder document
  | none => .error .undecodable

def formula (document : Json) : Except Error Formula := do
  Formula.load (← decode FormulaFile.ofJson document)

def formulaText (text : String) : Except Error Formula := do
  Formula.load (← decodeText FormulaFile.ofJson text)

def rows : Decoder (List Row) := list Row.ofJson

end Format

end Formulary
