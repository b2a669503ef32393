import Formulary.Json
import Formulary.Word

namespace Formulary.Format

/-- How many arrays and objects may stand inside one another. -/
def maxNesting : Nat := 127

/-- A value at a given remaining nesting, if the document has its form. -/
abbrev Decoder (α : Type) := Nat → Json → Option α

/-- Opens an array or object. -/
def descend : Nat → Option Nat
  | 0 => none
  | nesting + 1 => some nesting

def natural (limit : Nat) : Json → Option Nat
  | .number (.integer false magnitude) => if magnitude < limit then some magnitude else none
  | _ => none

/-- A number of half a word. -/
def word32 (document : Json) : Option Nat := natural Word.halfSize document

def unsigned (document : Json) : Option UInt64 :=
  (natural Word.size document).map UInt64.ofNat

/-- A negative zero is no integer. -/
def signed : Json → Option Int64
  | .number (.integer false magnitude) =>
    if magnitude < 0x8000000000000000 then some (Int64.ofInt magnitude) else none
  | .number (.integer true magnitude) =>
    if 0 < magnitude ∧ magnitude ≤ 0x8000000000000000 then some (Int64.ofInt (-magnitude)) else none
  | _ => none

def boolean : Json → Option Bool
  | .bool value => some value
  | _ => none

def text : Json → Option String
  | .string value => value
  | _ => none

def list {α : Type} (item : Decoder α) : Decoder (List α) := fun nesting document => do
  let inner ← descend nesting
  match document with
  | .array items => items.mapM (item inner)
  | _ => none

/-- The member with a given key, which must not be repeated. -/
def member (members : List (Option String × Json)) (name : String) : Option Json :=
  match members.filter fun entry => entry.1 = some name with
  | [(_, value)] => some value
  | _ => none

/-- The fields of a structure, written as an array of all of them in order, or as an
object in any order with unknown members skipped. -/
def fields (names : List String) (nesting : Nat) : Json → Option (Nat × List Json)
  | .array items => do
    let inner ← descend nesting
    if items.length = names.length then some (inner, items) else none
  | .object members => do
    let inner ← descend nesting
    if members.all fun entry => entry.1.isSome then
      return (inner, ← names.mapM (member members))
    else none
  | _ => none

/-- A choice: a bare name, or an object with the name as its only key. -/
structure Choice where
  name : String
  content : Option Json
  nesting : Nat

def choice (nesting : Nat) : Json → Option Choice
  | .string (some name) => some ⟨name, none, nesting⟩
  | .object [(some name, content)] => do
    let inner ← descend nesting
    return ⟨name, some content, inner⟩
  | _ => none

/-- A choice without data may also carry a null. -/
def Choice.isBare (chosen : Choice) : Bool :=
  match chosen.content with
  | none | some .null => true
  | _ => false

/-- A choice with data. -/
def tagged (name : String) (content : Json) : Json := .record [(name, content)]

end Formulary.Format
