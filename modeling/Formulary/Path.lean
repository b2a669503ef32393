namespace Formulary

structure Path where
  text : String
deriving DecidableEq

namespace Path

def isAbsolute (path : Path) : Bool := path.text.startsWith "/"

/-- The name of `inner` seen from `outer`. An absolute name stands for itself, and no
second separator follows one that is there. -/
def join (outer inner : Path) : Path :=
  if inner.isAbsolute || outer.text.isEmpty then inner
  else if outer.text.endsWith "/" then ⟨outer.text ++ inner.text⟩
  else ⟨outer.text ++ "/" ++ inner.text⟩

/-- What stands between the separators. -/
def pieces (path : Path) : List String := (path.text.toList.splitOn '/').map .ofList

/-- The names between the separators. -/
def parts (path : Path) : List String := path.pieces.filter (· ≠ "")

/-- A name that ends in a separator can only be that of a directory. -/
def isClosed (path : Path) : Bool := path.text.endsWith "/"

/-- Drops parts, last part first, that name nothing. The first part stays: it is empty
for an absolute name, and a dot there is a name of its own. -/
def dropEmptyParts : List String → List String
  | last :: before :: rest =>
    if last = "" || last = "." then dropEmptyParts (before :: rest) else last :: before :: rest
  | parts => parts

/-- The directory that holds the named file: the empty name for a single part, and none
for the root or for no name at all. -/
def parent? (path : Path) : Option Path :=
  match dropEmptyParts path.pieces.reverse with
  | [] => none
  | [only] => if only = "" then none else some ⟨""⟩
  | _ :: outer =>
    match dropEmptyParts outer with
    | [""] => some ⟨"/"⟩
    | parts => some ⟨String.intercalate "/" parts.reverse⟩

/-- A name and the directories above it, up to a number of them. -/
def upward (path : Path) : Nat → List Path
  | 0 => []
  | count + 1 =>
    match path.parent? with
    | some outer => path :: if outer.text.isEmpty then [] else outer.upward count
    | none => [path]

/-- A name and all directories above it that it spells, from the inside out. -/
def ancestors (path : Path) : List Path := path.upward path.text.length

end Path

end Formulary
