import Formulary.Json.Token

namespace Formulary.Json

mutual

/-- The value at the front of the tokens, and the tokens after it. Calls nest no deeper
than the value has tokens, so their number is fuel enough. -/
def value : (fuel : Nat) → List Token → Option (Json × List Token)
  | 0, _ => none
  | fuel + 1, tokens =>
    match tokens with
    | .null :: rest => some (null, rest)
    | .bool b :: rest => some (bool b, rest)
    | .number n :: rest => some (number n, rest)
    | .string s :: rest => some (string s, rest)
    | .openArray :: .closeArray :: rest => some (array [], rest)
    | .openArray :: rest => (items fuel rest).map fun (list, rest) => (array list, rest)
    | .openObject :: .closeObject :: rest => some (object [], rest)
    | .openObject :: rest => (members fuel rest).map fun (list, rest) => (object list, rest)
    | _ => none

def items : (fuel : Nat) → List Token → Option (List Json × List Token)
  | 0, _ => none
  | fuel + 1, tokens =>
    match value fuel tokens with
    | some (first, .closeArray :: rest) => some ([first], rest)
    | some (first, .comma :: rest) =>
      (items fuel rest).map fun (more, rest) => (first :: more, rest)
    | _ => none

def members : (fuel : Nat) → List Token → Option (List (Option String × Json) × List Token)
  | 0, _ => none
  | fuel + 1, tokens =>
    match tokens with
    | .string key :: .colon :: tokens =>
      match value fuel tokens with
      | some (first, .closeObject :: rest) => some ([(key, first)], rest)
      | some (first, .comma :: rest) =>
        (members fuel rest).map fun (more, rest) => ((key, first) :: more, rest)
      | _ => none
    | _ => none

end

/-- The document of a text, which must hold one value and nothing else. -/
def parse? (text : String) : Option Json := do
  let tokens ← Token.ofText? text
  match value tokens.length tokens with
  | some (document, []) => some document
  | _ => none

end Formulary.Json
