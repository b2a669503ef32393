import Formulary.Json.Token

namespace Formulary.Json

namespace Token

def hexChar (n : Nat) : Char := Nat.digitChar (n % 16)

def escape (c : Char) : List Char :=
  match c with
  | '"' => ['\\', '"']
  | '\\' => ['\\', '\\']
  | '\x08' => ['\\', 'b']
  | '\x0c' => ['\\', 'f']
  | '\n' => ['\\', 'n']
  | '\r' => ['\\', 'r']
  | '\t' => ['\\', 't']
  | other =>
    if other.toNat < 0x20 then
      ['\\', 'u', '0', '0', hexChar (other.toNat / 16), hexChar other.toNat]
    else [other]

/-- A string in quotes; one without a text is written as half a surrogate pair. -/
def quotedText : Option String → List Char
  | some text => '"' :: (text.toList.flatMap escape ++ ['"'])
  | none => "\"\\ud800\"".toList

def numberText : JsonNumber → List Char
  | .integer negative magnitude =>
    (if negative then ['-'] else []) ++ Nat.toDigits 10 magnitude
  | .fractional => "0.5".toList

def text : Token → List Char
  | openArray => ['[']
  | closeArray => [']']
  | openObject => ['\x7b']
  | closeObject => ['\x7d']
  | comma => [',']
  | colon => [':']
  | null => "null".toList
  | bool value => if value then "true".toList else "false".toList
  | number value => numberText value
  | string value => quotedText value

end Token

mutual

def tokens : Json → List Token
  | null => [.null]
  | bool b => [.bool b]
  | number n => [.number n]
  | string s => [.string s]
  | array list => .openArray :: (itemTokens list ++ [.closeArray])
  | object list => .openObject :: (memberTokens list ++ [.closeObject])

def itemTokens : List Json → List Token
  | [] => []
  | [only] => only.tokens
  | first :: second :: rest => first.tokens ++ .comma :: itemTokens (second :: rest)

def memberTokens : List (Option String × Json) → List Token
  | [] => []
  | [(key, only)] => .string key :: .colon :: only.tokens
  | (key, first) :: second :: rest =>
    .string key :: .colon :: (first.tokens ++ .comma :: memberTokens (second :: rest))

end

def text (document : Json) : String :=
  String.ofList (document.tokens.flatMap Token.text)

end Formulary.Json
