import Formulary.Json

namespace Formulary.Json

inductive Token where
  | openArray
  | closeArray
  | openObject
  | closeObject
  | comma
  | colon
  | null
  | bool (value : Bool)
  | number (value : JsonNumber)
  | string (text : Option String)
deriving DecidableEq

namespace Token

/-- A part of a string: a character, or an escaped 16-bit unit. -/
inductive Piece where
  | char (c : Char)
  | unit (code : Nat)

def hexDigit? (c : Char) : Option Nat :=
  if '0' ≤ c ∧ c ≤ '9' then some (c.toNat - '0'.toNat)
  else if 'a' ≤ c ∧ c ≤ 'f' then some (c.toNat - 'a'.toNat + 10)
  else if 'A' ≤ c ∧ c ≤ 'F' then some (c.toNat - 'A'.toNat + 10)
  else none

def hexUnit? (a b c d : Char) : Option Nat := do
  return (((← hexDigit? a) * 16 + (← hexDigit? b)) * 16 + (← hexDigit? c)) * 16 + (← hexDigit? d)

/-- The characters that a backslash and one letter stand for. -/
def escaped? : Char → Option Char
  | '"' => some '"'
  | '\\' => some '\\'
  | '/' => some '/'
  | 'b' => some '\x08'
  | 'f' => some '\x0c'
  | 'n' => some '\n'
  | 'r' => some '\r'
  | 't' => some '\t'
  | _ => none

/-- The parts of a string up to its closing quote, in reverse, and what follows. -/
def pieces (reversed : List Piece) : List Char → Option (List Piece × List Char)
  | [] => none
  | '"' :: rest => some (reversed, rest)
  | '\\' :: 'u' :: a :: b :: c :: d :: rest =>
    match hexUnit? a b c d with
    | some code => pieces (.unit code :: reversed) rest
    | none => none
  | '\\' :: c :: rest =>
    match escaped? c with
    | some plain => pieces (.char plain :: reversed) rest
    | none => none
  | c :: rest => if c.toNat < 0x20 then none else pieces (.char c :: reversed) rest

/-- The characters of a string's parts, with units that form a surrogate pair joined;
none when a unit of a pair stands alone. -/
def characters (reversed : List Char) : List Piece → Option (List Char)
  | [] => some reversed.reverse
  | .char c :: rest => characters (c :: reversed) rest
  | .unit high :: rest =>
    if high < 0xD800 ∨ 0xE000 ≤ high then characters (Char.ofNat high :: reversed) rest
    else if high < 0xDC00 then
      match rest with
      | .unit low :: more =>
        if 0xDC00 ≤ low ∧ low < 0xE000 then
          let code := 0x10000 + (high - 0xD800) * 0x400 + (low - 0xDC00)
          characters (Char.ofNat code :: reversed) more
        else none
      | _ => none
    else none

/-- The string after an opening quote, and what follows it. -/
def quoted (text : List Char) : Option (Option String × List Char) :=
  (pieces [] text).map fun (reversed, rest) =>
    ((characters [] reversed.reverse).map String.ofList, rest)

def digitsValue (digits : List Char) : Nat :=
  digits.foldl (fun value digit => value * 10 + (digit.toNat - '0'.toNat)) 0

/-- A part of a number that needs at least one digit. -/
def someDigits (text : List Char) : Option (List Char) :=
  if (text.takeWhile Char.isDigit).isEmpty then none else some (text.dropWhile Char.isDigit)

def fraction : List Char → Option (Bool × List Char)
  | '.' :: rest => (someDigits rest).map (true, ·)
  | rest => some (false, rest)

def unsignedExponent : List Char → Option (List Char)
  | '+' :: rest | '-' :: rest => someDigits rest
  | rest => someDigits rest

def exponent : List Char → Option (Bool × List Char)
  | 'e' :: rest | 'E' :: rest => (unsignedExponent rest).map (true, ·)
  | rest => some (false, rest)

/-- A number after its sign, and what follows it. -/
def magnitude (negative : Bool) (text : List Char) : Option (JsonNumber × List Char) := do
  let digits := text.takeWhile Char.isDigit
  if digits.isEmpty || (digits.head? = some '0' && digits.length ≠ 1) then none
  else
    let (hasFraction, rest) ← fraction (text.dropWhile Char.isDigit)
    let (hasExponent, rest) ← exponent rest
    if hasFraction || hasExponent then return (.fractional, rest)
    else return (.integer negative (digitsValue digits), rest)

/-- The first token, which starts right here, and what follows it. -/
def first? : List Char → Option (Token × List Char)
  | '[' :: rest => some (openArray, rest)
  | ']' :: rest => some (closeArray, rest)
  | '\x7b' :: rest => some (openObject, rest)
  | '\x7d' :: rest => some (closeObject, rest)
  | ',' :: rest => some (comma, rest)
  | ':' :: rest => some (colon, rest)
  | '"' :: rest => (quoted rest).map fun (text, rest) => (string text, rest)
  | '-' :: rest => (magnitude true rest).map fun (value, rest) => (number value, rest)
  | 'n' :: 'u' :: 'l' :: 'l' :: rest => some (null, rest)
  | 't' :: 'r' :: 'u' :: 'e' :: rest => some (bool true, rest)
  | 'f' :: 'a' :: 'l' :: 's' :: 'e' :: rest => some (bool false, rest)
  | text => (magnitude false text).map fun (value, rest) => (number value, rest)

def isBlank (c : Char) : Bool := c = ' ' || c = '\t' || c = '\n' || c = '\r'

/-- The tokens of a text, in reverse. Every step takes a character at least, so the
text's length is fuel enough. -/
def scan : (fuel : Nat) → (reversed : List Token) → List Char → Option (List Token)
  | _, reversed, [] => some reversed
  | 0, _, _ :: _ => none
  | fuel + 1, reversed, c :: rest =>
    if isBlank c then scan fuel reversed rest
    else
      match first? (c :: rest) with
      | some (token, rest) => scan fuel (token :: reversed) rest
      | none => none

def ofText? (text : String) : Option (List Token) :=
  let characters := text.toList
  (scan characters.length [] characters).map List.reverse

end Token

end Formulary.Json
