import Formulary.Decimal.Layout
import Formulary.Literal
import Formulary.NativeType

namespace Formulary.Code

/-- A value that the program itself declares; numbers run separately for each type. -/
structure Temporary where
  type : NativeType
  number : Nat
deriving DecidableEq

def Temporary.name (temporary : Temporary) : String :=
  temporary.type.temporaryStem ++ toString temporary.number

inductive UnaryOperator where
  | not
  | negate
deriving DecidableEq

def UnaryOperator.text : UnaryOperator → String
  | not => "!"
  | negate => "-"

/-- Operators written between their operands. -/
inductive ChainOperator where
  | and
  | or
  | equal
  | atMost
  | below
  | plus
  | minus
  | times
  | divide
  | bitAnd
  | bitOr
  | bitXor
  | shiftLeft
  | shiftRight
deriving DecidableEq

def ChainOperator.text : ChainOperator → String
  | and => "&&"
  | or => "||"
  | equal => "=="
  | atMost => "<="
  | below => "<"
  | plus => "+"
  | minus => "-"
  | times => "*"
  | divide => "/"
  | bitAnd => "&"
  | bitOr => "|"
  | bitXor => "^"
  | shiftLeft => "<<"
  | shiftRight => ">>"

/-- Vector arithmetic that wraps. -/
inductive WrappingOperator where
  | add
  | sub
  | mul
deriving DecidableEq

def WrappingOperator.text : WrappingOperator → String
  | add => "wrapping_add"
  | sub => "wrapping_sub"
  | mul => "wrapping_mul"

/-- How the bits of a vector are read as a number. -/
inductive View where
  | unsigned
  | signed
deriving DecidableEq

def View.text : View → String
  | unsigned => "unsigned"
  | signed => "signed"

inductive Expression where
  | argument (identifier : String)
  | temporary (temporary : Temporary)
  | literal (value : Literal)
  | unary (operator : UnaryOperator) (operand : Expression)
  | chain (operator : ChainOperator) (operands : List Expression)
  | implication (premise conclusion : Expression)
  | conditional (condition first second : Expression)
  | integerQuotient (left right : Expression)
  | integerPower (base exponent : Expression)
  | realPower (base exponent : Expression)
  | wrapping (operator : WrappingOperator) (width : Nat) (left right : Expression)
  | unsignedQuotient (width : Nat) (left right : Expression)
  | signedQuotient (left right : Expression)
  | signedShiftRight (left right : Expression)
  | compare (view : View) (strict : Bool) (left right : Expression)
  | sameBits (left right : Expression)
  | extract (result width low high : Nat) (operand : Expression)
  | concat (high low result : Nat) (left right : Expression)

def bracketed (text : String) : String := "(" ++ text ++ ")"

def call (name : String) (arguments : List String) : String :=
  name ++ bracketed (String.intercalate ", " arguments)

def methodCall (receiver name : String) (arguments : List String) : String :=
  call (receiver ++ "." ++ name) arguments

def instantiated (name : String) (widths : List Nat) : String :=
  name ++ "::<" ++ String.intercalate ", " (widths.map toString) ++ ">"

def vectorCall (width : Nat) (constructor argument : String) : String :=
  call (instantiated "Bv" [width] ++ "::" ++ constructor) [argument]

/-- A literal as the program spells it. Negative numbers stand in parentheses, and the
least integer has a name because its digits alone do not fit. -/
def literalText : Literal → String
  | .bool value => if value then "true" else "false"
  | .int value =>
    if value = Int64.minValue then "i64::MIN"
    else if value < 0 then bracketed (toString value.toInt)
    else toString value.toInt
  | .real value =>
    let quotient := value.toFloat
    let digits := Decimal.programText.text quotient
    if quotient < 0 then bracketed digits else digits
  | .bitVec bits width => vectorCall width "new" (toString bits.toNat)

namespace Expression

mutual

def text : Expression → String
  | argument identifier => identifier
  | temporary declared => declared.name
  | literal value => literalText value
  | unary operator operand => bracketed (operator.text ++ operand.text)
  | chain operator operands =>
    bracketed (String.intercalate (" " ++ operator.text ++ " ") (texts operands))
  | implication premise conclusion => "!" ++ premise.text ++ " || " ++ conclusion.text
  | conditional condition first second =>
    "if " ++ condition.text ++ " \x7b " ++ first.text ++ " \x7d else \x7b " ++ second.text ++
      " \x7d"
  | integerQuotient left right => call "int_div" [left.text, right.text]
  | integerPower base exponent =>
    methodCall (bracketed base.text) "wrapping_pow" [bracketed exponent.text ++ " as u32"]
  | realPower base exponent => methodCall (bracketed base.text) "powf" [exponent.text]
  | wrapping operator width left right =>
    vectorCall width "from_unsigned"
      (methodCall (methodCall left.text "unsigned" []) operator.text
        [methodCall right.text "unsigned" []])
  | unsignedQuotient width left right =>
    vectorCall width "from_unsigned"
      (methodCall (methodCall (methodCall left.text "unsigned" []) "checked_div"
        [methodCall right.text "unsigned" []]) "unwrap_or" ["u64::MAX"])
  | signedQuotient left right => call "bv_sdiv" [left.text, right.text]
  | signedShiftRight left right => call "bv_ashr" [left.text, right.text]
  | compare view strict left right =>
    bracketed (methodCall left.text view.text [] ++ (if strict then " < " else " <= ") ++
      methodCall right.text view.text [])
  | sameBits left right =>
    vectorCall 1 "new" (bracketed (left.text ++ " == " ++ right.text) ++ " as u64")
  | extract result width low high operand =>
    call (instantiated "bv_extract" [result, width]) [operand.text, toString low, toString high]
  | concat high low result left right =>
    call (instantiated "bv_concat" [high, low, result]) [left.text, right.text]

def texts : List Expression → List String
  | [] => []
  | first :: rest => first.text :: texts rest

end

end Expression

/-- A declaration in the body of the evaluator function. -/
structure Statement where
  target : Temporary
  value : Expression

def Statement.text (statement : Statement) : String :=
  "let " ++ statement.target.name ++ ": " ++ statement.target.type.name ++ " = " ++
    statement.value.text ++ ";"

end Formulary.Code
