namespace Formulary

inductive NativeType where
  | bool
  | int
  | real
  | bitVec (width : Nat)
deriving DecidableEq

namespace NativeType

/-- The widest bit-vector that fits one machine word. -/
def maxWidth : Nat := 64

def name : NativeType → String
  | bool => "bool"
  | int => "i64"
  | real => "f64"
  | bitVec width => "Bv<" ++ toString width ++ ">"

def temporaryStem : NativeType → String
  | bool => "bool"
  | int => "int"
  | real => "real"
  | bitVec width => "bv" ++ toString width ++ "_"

/-- Types are told apart by numbers. -/
instance : Hashable NativeType where
  hash
    | bool => 0
    | int => 1
    | real => 2
    | bitVec width => hash (width + 3)

def width? : NativeType → Option Nat
  | bitVec width => some width
  | _ => none

end NativeType

end Formulary
