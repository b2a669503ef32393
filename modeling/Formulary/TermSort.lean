namespace Formulary

inductive TermSort where
  | bool
  | int
  | real
  | bitVec (width : Nat)
  | array (index element : TermSort)
  | function (arguments : List TermSort) (result : TermSort)
  | uninterpreted (name : String)
deriving Hashable

namespace TermSort

instance : Inhabited TermSort := ⟨bool⟩

mutual

def decideEq : (left right : TermSort) → Decidable (left = right)
  | bool, bool | int, int | real, real => isTrue rfl
  | bitVec v, bitVec w =>
    if same : v = w then isTrue (by rw [same]) else isFalse (fun equal => same (bitVec.inj equal))
  | array i e, array j f =>
    match decideEq i j, decideEq e f with
    | isTrue index, isTrue element => isTrue (by rw [index, element])
    | isFalse different, _ => isFalse (fun equal => different (array.inj equal).1)
    | _, isFalse different => isFalse (fun equal => different (array.inj equal).2)
  | function as r, function bs s =>
    match decideEqAll as bs, decideEq r s with
    | isTrue arguments, isTrue result => isTrue (by rw [arguments, result])
    | isFalse different, _ => isFalse (fun equal => different (function.inj equal).1)
    | _, isFalse different => isFalse (fun equal => different (function.inj equal).2)
  | uninterpreted m, uninterpreted n =>
    if same : m = n then isTrue (by rw [same])
    else isFalse (fun equal => same (uninterpreted.inj equal))
  | bool, int | bool, real | bool, bitVec _ | bool, array .. | bool, function .. |
    bool, uninterpreted _ => isFalse nofun
  | int, bool | int, real | int, bitVec _ | int, array .. | int, function .. |
    int, uninterpreted _ => isFalse nofun
  | real, bool | real, int | real, bitVec _ | real, array .. | real, function .. |
    real, uninterpreted _ => isFalse nofun
  | bitVec _, bool | bitVec _, int | bitVec _, real | bitVec _, array .. |
    bitVec _, function .. | bitVec _, uninterpreted _ => isFalse nofun
  | array .., bool | array .., int | array .., real | array .., bitVec _ |
    array .., function .. | array .., uninterpreted _ => isFalse nofun
  | function .., bool | function .., int | function .., real | function .., bitVec _ |
    function .., array .. | function .., uninterpreted _ => isFalse nofun
  | uninterpreted _, bool | uninterpreted _, int | uninterpreted _, real |
    uninterpreted _, bitVec _ | uninterpreted _, array .. |
    uninterpreted _, function .. => isFalse nofun

def decideEqAll : (left right : List TermSort) → Decidable (left = right)
  | [], [] => isTrue rfl
  | [], _ :: _ | _ :: _, [] => isFalse nofun
  | head :: tail, other :: rest =>
    match decideEq head other, decideEqAll tail rest with
    | isTrue first, isTrue more => isTrue (by rw [first, more])
    | isFalse different, _ => isFalse (fun equal => different (List.cons.inj equal).1)
    | _, isFalse different => isFalse (fun equal => different (List.cons.inj equal).2)

end

instance : DecidableEq TermSort := decideEq

def width? : TermSort → Option Nat
  | bitVec width => some width
  | _ => none

def isBool : TermSort → Bool
  | bool => true
  | _ => false

mutual

/-- The written form, as in an SMT-LIB script; a function lists its arguments before an arrow. -/
def text : TermSort → String
  | bool => "Bool"
  | int => "Int"
  | real => "Real"
  | bitVec width => "(_ BitVec " ++ toString width ++ ")"
  | array index element => "(Array " ++ index.text ++ " " ++ element.text ++ ")"
  | function arguments result => "(" ++ argumentText arguments ++ "-> " ++ result.text ++ ")"
  | uninterpreted name => name

def argumentText : List TermSort → String
  | [] => ""
  | argument :: rest => argument.text ++ " " ++ argumentText rest

end

end TermSort

end Formulary
