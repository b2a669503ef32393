import Formulary.Literal

namespace Formulary

inductive Operator where
  | symbol (name : String)
  | constant (value : Literal)
  | not
  | and
  | or
  | implies
  | iff
  | ite
  | equals
  | plus
  | minus
  | times
  | div
  | pow
  | le
  | lt
  | bvNot
  | bvAnd
  | bvOr
  | bvXor
  | bvNeg
  | bvAdd
  | bvSub
  | bvMul
  | bvUDiv
  | bvSDiv
  | bvURem
  | bvSRem
  | bvShl
  | bvLShr
  | bvAShr
  | bvRotateLeft (amount : Nat)
  | bvRotateRight (amount : Nat)
  | bvZeroExtend (extra : Nat)
  | bvSignExtend (extra : Nat)
  | bvExtract (low high : Nat)
  | bvConcat
  | bvULt
  | bvULe
  | bvSLt
  | bvSLe
  | bvComp
  | bvToNat
  | select
  | store
  | arrayValue
  | toReal
  | forAll (bound : List String)
  | «exists» (bound : List String)
  | apply (function : String)
deriving DecidableEq, Hashable

namespace Operator

def name : Operator → String
  | symbol _ => "symbol"
  | constant _ => "constant"
  | not => "not"
  | and => "and"
  | or => "or"
  | implies => "implies"
  | iff => "iff"
  | ite => "ite"
  | equals => "equals"
  | plus => "plus"
  | minus => "minus"
  | times => "times"
  | div => "div"
  | pow => "pow"
  | le => "le"
  | lt => "lt"
  | bvNot => "bv_not"
  | bvAnd => "bv_and"
  | bvOr => "bv_or"
  | bvXor => "bv_xor"
  | bvNeg => "bv_neg"
  | bvAdd => "bv_add"
  | bvSub => "bv_sub"
  | bvMul => "bv_mul"
  | bvUDiv => "bv_udiv"
  | bvSDiv => "bv_sdiv"
  | bvURem => "bv_urem"
  | bvSRem => "bv_srem"
  | bvShl => "bv_shl"
  | bvLShr => "bv_lshr"
  | bvAShr => "bv_ashr"
  | bvRotateLeft _ => "bv_rol"
  | bvRotateRight _ => "bv_ror"
  | bvZeroExtend _ => "bv_zext"
  | bvSignExtend _ => "bv_sext"
  | bvExtract .. => "bv_extract"
  | bvConcat => "bv_concat"
  | bvULt => "bv_ult"
  | bvULe => "bv_ule"
  | bvSLt => "bv_slt"
  | bvSLe => "bv_sle"
  | bvComp => "bv_comp"
  | bvToNat => "bv_tonatural"
  | select => "array_select"
  | store => "array_store"
  | arrayValue => "array_value"
  | toReal => "to_real"
  | forAll _ => "forall"
  | «exists» _ => "exists"
  | apply _ => "function_application"

/-- Operators that have no meaning on machine values: nothing evaluates them and
no program is written for them. -/
def unsupported : Operator → Bool
  | bvURem | bvSRem | bvRotateLeft _ | bvRotateRight _ | bvZeroExtend _ | bvSignExtend _
  | bvToNat | select | store | arrayValue | toReal | forAll _ | «exists» _ | apply _ => true
  | _ => false

/-- Operators are the same when they are equal up to the spelling of a constant. -/
def same : Operator → Operator → Bool
  | constant left, constant right => left.same right
  | left, right => left = right

end Operator

end Formulary
