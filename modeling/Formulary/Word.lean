namespace Formulary.Word

/-- How many values a half word has. -/
def halfSize : Nat := 0x100000000

/-- How many values a word has. -/
def size : Nat := 0x10000000000000000

def ones : UInt64 := 0xFFFFFFFFFFFFFFFF

/-- The low bits as a two's complement number. -/
def signed? (bits : UInt64) (width : Nat) : Option Int64 :=
  if 1 ≤ width ∧ width ≤ 64 then
    some ((bits <<< (64 - width).toUInt64).toInt64 >>> (64 - width).toUInt64.toInt64)
  else none

/-- All bits leave the vector once the amount reaches its width. -/
def shiftLeft? (bits amount : UInt64) (width : Nat) : Option UInt64 :=
  if width ≤ amount.toNat then some 0
  else if amount.toNat < 64 then some (bits <<< amount)
  else none

def shiftRight? (bits amount : UInt64) (width : Nat) : Option UInt64 :=
  if width ≤ amount.toNat then some 0
  else if amount.toNat < 64 then some (bits >>> amount)
  else none

/-- Shifts in copies of the sign; from 63 places on nothing else is left. -/
def shiftRightSigned? (bits amount : UInt64) (width : Nat) : Option UInt64 :=
  (signed? bits width).map fun number => (number >>> (min amount 63).toInt64).toUInt64

/-- A quotient by zero is all ones. -/
def divUnsigned (left right : UInt64) : UInt64 :=
  if right = 0 then ones else left / right

/-- The quotient is cut toward zero; by zero it is one for a negative number and all
ones otherwise. -/
def divSigned? (left right : UInt64) (width : Nat) : Option UInt64 := do
  let number ← signed? left width
  let divisor ← signed? right width
  let quotient := if divisor = 0 then (if number < 0 then 1 else -1) else number / divisor
  return quotient.toUInt64

/-- The Euclidean quotient, and zero where there is none in 64 bits. -/
def divEuclid (left right : Int64) : Int64 :=
  if right = 0 ∨ (left = Int64.minValue ∧ right = -1) then 0
  else Int64.ofInt (left.toInt / right.toInt)

/-- Powers by repeated squaring. -/
def powerNat (base : Int64) (exponent : Nat) : Int64 :=
  if exponent = 0 then 1
  else
    let half := powerNat (base * base) (exponent / 2)
    if exponent % 2 = 0 then half else base * half
termination_by exponent

/-- The exponent counts modulo `2^32`. -/
def power (base exponent : Int64) : Int64 :=
  powerNat base (exponent.toUInt64.toNat % halfSize)

end Formulary.Word
