import Formulary.Value
import Mathlib.Algebra.Group.Int.Defs
import Mathlib.Algebra.Group.Nat.Defs

namespace Formulary

theorem toNat_one_shiftLeft {amount : Nat} (small : amount < 64) :
    ((1 : UInt64) <<< amount.toUInt64).toNat = 2 ^ amount := by
  have power : 2 ^ amount < 2 ^ 64 := Nat.pow_lt_pow_right (by decide) small
  simp only [UInt64.toNat_shiftLeft, UInt64.toNat_one, Nat.toUInt64_eq, UInt64.toNat_ofNat']
  rw [Nat.mod_eq_of_lt (by omega : amount < 2 ^ 64), Nat.mod_eq_of_lt small,
    Nat.one_shiftLeft, Nat.mod_eq_of_lt power]

theorem lowBits_toNat {width : Nat} (narrow : width ≤ 64) :
    (lowBits width).toNat = 2 ^ width - 1 := by
  unfold lowBits
  split
  · rename_i below
    have shifted := toNat_one_shiftLeft below
    rw [UInt64.toNat_sub_of_le]
    · rw [shifted]
      rfl
    · rw [UInt64.le_iff_toNat_le, shifted]
      exact Nat.two_pow_pos width
  · rename_i wide
    have whole : width = 64 := by omega
    subst whole
    rfl

theorem toNat_and_lowBits (bits : UInt64) {width : Nat} (narrow : width ≤ 64) :
    (bits &&& lowBits width).toNat = bits.toNat % 2 ^ width := by
  rw [UInt64.toNat_and, lowBits_toNat narrow]
  exact Nat.and_two_pow_sub_one_eq_mod bits.toNat width

/-- Cutting changes nothing in a word that fits. -/
theorem and_lowBits_of_lt {bits : UInt64} {width : Nat} (narrow : width ≤ 64)
    (fits : bits.toNat < 2 ^ width) : bits &&& lowBits width = bits := by
  apply UInt64.toNat_inj.mp
  rw [toNat_and_lowBits bits narrow, Nat.mod_eq_of_lt fits]

namespace Word

theorem signed?_eq (bits : UInt64) {width : Nat} (positive : 1 ≤ width)
    (narrow : width ≤ 64) :
    signed? bits width =
      some ((bits <<< (64 - width).toUInt64).toInt64 >>> (64 - width).toUInt64.toInt64) :=
  if_pos ⟨positive, narrow⟩

theorem shiftLeft?_eq (bits amount : UInt64) {width : Nat} (narrow : width ≤ 64) :
    shiftLeft? bits amount width =
      some (if width ≤ amount.toNat then 0 else bits <<< amount) := by
  unfold shiftLeft?
  split
  · rfl
  · exact if_pos (by omega)

theorem shiftRight?_eq (bits amount : UInt64) {width : Nat} (narrow : width ≤ 64) :
    shiftRight? bits amount width =
      some (if width ≤ amount.toNat then 0 else bits >>> amount) := by
  unfold shiftRight?
  split
  · rfl
  · exact if_pos (by omega)

theorem shiftRightSigned?_isSome (bits amount : UInt64) {width : Nat} (positive : 1 ≤ width)
    (narrow : width ≤ 64) : ∃ result, shiftRightSigned? bits amount width = some result := by
  rw [shiftRightSigned?, signed?_eq bits positive narrow]
  exact ⟨_, rfl⟩

theorem divSigned?_isSome (left right : UInt64) {width : Nat} (positive : 1 ≤ width)
    (narrow : width ≤ 64) : ∃ result, divSigned? left right width = some result := by
  rw [divSigned?, signed?_eq left positive narrow, signed?_eq right positive narrow]
  exact ⟨_, rfl⟩

/-- Repeated squaring gives the power, modulo what a word can hold. -/
theorem powerNat_ofInt (base : Int) (exponent : Nat) :
    powerNat (Int64.ofInt base) exponent = Int64.ofInt (base ^ exponent) := by
  induction exponent using Nat.strongRecOn generalizing base with
  | ind exponent ih =>
    rw [powerNat]
    by_cases zero : exponent = 0
    · simp [zero]
    · have half := ih (exponent / 2) (by omega) (base * base)
      have square : (base * base) ^ (exponent / 2) = base ^ (2 * (exponent / 2)) := by
        rw [← pow_two, ← pow_mul]
      rw [if_neg zero, ← Int64.ofInt_mul, half, square]
      by_cases even : exponent % 2 = 0
      · rw [if_pos even, Nat.mul_div_cancel' (Nat.dvd_of_mod_eq_zero even)]
      · have odd : exponent = 2 * (exponent / 2) + 1 := by omega
        rw [if_neg even, ← Int64.ofInt_mul, ← pow_succ', ← odd]

end Word

end Formulary
