import Formulary.Proofs.Word
import Mathlib.Data.Bool.Basic
import Mathlib.Data.List.Basic

/-! Words as bit-vectors. A vector of up to 64 bits stands in the low bits of a word; cutting
a word to its width commutes with arithmetic modulo powers of two, and the operations that
look at a vector's sign or size compute what they should on vectors. -/
namespace Formulary

namespace Word

def ofVector {width : Nat} (vector : BitVec width) : UInt64 :=
  UInt64.ofBitVec (vector.setWidth 64)

/-- The low bits of a word as a vector. -/
def cut (width : Nat) (bits : UInt64) : BitVec width := bits.toBitVec.setWidth width

theorem toBitVec_shiftLeft (bits : UInt64) {amount : UInt64} (small : amount.toNat < 64) :
    (bits <<< amount).toBitVec = bits.toBitVec <<< amount.toNat := by
  rw [UInt64.toBitVec_shiftLeft]
  apply BitVec.eq_of_toNat_eq
  simp [Nat.mod_eq_of_lt small]

theorem toBitVec_shiftRight (bits : UInt64) {amount : UInt64} (small : amount.toNat < 64) :
    (bits >>> amount).toBitVec = bits.toBitVec >>> amount.toNat := by
  rw [UInt64.toBitVec_shiftRight]
  apply BitVec.eq_of_toNat_eq
  simp [Nat.mod_eq_of_lt small]

theorem toBitVec_shiftRightSigned (number : Int64) {amount : UInt64}
    (small : amount.toNat < 64) :
    (number >>> amount.toInt64).toBitVec = number.toBitVec.sshiftRight amount.toNat := by
  have positive : amount.toBitVec.msb = false := by
    have same : amount.toBitVec.toNat = amount.toNat := rfl
    rw [BitVec.msb_eq_decide, decide_eq_false_iff_not]
    omega
  have sixtyFour : (64 : BitVec 64).msb = false := by decide
  have reduced : amount.toBitVec.smod 64 = amount.toBitVec := by
    rw [BitVec.smod_eq, positive, sixtyFour]
    apply BitVec.eq_of_toNat_eq
    exact Nat.mod_eq_of_lt small
  rw [Int64.toBitVec_shiftRight, UInt64.toBitVec_toInt64, reduced]
  rfl

section Narrow

variable {width : Nat} (narrow : width ≤ 64)
include narrow

theorem cut_ofVector (x : BitVec width) : cut width (ofVector x) = x := by
  simp [cut, ofVector, BitVec.setWidth_setWidth_of_le _ narrow]

theorem toNat_ofVector (x : BitVec width) : (ofVector x).toNat = x.toNat := by
  have fits := x.isLt
  have power : 2 ^ width ≤ 2 ^ 64 := Nat.pow_le_pow_right (by decide) narrow
  rw [ofVector, UInt64.toNat_ofBitVec, BitVec.toNat_setWidth]
  exact Nat.mod_eq_of_lt (Nat.lt_of_lt_of_le fits power)

theorem ofVector_inj {x y : BitVec width} : ofVector x = ofVector y ↔ x = y := by
  constructor
  · intro same
    rw [← cut_ofVector narrow x, same, cut_ofVector narrow]
  · intro same
    rw [same]

theorem and_lowBits (bits : UInt64) : bits &&& lowBits width = ofVector (cut width bits) := by
  apply UInt64.toNat_inj.mp
  rw [toNat_and_lowBits bits narrow, toNat_ofVector narrow, cut, BitVec.toNat_setWidth]
  rfl

theorem cut_add (a b : UInt64) : cut width (a + b) = cut width a + cut width b :=
  BitVec.setWidth_add _ _ narrow

theorem cut_neg (a : UInt64) : cut width (-a) = -cut width a :=
  BitVec.setWidth_neg_of_le narrow

theorem cut_sub (a b : UInt64) : cut width (a - b) = cut width a - cut width b := by
  rw [UInt64.sub_eq_add_neg, cut_add narrow, cut_neg narrow, BitVec.sub_eq_add_neg]

theorem cut_mul (a b : UInt64) : cut width (a * b) = cut width a * cut width b :=
  BitVec.setWidth_mul _ _ narrow

theorem cut_not (a : UInt64) : cut width (~~~a) = ~~~cut width a :=
  BitVec.setWidth_not narrow

/-- Shifting stays within the low bits, so it may be done before or after cutting. -/
theorem setWidth_shiftLeft (x : BitVec width) (amount : Nat) :
    (x.setWidth 64 <<< amount).setWidth width = x <<< amount := by
  apply BitVec.eq_of_getLsbD_eq
  intro i inside
  simp only [BitVec.getLsbD_setWidth, BitVec.getLsbD_shiftLeft]
  grind

theorem setWidth_shiftRight (x : BitVec width) (amount : Nat) :
    (x.setWidth 64 >>> amount).setWidth width = x >>> amount := by
  apply BitVec.eq_of_getLsbD_eq
  intro i inside
  simp only [BitVec.getLsbD_setWidth, BitVec.getLsbD_ushiftRight]
  grind

/-- Going up to the top of a word and back leaves copies of the sign. -/
theorem sshiftRight_shiftLeft (positive : 1 ≤ width) (x : BitVec width) :
    (x.setWidth 64 <<< (64 - width)).sshiftRight (64 - width) = x.signExtend 64 := by
  apply BitVec.eq_of_getLsbD_eq
  intro i inside
  simp only [BitVec.getLsbD_sshiftRight, BitVec.getLsbD_signExtend, BitVec.getLsbD_shiftLeft,
    BitVec.getLsbD_setWidth, BitVec.msb_eq_getLsbD_last]
  by_cases below : i < width
  · have back : 64 - width + i - (64 - width) = i := by omega
    rw [back]
    grind
  · have last : 64 - 1 - (64 - width) = width - 1 := by omega
    rw [last]
    grind

/-- Only the sign is left after 63 places, so larger amounts need not be told apart. -/
theorem setWidth_sshiftRight (positive : 1 ≤ width) (x : BitVec width) (amount : Nat) :
    ((x.signExtend 64).sshiftRight (min amount 63)).setWidth width = x.sshiftRight amount := by
  apply BitVec.eq_of_getLsbD_eq
  intro i inside
  simp only [BitVec.getLsbD_setWidth, BitVec.getLsbD_sshiftRight, BitVec.getLsbD_signExtend,
    BitVec.msb_signExtend]
  grind

theorem setWidth_extract (x : BitVec width) (low high : Nat) :
    (x.setWidth 64 >>> low).setWidth (high - low + 1) = x.extractLsb high low := by
  apply BitVec.eq_of_getLsbD_eq
  intro i inside
  simp only [BitVec.getLsbD_setWidth, BitVec.getLsbD_ushiftRight, BitVec.getLsbD_extractLsb]
  grind

/-- The number that a vector stands for is the same in the wider word. -/
theorem signed?_ofVector (positive : 1 ≤ width) (x : BitVec width) :
    signed? (ofVector x) width = some (Int64.ofBitVec (x.signExtend 64)) := by
  have room : (64 - width).toUInt64.toNat = 64 - width := by
    rw [Nat.toUInt64_eq, UInt64.toNat_ofNat']
    omega
  have small : (64 - width).toUInt64.toNat < 64 := by omega
  rw [signed?_eq _ positive narrow, Option.some_inj]
  apply Int64.toBitVec_inj.mp
  rw [toBitVec_shiftRightSigned _ small, UInt64.toBitVec_toInt64, toBitVec_shiftLeft _ small, room,
    Int64.toBitVec_ofBitVec]
  exact sshiftRight_shiftLeft narrow positive x

theorem toInt_signExtend (x : BitVec width) :
    (Int64.ofBitVec (x.signExtend 64)).toInt = x.toInt := by
  rw [Int64.toInt_ofBitVec, BitVec.toInt_signExtend_of_le narrow]

theorem shiftLeft?_ofVector (x y : BitVec width) :
    (shiftLeft? (ofVector x) (ofVector y) width).map (cut width) = some (x <<< y) := by
  rw [shiftLeft?_eq _ _ narrow, Option.map_some, Option.some_inj, toNat_ofVector narrow,
    BitVec.shiftLeft_eq']
  by_cases far : width ≤ y.toNat
  · rw [if_pos far, BitVec.shiftLeft_eq_zero far]
    exact BitVec.setWidth_zero ..
  · rw [if_neg far, cut, toBitVec_shiftLeft _ (by rw [toNat_ofVector narrow]; omega),
      toNat_ofVector narrow]
    exact setWidth_shiftLeft narrow x y.toNat

theorem shiftRight?_ofVector (x y : BitVec width) :
    (shiftRight? (ofVector x) (ofVector y) width).map (cut width) = some (x >>> y) := by
  rw [shiftRight?_eq _ _ narrow, Option.map_some, Option.some_inj, toNat_ofVector narrow,
    BitVec.ushiftRight_eq']
  by_cases far : width ≤ y.toNat
  · rw [if_pos far, BitVec.ushiftRight_eq_zero far]
    exact BitVec.setWidth_zero ..
  · rw [if_neg far, cut, toBitVec_shiftRight _ (by rw [toNat_ofVector narrow]; omega),
      toNat_ofVector narrow]
    exact setWidth_shiftRight narrow x y.toNat

theorem shiftRightSigned?_ofVector (positive : 1 ≤ width) (x y : BitVec width) :
    (shiftRightSigned? (ofVector x) (ofVector y) width).map (cut width) =
      some (x.sshiftRight' y) := by
  have amount : (min (ofVector y) 63).toNat = min y.toNat 63 := by
    have chosen : min (ofVector y) 63 = if ofVector y ≤ 63 then ofVector y else 63 := rfl
    simp only [chosen, apply_ite UInt64.toNat, UInt64.le_iff_toNat_le, toNat_ofVector narrow]
    rfl
  have small : (min (ofVector y) 63).toNat < 64 := by omega
  rw [shiftRightSigned?, signed?_ofVector narrow positive, Option.map_some, Option.map_some,
    Option.some_inj, cut]
  change (Int64.toBitVec _).setWidth width = _
  rw [toBitVec_shiftRightSigned _ small, Int64.toBitVec_ofBitVec, amount,
    setWidth_sshiftRight narrow positive, BitVec.sshiftRight_eq']

theorem cut_ones : cut width ones = BitVec.allOnes width := by
  have whole : ones.toBitVec = BitVec.allOnes 64 := by decide
  rw [cut, whole]
  apply BitVec.eq_of_getLsbD_eq
  intro i inside
  rw [BitVec.getLsbD_setWidth, BitVec.getLsbD_allOnes, BitVec.getLsbD_allOnes]
  grind

theorem divUnsigned_ofVector (x y : BitVec width) :
    cut width (divUnsigned (ofVector x) (ofVector y)) = x.smtUDiv y := by
  have zero_iff : ofVector y = 0 ↔ y = BitVec.ofNat width 0 := by
    rw [← ofVector_inj narrow]
    simp [ofVector]
  rw [divUnsigned, BitVec.smtUDiv_eq]
  by_cases zero : y = BitVec.ofNat width 0
  · rw [if_pos zero, if_pos (zero_iff.mpr zero)]
    exact cut_ones narrow
  · rw [if_neg zero, if_neg (mt zero_iff.mp zero)]
    apply BitVec.eq_of_toNat_eq
    rw [cut, BitVec.toNat_setWidth, BitVec.toNat_udiv]
    change (ofVector x / ofVector y).toNat % _ = _
    rw [UInt64.toNat_div, toNat_ofVector narrow, toNat_ofVector narrow]
    exact Nat.mod_eq_of_lt (Nat.lt_of_le_of_lt (Nat.div_le_self _ _) x.isLt)

/-- A word's low bits are the residue of the number that the word stands for. -/
theorem cut_eq_ofInt (number : Int64) :
    cut width number.toUInt64 = BitVec.ofInt width number.toInt := by
  apply BitVec.eq_of_toInt_eq
  rw [cut, BitVec.toInt_setWidth, BitVec.toInt_ofInt]
  change _ = (number.toBitVec.toInt).bmod _
  rw [BitVec.toInt_eq_toNat_bmod, Int.bmod_bmod_of_dvd (Nat.pow_dvd_pow 2 narrow)]
  rfl

theorem cut_quotient (x y : BitVec width) :
    cut width (Int64.ofBitVec (x.signExtend 64) / Int64.ofBitVec (y.signExtend 64)).toUInt64 =
      x.sdiv y := by
  apply BitVec.eq_of_toInt_eq
  rw [cut_eq_ofInt narrow, BitVec.toInt_ofInt, Int64.toInt_div, toInt_signExtend narrow,
    toInt_signExtend narrow, Int.bmod_bmod_of_dvd (Nat.pow_dvd_pow 2 narrow), BitVec.toInt_sdiv]

omit narrow in
theorem smtSDiv_zero (x : BitVec width) :
    x.smtSDiv (BitVec.ofNat width 0) =
      if x.msb then BitVec.ofNat width 1 else BitVec.allOnes width := by
  rw [BitVec.smtSDiv_eq]
  cases x.msb <;> simp [BitVec.smtUDiv_eq, ← BitVec.neg_one_eq_allOnes]

omit narrow in
theorem smtSDiv_nonzero {x y : BitVec width} (divides : y ≠ BitVec.ofNat width 0) :
    x.smtSDiv y = x.sdiv y := by
  have opposite : -y ≠ BitVec.ofNat width 0 := by simpa using divides
  rw [BitVec.smtSDiv_eq, BitVec.sdiv_eq]
  cases x.msb <;> cases y.msb <;> simp [BitVec.smtUDiv_eq, divides, opposite]

theorem divSigned?_ofVector (positive : 1 ≤ width) (x y : BitVec width) :
    (divSigned? (ofVector x) (ofVector y) width).map (cut width) = some (x.smtSDiv y) := by
  have zero_iff : Int64.ofBitVec (y.signExtend 64) = 0 ↔ y = BitVec.ofNat width 0 := by
    rw [← Int64.toInt_inj, toInt_signExtend narrow, ← BitVec.toInt_inj]
    simp
  have negative_iff : Int64.ofBitVec (x.signExtend 64) < 0 ↔ x.msb := by
    rw [Int64.lt_iff_toInt_lt, toInt_signExtend narrow, BitVec.msb_eq_toInt]
    simp
  simp only [divSigned?, signed?_ofVector narrow positive, Option.bind_eq_bind, Option.bind_some,
    Option.pure_def, Option.map_some, Option.some_inj, zero_iff, negative_iff]
  by_cases zero : y = BitVec.ofNat width 0
  · rw [if_pos zero, zero, smtSDiv_zero, apply_ite Int64.toUInt64, apply_ite (cut width)]
    have one : cut width (Int64.toUInt64 1) = BitVec.ofNat width 1 := cut_eq_ofInt narrow 1
    have ones : cut width (Int64.toUInt64 (-1)) = BitVec.allOnes width := cut_ones narrow
    rw [one, ones]
  · rw [if_neg zero, smtSDiv_nonzero zero]
    exact cut_quotient narrow x y

end Narrow

theorem setWidth_append {high low : Nat} (narrow : high + low ≤ 64) (x : BitVec high)
    (y : BitVec low) :
    (x.setWidth 64 <<< low ||| y.setWidth 64).setWidth (high + low) = x ++ y := by
  apply BitVec.eq_of_getLsbD_eq
  intro i inside
  simp only [BitVec.getLsbD_setWidth, BitVec.getLsbD_or, BitVec.getLsbD_shiftLeft,
    BitVec.getLsbD_append]
  grind

end Word

end Formulary
