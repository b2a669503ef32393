import Formulary.Proofs.Code.Machine
import Formulary.Proofs.Word

namespace Formulary.Code

namespace Machine

theorem mask_eq (width : Nat) : mask width = lowBits width := by
  unfold mask lowBits
  by_cases wide : 64 ≤ width
  · rw [if_pos wide, if_neg (by omega)]
    rfl
  · rw [if_neg wide, if_pos (by omega), Nat.toUInt64_eq]

theorem new_eq (width : Nat) (bits : UInt64) : new width bits = .vector bits width := by
  rw [new, mask_eq, Value.vector]

theorem literal_eq (value : Literal) : literal value = .ofLiteral value := by
  cases value with
  | bitVec bits width => exact new_eq width bits
  | _ => rfl

theorem signed_eq (bits : UInt64) {width : Nat} (positive : 1 ≤ width) (narrow : width ≤ 64) :
    signed width bits = Word.signed? bits width := by
  have inRange : ¬(64 < width ∨ width = 0) := by omega
  rw [signed, if_neg inRange, Word.signed?_eq bits positive narrow, Nat.toUInt64_eq]

/-- A vector that fits is not changed by cutting it again. -/
theorem vector_of_fits {bits : UInt64} {width : Nat} (narrow : width ≤ 64)
    (fits : bits.toNat < 2 ^ width) : Value.vector bits width = .bitVec bits width := by
  rw [Value.vector, and_lowBits_of_lt narrow fits]

theorem ofNat_le_iff {width : Nat} (narrow : width ≤ 64) (amount : UInt64) :
    UInt64.ofNat width ≤ amount ↔ width ≤ amount.toNat := by
  rw [UInt64.le_iff_toNat_le, UInt64.toNat_ofNat_of_lt' (Nat.lt_of_le_of_lt narrow (by decide))]

theorem shiftLeft_eq (bits amount : UInt64) {width : Nat} (narrow : width ≤ 64) :
    shiftLeft width bits amount =
      some (.vector (if width ≤ amount.toNat then 0 else bits <<< amount) width) := by
  unfold shiftLeft
  by_cases far : width ≤ amount.toNat
  · rw [if_pos ((ofNat_le_iff narrow amount).mpr far), if_pos far]
    simp [Value.vector]
  · have room : amount < 64 := by
      rw [UInt64.lt_iff_toNat_lt]
      exact Nat.lt_of_lt_of_le (Nat.not_le.mp far) narrow
    rw [if_neg (mt (ofNat_le_iff narrow amount).mp far), if_pos room, if_neg far, new_eq]

theorem shiftRight_eq {bits : UInt64} (amount : UInt64) {width : Nat} (narrow : width ≤ 64)
    (fits : bits.toNat < 2 ^ width) :
    shiftRight width bits amount =
      some (.vector (if width ≤ amount.toNat then 0 else bits >>> amount) width) := by
  unfold shiftRight
  by_cases far : width ≤ amount.toNat
  · rw [if_pos ((ofNat_le_iff narrow amount).mpr far), if_pos far]
    simp [Value.vector]
  · have room : amount < 64 := by
      rw [UInt64.lt_iff_toNat_lt]
      exact Nat.lt_of_lt_of_le (Nat.not_le.mp far) narrow
    have smaller : (bits >>> amount).toNat < 2 ^ width := by
      rw [UInt64.toNat_shiftRight, Nat.shiftRight_eq_div_pow]
      exact Nat.lt_of_le_of_lt (Nat.div_le_self _ _) fits
    rw [if_neg (mt (ofNat_le_iff narrow amount).mp far), if_pos room, if_neg far,
      vector_of_fits narrow smaller]

theorem unsignedQuotient_eq (left right : UInt64) :
    unsignedQuotient left right = Word.divUnsigned left right := by
  unfold unsignedQuotient Word.divUnsigned
  by_cases zero : right = 0
  · rw [if_pos zero, if_pos zero]
    rfl
  · rw [if_neg zero, if_neg zero]
    rfl

theorem signedShiftRight_eq (bits amount : UInt64) {width : Nat} (positive : 1 ≤ width)
    (narrow : width ≤ 64) :
    signedShiftRight width bits amount =
      (Word.shiftRightSigned? bits amount width).map (Value.vector · width) := by
  simp [signedShiftRight, Word.shiftRightSigned?, signed_eq bits positive narrow,
    Word.signed?_eq bits positive narrow, ofSigned, new_eq]

theorem signedQuotient_eq (left right : UInt64) {width : Nat} (positive : 1 ≤ width)
    (narrow : width ≤ 64) :
    signedQuotient width left right =
      (Word.divSigned? left right width).map (Value.vector · width) := by
  obtain ⟨number, leftRead⟩ : ∃ number, Word.signed? left width = some number :=
    ⟨_, Word.signed?_eq left positive narrow⟩
  obtain ⟨divisor, rightRead⟩ : ∃ divisor, Word.signed? right width = some divisor :=
    ⟨_, Word.signed?_eq right positive narrow⟩
  by_cases zero : divisor = 0 <;>
    simp [signedQuotient, Word.divSigned?, signed_eq _ positive narrow, leftRead, rightRead,
      ofSigned, new_eq, zero]

/-- Only the quotient of the least integer by minus one is out of range. -/
theorem quotient_inRange {left right : Int64} (divides : right ≠ 0)
    (inside : ¬(left = Int64.minValue ∧ right = -1)) :
    Int64.minValue.toInt ≤ left.toInt / right.toInt ∧
      left.toInt / right.toInt ≤ Int64.maxValue.toInt := by
  have leftLow := left.le_toInt
  have leftHigh := left.toInt_lt
  have nonzero : right.toInt ≠ 0 := fun zero => divides (Int64.toInt_inj.mp zero)
  rw [Int64.toInt_minValue, Int64.toInt_maxValue]
  by_cases positive : 0 < right.toInt
  · have low : -2 ^ 63 ≤ left.toInt / right.toInt := by
      rw [Int.le_ediv_iff_mul_le positive]
      omega
    have high : left.toInt / right.toInt < 2 ^ 63 := by
      rw [Int.ediv_lt_iff_lt_mul positive]
      omega
    omega
  · have negative : 0 < -right.toInt := by omega
    have low : -2 ^ 63 + 1 ≤ left.toInt / -right.toInt := by
      rw [Int.le_ediv_iff_mul_le negative]
      by_cases one : right.toInt = -1
      · have least : left.toInt ≠ -2 ^ 63 := fun same =>
          inside ⟨Int64.toInt_inj.mp same, Int64.toInt_inj.mp one⟩
        omega
      · omega
    have high : left.toInt / -right.toInt < 2 ^ 63 := by
      rw [Int.ediv_lt_iff_lt_mul negative]
      omega
    rw [Int.ediv_neg] at low high
    omega

theorem integerQuotient_eq (left right : Int64) :
    integerQuotient left right = Word.divEuclid left right := by
  unfold integerQuotient checkedQuotient Word.divEuclid
  by_cases zero : right = 0
  · simp [zero]
  · by_cases least : left = Int64.minValue ∧ right = -1
    · obtain ⟨rfl, rfl⟩ := least
      rfl
    · rw [if_neg zero, if_pos (quotient_inRange zero least), if_neg (by simp [zero, least])]
      rfl

theorem integerPower_eq (base exponent : Int64) :
    integerPower base exponent = Word.power base exponent := by
  have power := Word.powerNat_ofInt base.toInt (exponent.toUInt64.toNat % Word.halfSize)
  rw [Int64.ofInt_toInt] at power
  rw [integerPower, Word.power, power, UInt64.toNat_toUInt32]
  rfl

end Machine

end Formulary.Code
