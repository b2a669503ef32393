import Formulary.Ratio
import Mathlib.Algebra.Order.Floor.Ring
import Mathlib.Data.Rat.Floor
import Mathlib.Tactic.Linarith
import Mathlib.Tactic.FieldSimp
import Mathlib.Tactic.Ring

namespace Formulary.Ratio

theorem number_eq_div (q : Ratio) : q.number = q.numerator.toInt / q.denominator.toInt :=
  Rat.divInt_eq_div _ _

/-- Rounding a quotient down is taking the floor of the number. -/
theorem fdiv_eq_floor (dividend divisor : Int) :
    dividend.fdiv divisor = ⌊(dividend / divisor : ℚ)⌋ := by
  rcases Int.le_total 0 divisor with nonneg | nonpos
  · obtain ⟨natural, rfl⟩ := Int.eq_ofNat_of_zero_le nonneg
    rw [Int.fdiv_eq_ediv_of_nonneg _ nonneg, Int.cast_natCast, Rat.floor_intCast_div_natCast]
  · obtain ⟨natural, same⟩ := Int.eq_ofNat_of_zero_le (Int.neg_nonneg_of_nonpos nonpos)
    have flipped : (dividend / divisor : ℚ) = ((-dividend : Int) : ℚ) / (natural : ℚ) := by
      rw [← Int.cast_natCast natural, ← same, Int.cast_neg, Int.cast_neg, neg_div_neg_eq]
    rw [flipped, Rat.floor_intCast_div_natCast, ← same, ← Int.neg_fdiv_neg,
      Int.fdiv_eq_ediv_of_nonneg _ (same ▸ Int.natCast_nonneg natural)]

/-- The terms of a continued fraction that may be no words. -/
theorem isExpandable_eq (q : Ratio) :
    q.isExpandable = ((word? ⌊q.number⌋).isSome && (word? ⌊(Int.fract q.number)⁻¹⌋).isSome) := by
  have nonzero : (q.denominator.toInt : ℚ) ≠ 0 :=
    Int.cast_ne_zero.mpr q.toInt_denominator_ne_zero
  have remainder : (q.numerator.toInt.fmod q.denominator.toInt : ℚ) =
      q.denominator.toInt * Int.fract q.number := by
    have split := Int.mul_fdiv_add_fmod q.numerator.toInt q.denominator.toInt
    have cast : (q.denominator.toInt * q.numerator.toInt.fdiv q.denominator.toInt +
        q.numerator.toInt.fmod q.denominator.toInt : ℚ) = q.numerator.toInt := by
      exact_mod_cast split
    rw [fdiv_eq_floor] at cast
    rw [Int.fract, mul_sub, number_eq_div, mul_div_cancel₀ _ nonzero]
    linarith
  have second : (q.denominator.toInt / (q.numerator.toInt.fmod q.denominator.toInt : Int) : ℚ) =
      (Int.fract q.number)⁻¹ := by
    rw [remainder]
    by_cases whole : Int.fract q.number = 0
    · simp [whole]
    · field_simp
  simp only [isExpandable, hasWordQuotient]
  rw [fdiv_eq_floor, fdiv_eq_floor, second, ← number_eq_div]

theorem isExpandable_congr {left right : Ratio} (same : left.number = right.number) :
    left.isExpandable = right.isExpandable := by
  rw [isExpandable_eq, isExpandable_eq, same]

theorem word?_isSome {i : Int} : (word? i).isSome ↔ -2 ^ 63 ≤ i ∧ i < 2 ^ 63 := by
  simp only [word?, Int64.toInt_minValue, Int64.toInt_maxValue]
  split <;> simp <;> omega

theorem word?_eq_some {i : Int} (least : -2 ^ 63 ≤ i) (greatest : i < 2 ^ 63) :
    word? i = some (Int64.ofInt i) := by
  simp only [word?, Int64.toInt_minValue, Int64.toInt_maxValue]
  exact if_pos ⟨least, Int.le_sub_one_of_lt greatest⟩

theorem toInt_part {word : Int64} {divisor quotient : Int} (positive : 0 < divisor)
    (same : word.toInt = divisor * quotient) :
    word? quotient = some (Int64.ofInt quotient) ∧ (Int64.ofInt quotient).toInt = quotient := by
  have := word.le_toInt
  have := word.toInt_lt
  have least : -2 ^ 63 ≤ quotient := by
    rcases Int.le_total 0 quotient with nonneg | nonpos <;> nlinarith
  have greatest : quotient < 2 ^ 63 := by
    rcases Int.le_total 0 quotient with nonneg | nonpos <;> nlinarith
  exact ⟨word?_eq_some least greatest, Int64.toInt_ofInt_of_le least greatest⟩

theorem lowest?_of_pos (numerator : Int64) {denominator : Int64}
    (positive : 0 < denominator.toInt) :
    ∃ q, lowest? numerator denominator = some q ∧
      q.number = numerator.toInt / denominator.toInt ∧ 0 < q.denominator.toInt ∧
      Int.gcd q.numerator.toInt q.denominator.toInt = 1 := by
  have divisor : (0 : Int) < Int.gcd numerator.toInt denominator.toInt :=
    Int.natCast_pos.mpr (Int.gcd_pos_of_ne_zero_right _ positive.ne')
  have coprime := Int.gcd_ediv_gcd_ediv_gcd (Int.natCast_pos.mp divisor)
  obtain ⟨above, aboveSame⟩ := Int.gcd_dvd_left numerator.toInt denominator.toInt
  obtain ⟨below, belowSame⟩ := Int.gcd_dvd_right numerator.toInt denominator.toInt
  have aboveQuotient := Int.ediv_eq_of_eq_mul_right divisor.ne' aboveSame
  have belowQuotient := Int.ediv_eq_of_eq_mul_right divisor.ne' belowSame
  obtain ⟨aboveWord, aboveBack⟩ := toInt_part divisor aboveSame
  obtain ⟨belowWord, belowBack⟩ := toInt_part divisor belowSame
  have belowPositive : 0 < (Int64.ofInt below).toInt := by
    rw [belowSame] at positive
    exact belowBack.symm ▸ Int.pos_of_mul_pos_right positive divisor
  have nonzero : Int64.ofInt below ≠ 0 := fun zero =>
    belowPositive.ne' (congrArg Int64.toInt zero)
  refine ⟨⟨Int64.ofInt above, Int64.ofInt below, nonzero⟩, ?_, ?_, belowPositive, ?_⟩
  · simp only [lowest?, Int.sign_eq_one_of_pos positive, Int.one_mul,
      Int.natAbs_of_nonneg positive.le, aboveQuotient, belowQuotient, aboveWord, belowWord]
    exact dif_pos nonzero
  · have factor : ((Int.gcd numerator.toInt denominator.toInt : Int) : ℚ) ≠ 0 :=
      Int.cast_ne_zero.mpr divisor.ne'
    have aboveCast := congrArg (Int.cast (R := ℚ)) aboveSame
    have belowCast := congrArg (Int.cast (R := ℚ)) belowSame
    rw [Int.cast_mul] at aboveCast belowCast
    simp only [number_eq_div, aboveBack, belowBack]
    rw [aboveCast, belowCast, mul_div_mul_left _ _ factor]
  · simp only [aboveBack, belowBack]
    rwa [aboveQuotient, belowQuotient] at coprime

/-- Of the quotients of words, rounded down, one is no word. -/
theorem hasWordQuotient_eq_false {dividend divisor : Int} (least : -2 ^ 63 ≤ dividend)
    (greatest : dividend < 2 ^ 63) :
    hasWordQuotient dividend divisor = false ↔ dividend = -2 ^ 63 ∧ divisor = -1 := by
  rw [hasWordQuotient, Bool.eq_false_iff, Ne, word?_isSome]
  rcases Int.lt_trichotomy divisor 0 with negative | rfl | positive
  · rw [← Int.neg_fdiv_neg, Int.fdiv_eq_ediv_of_nonneg _ (by omega)]
    have bounded : -2 ^ 63 ≤ -dividend / -divisor :=
      Int.le_ediv_of_mul_le (by omega) (by nlinarith)
    by_cases one : divisor = -1
    · rw [one, Int.neg_neg, Int.ediv_one]
      omega
    · have two : 2 ≤ -divisor := by omega
      have small : -dividend / -divisor < 2 ^ 63 :=
        Int.ediv_lt_of_lt_mul (by omega) (by nlinarith)
      omega
  · simp
  · rw [Int.fdiv_eq_ediv_of_nonneg _ (by omega)]
    have bounded : -2 ^ 63 ≤ dividend / divisor := Int.le_ediv_of_mul_le positive (by nlinarith)
    have small : dividend / divisor < 2 ^ 63 := Int.ediv_lt_of_lt_mul positive (by nlinarith)
    omega

/-- The fractions that have too large a term in their continued fractions. -/
def outsized : List (Int64 × Int64) :=
  [(Int64.minValue, -1), (-1, Int64.minValue), (Int64.maxValue, Int64.minValue)]

theorem isExpandable_eq_false (q : Ratio) :
    q.isExpandable = false ↔ (q.numerator, q.denominator) ∈ outsized := by
  have remainder : q.denominator.toInt = -2 ^ 63 →
      (q.numerator.toInt.fmod q.denominator.toInt = -1 ↔
        q.numerator.toInt = -1 ∨ q.numerator.toInt = 2 ^ 63 - 1) := by
    intro least
    have := q.numerator.le_toInt
    have := q.numerator.toInt_lt
    rw [least, ← Int.neg_neg q.numerator.toInt, Int.neg_fmod_neg,
      Int.fmod_eq_emod_of_nonneg _ (by decide)]
    omega
  simp only [isExpandable, Bool.and_eq_false_iff,
    hasWordQuotient_eq_false q.numerator.le_toInt q.numerator.toInt_lt,
    hasWordQuotient_eq_false q.denominator.le_toInt q.denominator.toInt_lt]
  simp only [outsized, List.mem_cons, List.not_mem_nil, or_false, Prod.mk.injEq,
    ← Int64.toInt_inj, Int64.toInt_minValue, Int64.toInt_maxValue]
  grind

end Formulary.Ratio
