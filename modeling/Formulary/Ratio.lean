/-! Fractions of 64-bit integers. A fraction is kept as written, so `1/2` and
`2/4` differ as fractions and agree as numbers. -/
namespace Formulary

structure Ratio where
  numerator : Int64
  denominator : Int64
  nonzero : denominator ≠ 0
deriving DecidableEq

namespace Ratio

/-- Equality of the numbers that two fractions stand for, by cross multiplication. -/
def same (left right : Ratio) : Bool :=
  left.numerator.toInt * right.denominator.toInt == right.numerator.toInt * left.denominator.toInt

/-- The number that a fraction stands for. -/
def number (q : Ratio) : Rat := Rat.divInt q.numerator.toInt q.denominator.toInt

theorem toInt_denominator_ne_zero (q : Ratio) : q.denominator.toInt ≠ 0 := by
  intro zero
  exact q.nonzero (Int64.toInt_inj.mp (zero.trans Int64.toInt_zero.symm))

theorem same_iff {left right : Ratio} : left.same right ↔ left.number = right.number := by
  rw [same, beq_iff_eq, number, number, Rat.divInt_eq_divInt_iff
    left.toInt_denominator_ne_zero right.toInt_denominator_ne_zero]

/-- Fractions of one number have one hash. -/
instance : Hashable Ratio := ⟨fun q => hash q.number⟩

/-- An integer as a fraction. -/
def whole (value : Int64) : Ratio := ⟨value, 1, by decide⟩

/-- The fraction with exactly these parts. -/
def ofParts? (numerator denominator : Int64) : Option Ratio :=
  if nonzero : denominator ≠ 0 then some ⟨numerator, denominator, nonzero⟩ else none

/-- An integer as a word, when it fits. -/
def word? (i : Int) : Option Int64 :=
  if Int64.minValue.toInt ≤ i ∧ i ≤ Int64.maxValue.toInt then some (Int64.ofInt i) else none

/-- The quotient in lowest terms with a positive denominator. There is none for a
zero denominator, or when a part of it exceeds 64 bits. -/
def lowest? (numerator denominator : Int64) : Option Ratio := do
  let divisor := Int.gcd numerator.toInt denominator.toInt
  let above ← word? (denominator.toInt.sign * numerator.toInt / divisor)
  let below ← word? (denominator.toInt.natAbs / divisor)
  ofParts? above below

/-- Whether a quotient, rounded down, is a word. -/
def hasWordQuotient (dividend divisor : Int) : Bool := (word? (dividend.fdiv divisor)).isSome

/-- Whether all terms of the continued fraction are words. Only the first two may fail to
be: the others divide remainders, and no remainder is the least word. -/
def isExpandable (q : Ratio) : Bool :=
  let remainder := q.numerator.toInt.fmod q.denominator.toInt
  hasWordQuotient q.numerator.toInt q.denominator.toInt &&
    hasWordQuotient q.denominator.toInt remainder

/-- The floating-point number nearest to an integer. -/
def wordFloat (i : Int64) : Float :=
  if i < 0 then -(-i).toUInt64.toFloat else i.toUInt64.toFloat

/-- The nearest floating-point quotient of the two parts, each rounded first. -/
def toFloat (q : Ratio) : Float :=
  wordFloat q.numerator / wordFloat q.denominator

/-- The parts as stored; a denominator of one is left out. -/
def text (q : Ratio) : String :=
  if q.denominator = 1 then toString q.numerator.toInt
  else toString q.numerator.toInt ++ "/" ++ toString q.denominator.toInt

end Ratio

end Formulary
