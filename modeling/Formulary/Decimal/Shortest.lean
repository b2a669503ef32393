/-! The shortest decimal that reads back as a given double. A positive double is
`mantissa · 2^exponent`; the reals that round to it form an interval, closed exactly
when the mantissa is even, and the answer is the point of the coarsest decimal grid
that lies in it, the nearer of two such points and the larger of two equally near. -/
namespace Formulary.Decimal

/-- The number `digits · 10^exponent`. -/
structure Shortest where
  digits : Nat
  exponent : Int
deriving DecidableEq

/-- A positive finite double. The gap below a power of two is half the gap above it;
`narrow` marks that case. -/
structure Double where
  mantissa : Nat
  exponent : Int
  narrow : Bool
deriving DecidableEq

namespace Double

/-- The least mantissa that has all its 53 bits. -/
def leastNormal : Nat := 0x10000000000000

/-- Reads the fields of a binary64 pattern without its sign; `none` for infinities,
NaNs and zero. -/
def ofBits? (bits : UInt64) : Option Double :=
  let fraction : Nat := bits.toNat % leastNormal
  let biased : Nat := bits.toNat / leastNormal % 2048
  if biased = 2047 then none
  else if biased = 0 then
    if fraction = 0 then none else some ⟨fraction, -1074, false⟩
  else some ⟨fraction + leastNormal, (biased : Int) - 1075, fraction = 0 && biased ≠ 1⟩

/-- Four times the double over a common denominator: the numerators of the lower end,
of the double itself and of the upper end, then the denominator. -/
def quarters (x : Double) : Nat × Nat × Nat × Nat :=
  let scale := Nat.pow 2 (x.exponent - 2).toNat
  ((4 * x.mantissa - if x.narrow then 1 else 2) * scale, 4 * x.mantissa * scale,
    (4 * x.mantissa + 2) * scale, Nat.pow 2 (2 - x.exponent).toNat)

/-- The chosen multiple of `10^grid` that rounds to the double, if one does. -/
def onGrid? (x : Double) (grid : Int) : Option Nat :=
  let (low, middle, high, denominator) := x.quarters
  let up := Nat.pow 10 (-grid).toNat
  let unit := denominator * Nat.pow 10 grid.toNat
  let inside (n : Nat) : Bool :=
    if x.mantissa % 2 = 0 then low * up ≤ n * unit && n * unit ≤ high * up
    else low * up < n * unit && n * unit < high * up
  let below := middle * up / unit
  match inside below, inside (below + 1) with
  | true, true => some (if (2 * below + 1) * unit ≤ 2 * (middle * up) then below + 1 else below)
  | true, false => some below
  | false, true => some (below + 1)
  | false, false => none

/-- Grids are tried from the first power of ten above the double downwards. Past the
whole part 17 places separate any two doubles, and no double starts below the
324th place. -/
def shortest (x : Double) : Shortest :=
  let (_, middle, _, denominator) := x.quarters
  let top : Int := (Nat.toDigits 10 (middle / denominator)).length
  let answer := (List.range 400).findSome? fun (step : Nat) =>
    (x.onGrid? (top - step)).map fun digits => ⟨digits, top - step⟩
  answer.getD ⟨0, 0⟩

end Double

end Formulary.Decimal
