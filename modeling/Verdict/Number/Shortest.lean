import Verdict.Number.Binary64

/-!
# Number/Shortest — the fewest decimal digits that read back

A double stands for the interval of reals that round to it.  `shortest` gives the decimal
`digits · 10 ^ exponent` with the fewest digits inside that interval, and of the decimals of that
length the one nearest to the double.  All arithmetic is on `Nat`.
-/

namespace Verdict

/-- The decimal number `digits · 10 ^ exponent`. -/
structure Decimal where
  digits : Nat
  exponent : Int
  deriving DecidableEq, Repr

namespace Decimal

/-- The number of decimal digits of a natural number, one for zero. -/
def digitCount (n : Nat) : Nat := (Nat.toDigits 10 n).length

/-- Drop trailing zeros into the exponent; `fuel` bounds their number. -/
def trim : Nat → Decimal → Decimal
  | 0, d => d
  | fuel + 1, d =>
    if d.digits ≠ 0 ∧ d.digits % 10 = 0 then trim fuel ⟨d.digits / 10, d.exponent + 1⟩ else d

end Decimal

namespace Binary64

/-- The reals that round to a magnitude, as quarters of a unit.  The ends belong to the interval
exactly when the significand is even. -/
structure Interval where
  low : Nat
  high : Nat
  closed : Bool

/-- The rounding interval of a positive magnitude.  Below a power of two the spacing halves. -/
def interval (units : Nat) : Interval :=
  let step := spacing units
  let significand := units / step
  let below := if significand = twoTo 52 ∧ 1 < step then step else 2 * step
  ⟨4 * units - below, 4 * units + 2 * step, significand % 2 == 0⟩

/-- Whether `num / den` quarters of a unit lie in the interval. -/
def Interval.contains (i : Interval) (num den : Nat) : Bool :=
  if i.closed then decide (i.low * den ≤ num) && decide (num ≤ i.high * den)
  else decide (i.low * den < num) && decide (num < i.high * den)

/-- The exponent of the leading decimal digit of a positive magnitude. -/
def leadingExponent (units : Nat) : Int :=
  (Decimal.digitCount (units * tenTo 400 / unitsPerOne) : Int) - 401

/-- The decimal on the grid `10 ^ exponent` that is nearest to the magnitude among the two
neighbours on the grid that read back. -/
def onGrid? (units : Nat) (exponent : Int) : Option Decimal :=
  let up := tenTo exponent.toNat
  let down := tenTo (-exponent).toNat
  -- the magnitude is `units * down / (unitsPerOne * up)` grid steps
  let num := units * down
  let den := unitsPerOne * up
  let lower := num / den
  let hit (d : Nat) : Bool := (interval units).contains (4 * d * den) down
  let upperNearer := decide (den < 2 * (num % den)) || (decide (den = 2 * (num % den)) && lower % 2 == 1)
  if hit lower && hit (lower + 1) then
    some ⟨if upperNearer then lower + 1 else lower, exponent⟩
  else if hit lower then some ⟨lower, exponent⟩
  else if hit (lower + 1) then some ⟨lower + 1, exponent⟩
  else none

/-- The shortest decimal of a magnitude, without trailing zeros.  Seventeen digits always read
back. -/
def shortest (units : Nat) : Decimal :=
  if units = 0 then ⟨0, 0⟩
  else
    let lead := leadingExponent units
    let found := (List.range 17).findSome? fun (n : Nat) => onGrid? units (lead - n)
    (found.getD ⟨0, 0⟩).trim 400

end Binary64

end Verdict
