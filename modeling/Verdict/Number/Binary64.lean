import Verdict.Number.Power

/-!
# Number/Binary64 — double-precision numbers as counts of the least unit

Every finite double is a whole multiple of the **unit** `2 ^ -1074`, so a finite number is a sign
and a `Nat`.  Comparison with integers is then exact: both sides are scaled to units and compared as
integers, and nothing is rounded.

* `Binary64.ofRatio` — the double nearest to a ratio, a half going to the even neighbour.
* `Binary64.scaled` — the signed count of units of a finite number.
-/

namespace Verdict

/-- A double-precision number. -/
inductive Binary64 where
  /-- Not a number. -/
  | nan
  /-- An infinity of either sign. -/
  | infinite (negative : Bool)
  /-- A finite number of the given magnitude, counted in units of `2 ^ -1074`. -/
  | finite (negative : Bool) (units : Nat)
  deriving DecidableEq, Repr, Inhabited

/-- The quotient of two naturals rounded to the nearest natural, a half to the even neighbour. -/
def roundHalfEven (num den : Nat) : Nat :=
  let q := num / den
  let r := num % den
  if 2 * r < den then q
  else if den < 2 * r then q + 1
  else q + q % 2

namespace Binary64

/-- The number of units in one. -/
def unitsPerOne : Nat := twoTo 1074

/-- Magnitudes from here on are infinite. -/
def overflowUnits : Nat := twoTo 2098

/-- The spacing of doubles around a magnitude: 53 significant bits, and never below one unit. -/
def spacing (units : Nat) : Nat := twoTo (units.log2 - 52)

/-- Round `num / den` units to a double. -/
def ofUnitRatio (negative : Bool) (num den : Nat) : Binary64 :=
  let step := spacing (num / den)
  let units := roundHalfEven num (den * step) * step
  if overflowUnits ≤ units then .infinite negative else .finite negative units

/-- The double nearest to `num / den`. -/
def ofRatio (negative : Bool) (num den : Nat) : Binary64 :=
  ofUnitRatio negative (num * unitsPerOne) den

/-- The double nearest to `num · 10 ^ exponent`.  Exponents that are out of reach of every finite
double are cut off before any power is taken. -/
def ofDecimal (negative : Bool) (num : Nat) (exponent : Int) : Binary64 :=
  if num = 0 then .finite negative 0
  else
    let digits : Int := (num.log2 : Int) * 30103 / 100000
    if digits + exponent > 400 then .infinite negative
    else if digits + exponent < -400 then .finite negative 0
    else if 0 ≤ exponent then ofRatio negative (num * tenTo exponent.toNat) 1
    else ofRatio negative num (tenTo (-exponent).toNat)

/-- The double nearest to an integer. -/
def ofInt (i : Int) : Binary64 := ofRatio (i < 0) i.natAbs 1

/-- Zero. -/
def zero : Binary64 := .finite false 0

/-- Neither infinite nor `nan`. -/
def isFinite : Binary64 → Bool
  | .finite .. => true
  | _ => false

/-- The signed count of units of a finite number. -/
def scaled : Bool → Nat → Int
  | false, units => units
  | true, units => -units

/-- The signed count of units of a finite number, none for the others. -/
def scaled? : Binary64 → Option Int
  | .finite negative units => some (scaled negative units)
  | _ => none

/-- An integer as a count of units. -/
def scaleInt (i : Int) : Int := i * unitsPerOne

/-- The double nearest to a signed ratio of unit counts. -/
def ofScaledRatio (num : Int) (den : Nat) : Binary64 := ofUnitRatio (num < 0) num.natAbs den

/-- A sum, rounded once.  A zero sum keeps a minus sign only when both summands have it. -/
def add : Binary64 → Binary64 → Binary64
  | .nan, _ | _, .nan => .nan
  | .infinite s, .infinite t => if s = t then .infinite s else .nan
  | .infinite s, _ => .infinite s
  | _, .infinite t => .infinite t
  | .finite s u, .finite t v =>
    let total := scaled s u + scaled t v
    if total = 0 then .finite (s && t) 0 else ofScaledRatio total 1

/-- A product with a natural number, rounded once. -/
def timesNat (x : Binary64) (n : Nat) : Binary64 :=
  match x with
  | .nan => .nan
  | .infinite s => if n = 0 then .nan else .infinite s
  | .finite s u => ofUnitRatio s (u * n) 1

/-- The number with the other sign. -/
def neg : Binary64 → Binary64
  | .nan => .nan
  | .infinite s => .infinite !s
  | .finite s u => .finite (!s) u

/-- The number doubled. -/
def double (x : Binary64) : Binary64 := x.timesNat 2

/-- The whole part of a finite number, toward zero. -/
def truncate? : Binary64 → Option Int
  | .finite s u => some (scaled s (u / unitsPerOne))
  | _ => none

/-- A finite number without a fractional part. -/
def isWhole : Binary64 → Bool
  | .finite _ u => u % unitsPerOne == 0
  | _ => false

/-- Equality of numbers: zeros of both signs are equal, `nan` equals nothing. -/
def equal : Binary64 → Binary64 → Bool
  | .finite s u, .finite t v => scaled s u == scaled t v
  | .infinite s, .infinite t => s == t
  | _, _ => false

/-- The strict order of numbers; `nan` is below and above nothing. -/
def less : Binary64 → Binary64 → Bool
  | .finite s u, .finite t v => decide (scaled s u < scaled t v)
  | .infinite true, .infinite false => true
  | .infinite true, .finite .. => true
  | .finite .., .infinite false => true
  | _, _ => false

@[simp] theorem equal_nan_left (x : Binary64) : equal .nan x = false := by cases x <;> rfl

@[simp] theorem equal_nan_right (x : Binary64) : equal x .nan = false := by cases x <;> rfl

theorem equal_comm (x y : Binary64) : equal x y = equal y x := by
  cases x <;> cases y <;> simp [equal, Bool.beq_comm]

end Binary64

end Verdict
