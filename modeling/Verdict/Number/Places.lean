import Verdict.Number.Numeral

/-!
# Number/Places — doubles with a given number of places

The magnitude of a finite double is rounded once, in exact arithmetic, a half going to the even
neighbour: to so many places after the point (`fixed`), to so many after the leading digit
(`scientific`), or to so many digits in all (`general`).
-/

namespace Verdict.Binary64

/-- A number of digits with a point before the last `places` of them, of which at least one more is
shown. -/
def withPoint (places : Nat) (alwaysPoint : Bool) (digits : List Char) : List Char :=
  let padded := List.replicate (places + 1 - digits.length) '0' ++ digits
  let whole := padded.length - places
  padded.take whole ++ (if places = 0 && !alwaysPoint then [] else '.' :: padded.drop whole)

/-- Digits after a point that end in no zero, and no point without digits after it. -/
def dropFinalZeros (cs : List Char) : List Char :=
  if cs.contains '.' then
    let kept := cs.reverse.dropWhile (· = '0')
    ((if kept.head? = some '.' then kept.drop 1 else kept)).reverse
  else cs

/-- The magnitude with so many places. -/
def fixed (units places : Nat) (alwaysPoint : Bool) : List Char :=
  withPoint places alwaysPoint (Nat.toDigits 10 (roundHalfEven (units * tenTo places) unitsPerOne))

/-- The digits of a magnitude rounded to one digit and so many more, and the exponent of the first. -/
def leadingDigits (units places : Nat) : Nat × Int :=
  if units = 0 then (0, 0)
  else
    let lead := leadingExponent units
    let shift := (places : Int) - lead
    let n :=
      if 0 ≤ shift then roundHalfEven (units * tenTo shift.toNat) unitsPerOne
      else roundHalfEven units (unitsPerOne * tenTo (-shift).toNat)
    if n = tenTo (places + 1) then (n / 10, lead + 1) else (n, lead)

/-- An exponent with a sign and at least two digits. -/
def exponentText (e : Int) : List Char :=
  let digits := Nat.toDigits 10 e.natAbs
  'e' :: (if e < 0 then '-' else '+') :: List.replicate (2 - digits.length) '0' ++ digits

/-- The magnitude with one digit before the point and so many places after it, and an exponent. -/
def scientific (units places : Nat) (alwaysPoint : Bool) : List Char :=
  let (n, e) := leadingDigits units places
  withPoint places alwaysPoint (Nat.toDigits 10 n) ++ exponentText e

/-- The magnitude with so many digits: positional where the exponent is at least -4 and below their
number.  Zeros at the end are kept only on demand. -/
def general (units digits : Nat) (keepZeros : Bool) : List Char :=
  let places := max digits 1 - 1
  let (n, e) := leadingDigits units places
  let trimmed (cs : List Char) := if keepZeros then cs else dropFinalZeros cs
  if -4 ≤ e && e ≤ places then trimmed (fixed units (places - e).toNat keepZeros)
  else trimmed (withPoint places keepZeros (Nat.toDigits 10 n)) ++ exponentText e

example : fixed (unitsPerOne / 8) 2 false = ['0', '.', '1', '2'] := by decide +kernel

end Verdict.Binary64
