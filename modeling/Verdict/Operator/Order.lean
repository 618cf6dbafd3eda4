import Verdict.Fault
import Verdict.Value.Equality

/-!
# Operator/Order — equality, order and ranges

Order is typed: numbers are compared with numbers by their exact magnitude and texts with texts by
their characters, and a value of any other kind is neither below nor above anything.
-/

namespace Verdict.Value

/-- The strict order of two numbers or of two texts. -/
def less : Value → Value → Bool
  | .str s, .str t => decide (s < t)
  | c, v =>
    match c.scaled?, v.scaled? with
    | some a, some b => decide (a < b)
    | _, _ => false

/-- Below or equal. -/
def atMost (c v : Value) : Bool := equal c v || less c v

/-- Above or equal. -/
def atLeast (c v : Value) : Bool := equal c v || less v c

/-- The order of two numbers, ends included. -/
def numberAtMost (c v : Value) : Bool :=
  match c.scaled?, v.scaled? with
  | some a, some b => decide (a ≤ b)
  | _, _ => false

/-- A number between two others, ends included. -/
def isBetween (c v : Value) : Bool :=
  match v.pair? with
  | some (low, high) => numberAtMost low c && numberAtMost c high
  | none => false

/-- One of the items of a list. -/
def isAmong (c v : Value) : Bool :=
  match v with
  | .list _ items => contains items c
  | _ => false

/-- Whether a number can be divided by another without remainder.  A double turns an integer on the
other side into a double. -/
def isDivisible (c v : Value) : Except Fault Bool :=
  match c, v with
  | .int i, .int j => .ok (j != 0 && i % j == 0)
  | c, v =>
    if c.isNumber && v.isNumber && v.scaled? != some 0 then
      match magnitude c, magnitude v with
      | some a, some b => .ok (a % b == 0)
      | _, _ => .error .integerBeyondDoubles
    else .ok false
where
  /-- The units of a number as a double, its sign dropped. -/
  magnitude : Value → Option Nat
    | .int i =>
      match Binary64.ofInt i with
      | .finite _ units => some units
      | _ => none
    | .float (.finite _ units) => some units
    | _ => none

end Verdict.Value
