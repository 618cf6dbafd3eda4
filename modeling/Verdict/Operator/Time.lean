import Verdict.Fault
import Verdict.Value.Moment

/-!
# Operator/Time — moments and times of the day

Moments are compared as instants, times of the day in milliseconds.
-/

namespace Verdict.Value

/-- The instant that a value gives. -/
def instant? (v : Value) : Option Int := v.moment?.map DateTime.instant

/-- The milliseconds since midnight that a value gives. -/
def dayMillis? (v : Value) : Option Int := v.clockTime?.map fun t => (t.millis : Int)

/-- Whether both positions are there and compare. -/
def positions (compare : Int → Int → Bool) (a b : Option Int) : Bool :=
  match a, b with
  | some a, some b => compare a b
  | _, _ => false

/-- The orders of positions. -/
def isBefore (a b : Int) : Bool := decide (a < b)
@[inherit_doc isBefore] def isAfter (a b : Int) : Bool := decide (b < a)
@[inherit_doc isBefore] def isNotBefore (a b : Int) : Bool := decide (b ≤ a)
@[inherit_doc isBefore] def isNotAfter (a b : Int) : Bool := decide (a ≤ b)
@[inherit_doc isBefore] def isAt (a b : Int) : Bool := decide (a = b)

/-- Two moments that compare. -/
def moments (compare : Int → Int → Bool) (c v : Value) : Bool :=
  positions compare c.instant? v.instant?

/-- Two times of the day that compare. -/
def clockTimes (compare : Int → Int → Bool) (c v : Value) : Bool :=
  positions compare c.dayMillis? v.dayMillis?

/-- A position between two others, ends included. -/
def isWithin (position? : Value → Option Int) (c v : Value) : Bool :=
  match v.pair? with
  | some (start, finish) =>
    positions isNotAfter (position? start) (position? c) &&
    positions isNotAfter (position? c) (position? finish)
  | none => false

/-- A moment that compares with the present one. -/
def withNow (now : DateTime) (compare : Int → Int → Bool) (c : Value) : Bool :=
  positions compare c.instant? (some now.instant)

/-- A moment on the present day of universal time. -/
def isToday (now : DateTime) (c : Value) : Except Fault Bool :=
  match c.moment? with
  | none => .ok false
  | some t =>
    match t.toUniversal? with
    | some t => .ok (some t.date == now.toUniversal?.map DateTime.date)
    | none => .error .instantBeyondCalendar

end Verdict.Value
