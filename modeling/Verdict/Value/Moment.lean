import Verdict.Calendar.Clock
import Verdict.Calendar.Iso
import Verdict.Value.Basic

/-!
# Value/Moment — values as moments

A moment is given as a day, a day with a time, a text in ISO 8601, or a number of milliseconds since
the start of 1970.  Whatever lacks an offset counts as universal time.  A time of the day is given
as text only.
-/

namespace Verdict

namespace DateTime

/-- The start of 1970. -/
def epoch : DateTime := midnight ⟨1970, 1, 1⟩

/-- The `DateTime` in universal time of a number of seconds since 1970, to the nearest microsecond of
the fraction; none outside the calendar. -/
def ofSeconds? : Binary64 → Option DateTime
  | .finite negative units =>
    let whole := Binary64.scaled negative (units / Binary64.unitsPerOne)
    match Binary64.ofUnitRatio negative (units % Binary64.unitsPerOne * microsPerSecond) 1 with
    | .finite _ rest =>
      let micros := Binary64.scaled negative (roundHalfEven rest Binary64.unitsPerOne)
      ofMicros? (epoch.instant + whole * microsPerSecond + micros)
    | _ => none
  | _ => none

end DateTime

namespace Value

/-- A number of milliseconds as seconds, rounded to a double. -/
def secondsOfMillis? : Value → Option Binary64
  | .int i => some (Binary64.ofRatio (i < 0) i.natAbs 1000)
  | .float (.finite negative units) => some (Binary64.ofUnitRatio negative units 1000)
  | _ => none

/-- A text as a moment: ISO 8601 between white space, where a final letter Z is universal time. -/
def momentOfText? (s : String) : Option DateTime :=
  let cs := stripChars s.toList
  match cs.reverse with
  | [] => none
  | last :: before =>
    DateTime.ofIso? (if last = 'Z' || last = 'z' then before.reverse ++ "+00:00".toList else cs)

/-- The moment that a value gives. -/
def moment? : Value → Option DateTime
  | .dateTime t => some t.orUniversal
  | .date d => some (DateTime.midnight d).orUniversal
  | .str s => (momentOfText? s).map DateTime.orUniversal
  | v => (secondsOfMillis? v).bind DateTime.ofSeconds?

/-- The time of the day that a value gives. -/
def clockTime? : Value → Option ClockTime
  | .str s => ClockTime.ofText? s
  | _ => none

end Value

end Verdict
