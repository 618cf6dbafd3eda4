/-!
# Calendar/Date — days of the Gregorian calendar

The calendar is extended to all years from 1 to 9999.  Day 1 of the **day count** is the first of
January of year 1.
-/

namespace Verdict

/-- A day of the calendar. -/
structure Date where
  year : Nat
  month : Nat
  day : Nat
  deriving DecidableEq, Repr, Inhabited

/-- A decimal number with at least `width` digits. -/
def padded (width n : Nat) : String :=
  let digits := Nat.toDigits 10 n
  String.ofList (List.replicate (width - digits.length) '0' ++ digits)

namespace Date

/-- A year with a 29th of February. -/
def isLeapYear (year : Nat) : Bool :=
  year % 4 == 0 && (year % 100 != 0 || year % 400 == 0)

/-- The number of days of a month. -/
def daysInMonth (year month : Nat) : Nat :=
  if month == 2 then (if isLeapYear year then 29 else 28)
  else if month == 4 || month == 6 || month == 9 || month == 11 then 30
  else 31

/-- The first and the last year of the calendar. -/
def minYear : Nat := 1
@[inherit_doc minYear] def maxYear : Nat := 9999

/-- A day that exists. -/
def isValid (d : Date) : Bool :=
  minYear ≤ d.year && d.year ≤ maxYear && 1 ≤ d.month && d.month ≤ 12 &&
  1 ≤ d.day && d.day ≤ daysInMonth d.year d.month

/-- The day count of the last day before a year. -/
def daysBeforeYear (year : Nat) : Nat :=
  let y := year - 1
  y * 365 + y / 4 - y / 100 + y / 400

/-- The days of a year before a month. -/
def daysBeforeMonth (year month : Nat) : Nat :=
  (List.range (month - 1)).foldl (fun days m => days + daysInMonth year (m + 1)) 0

/-- The day count of a day. -/
def dayCount (d : Date) : Nat :=
  daysBeforeYear d.year + daysBeforeMonth d.year d.month + d.day

/-- The month and day of a day of the year, counted from 0, looking from the given month on. -/
def monthOfDay (year : Nat) : Nat → Nat → Nat → Nat × Nat
  | 0, month, rest => (month, rest + 1)
  | months + 1, month, rest =>
    let length := daysInMonth year month
    if rest < length then (month, rest + 1) else monthOfDay year months (month + 1) (rest - length)

/-- The day with a day count; none outside the calendar. -/
def ofDayCount? (count : Nat) : Option Date :=
  if count = 0 then none
  else
    let n := count - 1
    let (cycles400, n) := (n / 146097, n % 146097)
    let (centuries, n) := (n / 36524, n % 36524)
    let (cycles4, n) := (n / 1461, n % 1461)
    let (years, rest) := (n / 365, n % 365)
    let year := 400 * cycles400 + 100 * centuries + 4 * cycles4 + years + 1
    let date :=
      -- the last day of a leap year, or of a cycle of 400 years, closes the year before
      if years = 4 || centuries = 4 then ⟨year - 1, 12, 31⟩
      else
        let (month, day) := monthOfDay year 11 1 rest
        ⟨year, month, day⟩
    if date.isValid then some date else none

/-- Monday is 0. -/
def weekday (d : Date) : Nat := (d.dayCount + 6) % 7

/-- The day count of the Monday of week 1, the week of the first Thursday. -/
def firstMonday (year : Nat) : Int :=
  let newYear : Date := ⟨year, 1, 1⟩
  let monday : Int := newYear.dayCount - newYear.weekday
  if newYear.weekday > 3 then monday + 7 else monday

/-- A year of 53 weeks starts on a Thursday, or on a Wednesday when it is a leap year. -/
def hasLongWeekYear (year : Nat) : Bool :=
  let start := weekday ⟨year, 1, 1⟩
  start == 3 || (start == 2 && isLeapYear year)

/-- The day with a week number and a day of the week, Monday being 1. -/
def ofWeek? (year week day : Nat) : Option Date :=
  if year < minYear || maxYear < year then none
  else if week < 1 || 53 < week || (week = 53 && !hasLongWeekYear year) then none
  else if day < 1 || 7 < day then none
  else ofDayCount? (firstMonday year + ((week - 1) * 7 + (day - 1) : Nat)).toNat

/-- The day as year, month and day with hyphens. -/
def toIso (d : Date) : String :=
  padded 4 d.year ++ "-" ++ padded 2 d.month ++ "-" ++ padded 2 d.day

/-- The day as it is shown inside a displayed value. -/
def display (d : Date) : String :=
  "datetime.date(" ++ toString d.year ++ ", " ++ toString d.month ++ ", " ++ toString d.day ++ ")"

end Date

end Verdict
