import Verdict.Calendar.Date

/-!
# Calendar/Instant — a day, a time and an offset

A `DateTime` may lack an offset; then it names no instant until one is supplied.  Instants are
compared as counts of microseconds, so two `DateTime`s with different offsets are equal when they
name the same instant.
-/

namespace Verdict

/-- A day with a time of day and, perhaps, an offset from universal time in microseconds. -/
structure DateTime where
  date : Date
  hour : Nat
  minute : Nat
  second : Nat
  micro : Nat
  offset : Option Int
  deriving DecidableEq, Repr, Inhabited

namespace DateTime

/-- Microseconds in a second, and in a day. -/
def microsPerSecond : Nat := 1000000
@[inherit_doc microsPerSecond] def microsPerDay : Nat := 86400 * microsPerSecond

/-- A time that exists on a day that exists, with an offset of less than a day. -/
def isValid (t : DateTime) : Bool :=
  t.date.isValid && t.hour < 24 && t.minute < 60 && t.second < 60 && t.micro < microsPerSecond &&
  (t.offset.all fun o => o.natAbs < microsPerDay)

/-- Midnight of a day, without an offset. -/
def midnight (d : Date) : DateTime := ⟨d, 0, 0, 0, 0, none⟩

/-- Microseconds since midnight. -/
def microOfDay (t : DateTime) : Nat :=
  ((t.hour * 60 + t.minute) * 60 + t.second) * microsPerSecond + t.micro

/-- Microseconds of the written day and time, whatever the offset. -/
def localMicros (t : DateTime) : Int := (t.date.dayCount * microsPerDay + t.microOfDay : Nat)

/-- The instant named: the written time less the offset, a missing offset counting as universal
time. -/
def instant (t : DateTime) : Int := t.localMicros - t.offset.getD 0

/-- The same time with universal time for a missing offset. -/
def orUniversal (t : DateTime) : DateTime := { t with offset := some (t.offset.getD 0) }

/-- The `DateTime` in universal time of a count of microseconds; none outside the calendar. -/
def ofMicros? (micros : Int) : Option DateTime :=
  if micros < 0 then none
  else
    let n := micros.toNat
    (Date.ofDayCount? (n / microsPerDay)).map fun date =>
      let rest := n % microsPerDay
      let seconds := rest / microsPerSecond
      ⟨date, seconds / 3600, seconds / 60 % 60, seconds % 60, rest % microsPerSecond, some 0⟩

/-- The same instant in universal time; none when it falls outside the calendar. -/
def toUniversal? (t : DateTime) : Option DateTime := ofMicros? t.instant

/-- Equality: two with offsets when they name the same instant, two without when they read the
same; one with and one without never. -/
def equal (a b : DateTime) : Bool :=
  match a.offset, b.offset with
  | none, none => a.localMicros == b.localMicros
  | some _, some _ => a.instant == b.instant
  | _, _ => false

/-- An offset as sign, hours and minutes, and seconds and microseconds where they are not zero. -/
def offsetText (offset : Int) : String :=
  let n := offset.natAbs
  let seconds := n / microsPerSecond
  let micro := n % microsPerSecond
  (if offset < 0 then "-" else "+") ++ padded 2 (seconds / 3600) ++ ":" ++
  padded 2 (seconds / 60 % 60) ++
  (if seconds % 60 ≠ 0 || micro ≠ 0 then ":" ++ padded 2 (seconds % 60) else "") ++
  (if micro ≠ 0 then "." ++ padded 6 micro else "")

/-- The written form, with the given character between day and time. -/
def toIsoWith (separator : String) (t : DateTime) : String :=
  t.date.toIso ++ separator ++ padded 2 t.hour ++ ":" ++ padded 2 t.minute ++ ":" ++
  padded 2 t.second ++ (if t.micro ≠ 0 then "." ++ padded 6 t.micro else "") ++
  (t.offset.elim "" offsetText)

/-- The written form. -/
def toIso (t : DateTime) : String := t.toIsoWith "T"

/-- An offset as it is shown inside a displayed value: a span of days, seconds and microseconds, of
which only the days may be negative. -/
def displayOffset (offset : Int) : String :=
  if offset = 0 then "datetime.timezone.utc"
  else
    let days := offset.fdiv microsPerDay
    let rest := (offset - days * microsPerDay).toNat
    let parts :=
      (if days ≠ 0 then ["days=" ++ toString days] else []) ++
      (if rest / microsPerSecond ≠ 0 then ["seconds=" ++ toString (rest / microsPerSecond)] else []) ++
      (if rest % microsPerSecond ≠ 0 then ["microseconds=" ++ toString (rest % microsPerSecond)] else [])
    "datetime.timezone(datetime.timedelta(" ++ ", ".intercalate parts ++ "))"

/-- The form inside a displayed value: seconds and microseconds are left out when they end the list
with zeros. -/
def display (t : DateTime) : String :=
  let small :=
    if t.micro ≠ 0 then [t.second, t.micro] else if t.second ≠ 0 then [t.second] else []
  let numbers := [t.date.year, t.date.month, t.date.day, t.hour, t.minute] ++ small
  "datetime.datetime(" ++ ", ".intercalate (numbers.map toString) ++
  (t.offset.elim "" fun o => ", tzinfo=" ++ displayOffset o) ++ ")"

end DateTime

end Verdict
