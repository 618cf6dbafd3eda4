import Verdict.Calendar.Instant
import Verdict.Number.Power

/-!
# Calendar/Iso — reading days and times

The accepted forms are those of ISO 8601 for days (calendar days and week days, with or without
hyphens) and times (with or without colons, seconds and a fraction optional), one arbitrary
character between them, and an optional offset.

The width of the day part is found first (`dayWidth?`), since any character may separate it from
the time.
-/

namespace Verdict

namespace DateTime

/-- An ASCII digit as a number. -/
def asciiDigit? (c : Char) : Option Nat := if c.isDigit then some (c.toNat - 48) else none

/-- Read exactly `count` ASCII digits. -/
def takeDigits : Nat → List Char → Option (Nat × List Char)
  | count, cs => go count 0 cs
where
  /-- Read the remaining digits onto a number. -/
  go : Nat → Nat → List Char → Option (Nat × List Char)
    | 0, n, cs => some (n, cs)
    | count + 1, n, c :: cs => (asciiDigit? c).bind fun d => go count (10 * n + d) cs
    | _ + 1, _, [] => none

/-- How many characters the day part takes.  The forms with a week and no hyphens are told apart by
the number of digits that follow: times come in pairs of digits. -/
def dayWidth? (cs : List Char) : Option Nat :=
  let size := cs.length
  if size < 7 then none
  else if size = 7 then some 7
  else if cs[4]? = some '-' then
    if cs[5]? = some 'W' then
      if cs[8]? = some '-' then
        if size = 9 then none
        else if (cs[10]?.any Char.isDigit) then some 8
        else some 10
      else some 8
    else some 10
  else if cs[4]? = some 'W' then
    let stop := 7 + ((cs.drop 7).takeWhile Char.isDigit).length
    if stop < 9 then some stop
    else if stop % 2 = 0 then some 7
    else some 8
  else some 8

/-- Read a day that takes `width` characters of the text. -/
def readDay? (width : Nat) (cs : List Char) : Option Date := do
  let (year, rest) ← takeDigits 4 cs
  let hyphens := rest.head? = some '-'
  let rest := if hyphens then rest.drop 1 else rest
  if rest.head? = some 'W' then
    let (week, rest) ← takeDigits 2 (rest.drop 1)
    if cs.length - rest.length < width then
      if hyphens && rest.head? ≠ some '-' then none
      else
        let (day, _) ← takeDigits 1 (if hyphens then rest.drop 1 else rest)
        Date.ofWeek? year week day
    else Date.ofWeek? year week 1
  else
    let (month, rest) ← takeDigits 2 rest
    if hyphens && rest.head? ≠ some '-' then none
    else
      let (day, _) ← takeDigits 2 (if hyphens then rest.drop 1 else rest)
      some ⟨year, month, day⟩

/-- Hours, minutes, seconds and microseconds as written, and whether the text ended there. -/
structure Fields where
  hour : Nat
  minute : Nat := 0
  second : Nat := 0
  micro : Nat := 0
  complete : Bool := true

/-- Read a fraction of a second to the sixth place.  Later digits are dropped, and what follows them
leaves the text incomplete. -/
def readFraction? (cs : List Char) : Option (Nat × Bool) := do
  let places := min 6 cs.length
  let (n, rest) ← takeDigits places cs
  some (n * tenTo (6 - places), (rest.dropWhile Char.isDigit).isEmpty)

/-- A character that may stand alone after a component. -/
def isStray (c : Char) : Bool := c.toNat < 128

/-- Read seconds, and a fraction after a point, a comma, a further colon, or directly. -/
def readSeconds? (colons : Bool) (f : Fields) (cs : List Char) : Option Fields := do
  let (second, rest) ← takeDigits 2 cs
  match rest with
  | [] => some { f with second }
  | [c] => if isStray c then some { f with second, complete := false } else none
  | c :: after =>
    let fraction ←
      if c = '.' || c = ',' || (colons && c = ':') then readFraction? after
      else if colons then none
      else readFraction? rest
    some { f with second, micro := fraction.1, complete := fraction.2 }

/-- Read minutes and what follows them. -/
def readMinutes? (colons : Bool) (f : Fields) (cs : List Char) : Option Fields := do
  let (minute, rest) ← takeDigits 2 cs
  match rest with
  | [] => some { f with minute }
  | [c] => if isStray c then some { f with minute, complete := false } else none
  | c :: after =>
    if colons && c = ':' then readSeconds? colons { f with minute } after
    else if c = '.' || c = ',' then
      let (micro, complete) ← readFraction? after
      some { f with minute, micro, complete }
    else if colons then none
    else readSeconds? colons { f with minute } rest

/-- Read a time.  A single ASCII character after a component leaves the text incomplete. -/
def readFields? (cs : List Char) : Option Fields := do
  let (hour, rest) ← takeDigits 2 cs
  match rest with
  | [] => some { hour }
  | [c] => if isStray c then some { hour, complete := false } else none
  | c :: after =>
    if c = ':' then readMinutes? true { hour } after
    else if c = '.' || c = ',' then
      let (micro, complete) ← readFraction? after
      some { hour, micro, complete }
    else readMinutes? false { hour } rest

/-- Read a time with an optional offset.  An incomplete time is accepted only before an offset. -/
def readTime? (cs : List Char) : Option (Fields × Option Int) := do
  let (time, zone) := cs.span fun c => !(c = '+' || c = '-' || c = 'Z')
  let fields ← readFields? time
  match zone with
  | [] => if fields.complete then some (fields, none) else none
  | 'Z' :: rest => if rest.isEmpty then some (fields, some 0) else none
  | sign :: rest =>
    let zone ← readFields? rest
    let micros : Int :=
      (((zone.hour * 60 + zone.minute) * 60 + zone.second) * microsPerSecond + zone.micro : Nat)
    if zone.complete then some (fields, some (if sign = '-' then -micros else micros)) else none

/-- Read a day, or a day and a time after any one character. -/
def ofIso? (cs : List Char) : Option DateTime := do
  let width ← dayWidth? cs
  let date ← readDay? width cs
  let t ←
    match cs.drop width with
    | [] => some (midnight date)
    | _ :: time => do
      let (f, offset) ← readTime? time
      some ⟨date, f.hour, f.minute, f.second, f.micro, offset⟩
  if t.isValid then some t else none

end DateTime

/-- Read a day written as year, month and day with hyphens. -/
def Date.ofIso? (cs : List Char) : Option Date := do
  let t ← DateTime.ofIso? cs
  if cs.length = 7 || cs.length = 8 || cs.length = 10 then some t.date else none

end Verdict
