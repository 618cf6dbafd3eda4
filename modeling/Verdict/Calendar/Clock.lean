import Verdict.Number.Binary64
import Verdict.Number.Power
import Verdict.Text.Blank
import Verdict.Text.DecimalDigit

/-!
# Calendar/Clock — times of the day

A time is written as hours and minutes, optionally seconds, and after seconds optionally up to
three decimal places.  It is kept in whole milliseconds since midnight, so that comparing times is
comparing naturals.
-/

namespace Verdict

/-- A time of the day. -/
structure ClockTime where
  /-- Milliseconds since midnight. -/
  millis : Nat
  deriving DecidableEq, Repr

namespace ClockTime

/-- Two digits of which the first is an ASCII digit that `leading` admits. -/
def twoDigits? (leading : Char → Bool) : List Char → Option (Nat × List Char)
  | a :: b :: rest =>
    if leading a && isDecimalDigit b then some (digitsValue [a, b], rest) else none
  | _ => none

/-- Hours from 00 to 23: after a 2 only the ASCII digits 0 to 3. -/
def hours? : List Char → Option (Nat × List Char)
  | '2' :: b :: rest => if '0' ≤ b && b ≤ '3' then some (digitsValue ['2', b], rest) else none
  | cs => twoDigits? (fun a => a = '0' || a = '1') cs

/-- Minutes or seconds from 00 to 59. -/
def sixtieth? (cs : List Char) : Option (Nat × List Char) :=
  twoDigits? (fun a => '0' ≤ a && a ≤ '5') cs

/-- One to three decimal places, as milliseconds. -/
def places? (cs : List Char) : Option Nat :=
  if 1 ≤ cs.length && cs.length ≤ 3 && cs.all isDecimalDigit then
    some (digitsValue cs * tenTo (3 - cs.length))
  else none

/-- Read a time that fills the text. -/
def ofChars? (cs : List Char) : Option ClockTime := do
  let (hour, rest) ← hours? cs
  match rest with
  | ':' :: rest =>
    let (minute, rest) ← sixtieth? rest
    let minutes := hour * 60 + minute
    match rest with
    | [] => some ⟨minutes * 60000⟩
    | mark :: rest =>
      if mark = ':' || mark = '.' then
        let (second, rest) ← sixtieth? rest
        let seconds := minutes * 60 + second
        match rest with
        | [] => some ⟨seconds * 1000⟩
        | '.' :: rest => (places? rest).map fun millis => ⟨seconds * 1000 + millis⟩
        | _ => none
      else none
  | _ => none

/-- Read a time between white space. -/
def ofText? (s : String) : Option ClockTime := ofChars? (stripChars s.toList)

/-- Seconds since midnight: the whole seconds and the fraction, added as doubles. -/
def seconds (t : ClockTime) : Binary64 :=
  (Binary64.ofInt (t.millis / 1000 : Nat)).add (Binary64.ofRatio false (t.millis % 1000) 1000)

end ClockTime

end Verdict
