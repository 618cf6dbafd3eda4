import Verdict.Calendar.Iso
import Verdict.Document.Json

/-!
# Document/Yaml/Scalar — what a plain scalar means

A scalar without quotes is a word for a value, a number, a day or a time, and else a text.  Integers
may be binary, octal, hexadecimal or in base sixty, and underscores may stand among digits.  A double
has a point, and a sign in its exponent.
-/

namespace Verdict.Yaml

open Document (Error)

/-- The words for values. -/
def words : List (List String × Value) := [
  (["", "~", "null", "Null", "NULL"], .null),
  (["yes", "Yes", "YES", "true", "True", "TRUE", "on", "On", "ON"], .bool true),
  (["no", "No", "NO", "false", "False", "FALSE", "off", "Off", "OFF"], .bool false),
  ([".nan", ".NaN", ".NAN"], .float .nan),
  ([".inf", ".Inf", ".INF", "+.inf", "+.Inf", "+.INF"], .float (.infinite false)),
  (["-.inf", "-.Inf", "-.INF"], .float (.infinite true))]

/-- The value of a word. -/
def word? (s : String) : Option Value :=
  words.findSome? fun (spellings, v) => if spellings.contains s then some v else none

/-! ## Integers -/

/-- A digit or an underscore. -/
def isDigitOrLine (c : Char) : Bool := c.isDigit || c = '_'

/-- Whether a text holds some characters and underscores only, and is not empty. -/
def consistsOf (p : Char → Bool) (cs : List Char) : Bool :=
  !cs.isEmpty && cs.all fun c => p c || c = '_'

/-- The number that digits of a base write. -/
def numberIn (base : Nat) (cs : List Char) : Nat :=
  (cs.filterMap Json.hexDigit?).foldl (fun n d => n * base + d) 0

/-- Digits and underscores that begin with a digit. -/
def isNumeral (cs : List Char) : Bool := cs.head?.any Char.isDigit && cs.all isDigitOrLine

/-- A digit of base sixty: one or two decimal digits, the first of two below six. -/
def isSixtieth : List Char → Bool
  | [a] => a.isDigit
  | [a, b] => a.isDigit && a < '6' && b.isDigit
  | _ => false

/-- The parts of a text between colons. -/
def parts (cs : List Char) : List (List Char) :=
  cs.foldr (fun c parts =>
    if c = ':' then [] :: parts
    else
      match parts with
      | [] => [[c]]
      | part :: rest => (c :: part) :: rest) [[]]

/-- The digits of a number in base sixty, the first of any size. -/
def sixtieths? (cs : List Char) : Option (List Nat) :=
  match parts cs with
  | first :: second :: rest =>
    if isNumeral first && (second :: rest).all isSixtieth then
      some ((first :: second :: rest).map (numberIn 10))
    else none
  | _ => none

/-- The magnitude of an integer. -/
def natural? : List Char → Option (Except Error Nat)
  | ['0'] => some (.ok 0)
  | '0' :: 'b' :: cs => if consistsOf (fun c => c < '2' && c.isDigit) cs then some (.ok (numberIn 2 cs)) else none
  | '0' :: 'x' :: cs => if consistsOf (fun c => (Json.hexDigit? c).isSome) cs then some (.ok (numberIn 16 cs)) else none
  | '0' :: cs => if consistsOf (fun c => c < '8' && c.isDigit) cs then some (.ok (numberIn 8 cs)) else none
  | cs =>
    if isNumeral cs then
      let digits := cs.filter Char.isDigit
      if maxIntegerDigits < digits.length then some (.error (.limit (.numeralTooLong digits.length)))
      else some (.ok (digitsValue digits))
    else (sixtieths? cs).map fun digits => .ok (digits.foldl (fun n d => n * 60 + d) 0)

/-- An integer. -/
def integer? (cs : List Char) : Option (Except Error Value) :=
  let (negative, body) := readSign cs
  (natural? body).map fun n => n.map fun n => .int (if negative then -(n : Int) else n)

/-! ## Doubles -/

/-- Nothing, or an exponent with a sign. -/
def isExponent : List Char → Bool
  | [] => true
  | e :: sign :: digits =>
    (e = 'e' || e = 'E') && (sign = '+' || sign = '-') && !digits.isEmpty && digits.all Char.isDigit
  | _ => false

/-- A double in base sixty: the value of the digit before the point and the places after it, to
which the other digits are added from the last to the first. -/
def ofSixtieths (digits : List Nat) (places : List Char) : Option Binary64 :=
  match digits.reverse with
  | [] => none
  | last :: rest => do
    let x ← readDecimal? false ((toString last).toList ++ '.' :: places)
    let (sum, _) := rest.foldl (fun (sum, base) d => (sum.add (Binary64.ofInt (d * base : Nat)), 60 * base))
      (x, 60)
    some sum

/-- A double with a point. -/
def float? (cs : List Char) : Option Value := do
  let (negative, body) := readSign cs
  let (whole, rest) := body.span (· ≠ '.')
  match rest with
  | [] => none
  | _ :: rest =>
    let (places, exponent) := rest.span isDigitOrLine
    let plain := body.filter (· ≠ '_')
    if isNumeral whole && isExponent exponent then (readDecimal? negative plain).map Value.float
    else if cs.head? = some '.' && isNumeral places && isExponent exponent then
      (readDecimal? false plain).map Value.float
    else if exponent.isEmpty then
      let x ← ofSixtieths (← sixtieths? whole) (places.filter (· ≠ '_'))
      some (.float (if negative then x.neg else x))
    else none

/-! ## Days and times -/

/-- One or two digits. -/
def takeOneOrTwo : List Char → Option (Nat × List Char)
  | a :: b :: rest =>
    if a.isDigit && b.isDigit then some (digitsValue [a, b], rest)
    else if a.isDigit then some (digitsValue [a], b :: rest)
    else none
  | [a] => if a.isDigit then some (digitsValue [a], []) else none
  | [] => none

/-- Drop an expected character. -/
def expect (c : Char) : List Char → Option (List Char)
  | d :: rest => if d = c then some rest else none
  | [] => none

/-- A blank or a tab. -/
def isBlankOrTab (c : Char) : Bool := c = ' ' || c = '\t'

/-- What stands between a day and a time. -/
def skipSeparator : List Char → Option (List Char)
  | c :: rest =>
    if c = 'T' || c = 't' then some rest
    else if isBlankOrTab c then some (rest.dropWhile isBlankOrTab)
    else none
  | [] => none

/-- A fraction of a second in microseconds, later digits being dropped. -/
def takeFraction : List Char → Nat × List Char
  | '.' :: rest =>
    let (digits, rest) := rest.span Char.isDigit
    let kept := digits.take 6
    (digitsValue kept * tenTo (6 - kept.length), rest)
  | cs => (0, cs)

/-- Nothing, `Z`, or an offset in hours and perhaps minutes, which ends the text. -/
def offset? (cs : List Char) : Option (Option Int) :=
  if cs.isEmpty then some none
  else
    match cs.dropWhile isBlankOrTab with
    | ['Z'] => some (some 0)
    | sign :: rest =>
      if sign = '+' || sign = '-' then do
        let (hours, rest) ← takeOneOrTwo rest
        let (minutes, rest) ←
          match rest with
          | ':' :: rest => DateTime.takeDigits 2 rest
          | _ => some (0, rest)
        let micros : Int := ((hours * 60 + minutes) * 60 * DateTime.microsPerSecond : Nat)
        if rest.isEmpty then some (some (if sign = '-' then -micros else micros)) else none
      else none
    | [] => none

/-- A time after a day. -/
def time? (d : Date) (cs : List Char) : Option DateTime := do
  let (hour, rest) ← takeOneOrTwo (← skipSeparator cs)
  let (minute, rest) ← DateTime.takeDigits 2 (← expect ':' rest)
  let (second, rest) ← DateTime.takeDigits 2 (← expect ':' rest)
  let (micro, rest) := takeFraction rest
  let offset ← offset? rest
  some ⟨d, hour, minute, second, micro, offset⟩

/-- A day, in full, or a day and a time. -/
def moment? (cs : List Char) : Option (Except Error Value) := do
  let (year, rest) ← DateTime.takeDigits 4 cs
  let (month, rest) ← takeOneOrTwo (← expect '-' rest)
  let (day, rest) ← takeOneOrTwo (← expect '-' rest)
  let d : Date := ⟨year, month, day⟩
  if rest.isEmpty then
    if cs.length < 10 then none
    else some (if d.isValid then .ok (.date d) else .error .noSuchMoment)
  else
    let t ← time? d rest
    some (if t.isValid then .ok (.dateTime t) else .error .noSuchMoment)

/-! ## Scalars -/

/-- Plain scalars that only stand for something in documents with references. -/
def isReserved (s : String) : Bool := s = "<<" || s = "="

/-- What a plain scalar means. -/
def plainValue (s : String) : Except Error Value :=
  let cs := s.toList
  match word? s with
  | some v => .ok v
  | none =>
    match float? cs with
    | some v => .ok v
    | none =>
      match integer? cs with
      | some v => v
      | none =>
        match moment? cs with
        | some v => v
        | none => if isReserved s then .error .malformed else .ok (.str s)

end Verdict.Yaml
