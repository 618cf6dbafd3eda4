import Verdict.Fault
import Verdict.Number.Numeral
import Verdict.Text.Blank
import Verdict.Text.DecimalDigit

/-!
# Path/Segment — reading paths

A path is a list of segments: a key after a point or between brackets and quotes, an index between
brackets, or a wildcard.  `render` writes segments in the plainest form, and `ofChars` reads them
back.
-/

namespace Verdict

/-- One step of a path. -/
inductive Segment where
  | key (name : String)
  /-- An item counted from the front, or from the back when negative. -/
  | index (i : Int)
  /-- All items or all fields. -/
  | every
  deriving DecidableEq, Repr

namespace Segment

/-- A character of a key after a point. -/
def isKeyChar (c : Char) : Bool := c != '.' && c != '[' && c != ']'

/-- A key after a point, where an asterisk alone is the wildcard. -/
def ofKey (cs : List Char) : Segment := if cs = ['*'] then .every else .key (String.ofList cs)

/-- White space and a closing bracket. -/
def closeBracket? (cs : List Char) : Option (List Char) :=
  match cs.dropWhile isBlank with
  | ']' :: rest => some rest
  | _ => none

/-- The digits of an index, and what follows its bracket. -/
def readIndex? (cs : List Char) : Option (Bool × List Char × List Char) :=
  let (negative, body) :=
    match cs with
    | '-' :: rest => (true, rest)
    | _ => (false, cs)
  let digits := body.takeWhile isDecimalDigit
  if digits.isEmpty then none
  else (closeBracket? (body.dropWhile isDecimalDigit)).map fun rest => (negative, digits, rest)

/-- A quoted key: it ends at the first quote that a bracket follows, and holds no line end. -/
def readQuoted? (mark : Char) : List Char → Option (List Char × List Char)
  | [] => none
  | c :: rest =>
    match (if c = mark then closeBracket? rest else none) with
    | some rest => some ([], rest)
    | none =>
      if c = '\n' then none
      else (readQuoted? mark rest).map fun (inner, rest) => (c :: inner, rest)

/-- An index of too many digits is a fault. -/
def ofDigits (negative : Bool) (digits : List Char) : Except Fault Segment :=
  if maxIntegerDigits < digits.length then .error (.numeralTooLong digits.length)
  else
    let n : Int := (digitsValue digits : Nat)
    .ok (.index (if negative then -n else n))

/-- The inside of brackets, and what follows them. -/
def readBracket? (cs : List Char) : Except Fault (Option (Segment × List Char)) :=
  let cs := cs.dropWhile isBlank
  match readIndex? cs with
  | some (negative, digits, rest) => (ofDigits negative digits).map fun segment => some (segment, rest)
  | none =>
    .ok <|
      match cs with
      | '*' :: rest => (closeBracket? rest).map (Segment.every, ·)
      | mark :: rest =>
        if mark = '\'' || mark = '"' then
          (readQuoted? mark rest).map fun (inner, rest) => (.key (String.ofList inner), rest)
        else none
      | [] => none

/-- The first segment of a text, and what follows it. -/
def read? : List Char → Except Fault (Option (Segment × List Char))
  | '.' :: rest =>
    let inner := rest.takeWhile isKeyChar
    .ok (if inner.isEmpty then none else some (ofKey inner, rest.dropWhile isKeyChar))
  | '[' :: rest => readBracket? rest
  | _ => .ok none

/-- Read segments up to the end of a text; `fuel` bounds their number. -/
def readAll : Nat → List Char → Except Fault (Option (List Segment))
  | _, [] => .ok (some [])
  | 0, _ :: _ => .ok none
  | fuel + 1, cs@(_ :: _) =>
    match read? cs with
    | .error f => .error f
    | .ok none => .ok none
    | .ok (some (segment, rest)) =>
      match readAll fuel rest with
      | .error f => .error f
      | .ok none => .ok none
      | .ok (some segments) => .ok (some (segment :: segments))

/-- The text with the point that a leading key may do without. -/
def withPoint : List Char → List Char
  | [] => []
  | c :: rest => if c = '.' || c = '[' then c :: rest else '.' :: c :: rest

/-- Read a path without its dollar sign; none when some character belongs to no segment. -/
def ofChars (cs : List Char) : Except Fault (Option (List Segment)) :=
  readAll (cs.length + 1) (withPoint cs)

/-- A key that may be written after a point. -/
def isPlainKey (cs : List Char) : Bool := !cs.isEmpty && cs.all isKeyChar && cs != ['*']

/-- A segment as it is written: a key after a point where it may be, else between quotes. -/
def render : Segment → List Char
  | .key name =>
    let cs := name.toList
    if isPlainKey cs then '.' :: cs else '[' :: '\'' :: cs ++ ['\'', ']']
  | .index i => '[' :: (toString i).toList ++ [']']
  | .every => ['[', '*', ']']

example : (ofChars "a.b[0]['odd key'].*".toList).toOption =
    some (some [.key "a", .key "b", .index 0, .key "odd key", .every]) := by decide

end Segment

end Verdict
