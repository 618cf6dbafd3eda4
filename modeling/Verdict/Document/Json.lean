import Verdict.Document.Error
import Verdict.Document.Written

/-!
# Document/Json — reading JSON

A number without a point and an exponent is an integer of any size, all others are doubles; the
words for doubles that are not finite are accepted.  Of fields with one name the last counts, at the
place of the first.

Nesting is bounded by the length of the text, which the readers take as fuel.
-/

namespace Verdict

namespace Json

open Document (Error)

/-- A reader takes a value off the front of a text. -/
abbrev Reader (α : Type) := List Char → Except Error (α × List Char)

/-- White space between tokens. -/
def isGap (c : Char) : Bool := c = ' ' || c = '\t' || c = '\n' || c = '\r'

/-- Drop white space. -/
def skipGap (cs : List Char) : List Char := cs.dropWhile isGap

/-- The value of a hexadecimal digit. -/
def hexDigit? (c : Char) : Option Nat :=
  if c.isDigit then some (c.toNat - 48)
  else if 'a' ≤ c && c ≤ 'f' then some (c.toNat - 87)
  else if 'A' ≤ c && c ≤ 'F' then some (c.toNat - 55)
  else none

/-- Four hexadecimal digits. -/
def readUnit? : List Char → Option (Nat × List Char)
  | a :: b :: c :: d :: rest => do
    let a ← hexDigit? a
    let b ← hexDigit? b
    let c ← hexDigit? c
    let d ← hexDigit? d
    some (((a * 16 + b) * 16 + c) * 16 + d, rest)
  | _ => none

/-- The first and the second half of a surrogate pair. -/
def isHighSurrogate (n : Nat) : Bool := 0xd800 ≤ n && n < 0xdc00
@[inherit_doc isHighSurrogate] def isLowSurrogate (n : Nat) : Bool := 0xdc00 ≤ n && n < 0xe000

/-- What stands for half of a surrogate pair on its own. -/
def replacementChar : Char := Char.ofNat 0xfffd

/-- A character given by its UTF-16 units, a pair where the first is a high surrogate. -/
def readEscapedUnits? (cs : List Char) : Option (Char × List Char) := do
  let (n, rest) ← readUnit? cs
  if isHighSurrogate n then
    match rest with
    | '\\' :: 'u' :: more =>
      match readUnit? more with
      | some (m, after) =>
        if isLowSurrogate m then
          some (Char.ofNat (0x10000 + (n - 0xd800) * 0x400 + (m - 0xdc00)), after)
        else some (replacementChar, rest)
      | none => some (replacementChar, rest)
    | _ => some (replacementChar, rest)
  else if isLowSurrogate n then some (replacementChar, rest)
  else some (Char.ofNat n, rest)

/-- The character after a backslash, other than `u`. -/
def simpleEscape? : Char → Option Char
  | '"' => some '"'
  | '\\' => some '\\'
  | '/' => some '/'
  | 'b' => some (Char.ofNat 8)
  | 'f' => some (Char.ofNat 12)
  | 'n' => some '\n'
  | 'r' => some '\r'
  | 't' => some '\t'
  | _ => none

/-- The rest of a text after its opening quote, onto the characters read so far, last first. -/
def readChars : Nat → List Char → List Char → Except Error (String × List Char)
  | 0, _, _ => .error .malformed
  | _ + 1, _, [] => .error .malformed
  | _ + 1, read, '"' :: rest => .ok (String.ofList read.reverse, rest)
  | fuel + 1, read, '\\' :: 'u' :: rest =>
    match readEscapedUnits? rest with
    | some (c, rest) => readChars fuel (c :: read) rest
    | none => .error .malformed
  | fuel + 1, read, '\\' :: c :: rest =>
    match simpleEscape? c with
    | some c => readChars fuel (c :: read) rest
    | none => .error .malformed
  | fuel + 1, read, c :: rest =>
    if c.toNat < 32 then .error .malformed else readChars fuel (c :: read) rest

/-- A text between quotes; the opening quote has been taken. -/
def readString : Reader String := fun cs => readChars (cs.length + 1) [] cs

/-- Digits, a sign before an exponent included, of the part of a numeral after `mark`. -/
def readTail (cs : List Char) : List Char × List Char := cs.span Char.isDigit

/-- A point and at least one digit. -/
def readPlaces : List Char → Option (List Char × List Char)
  | '.' :: rest =>
    let (digits, rest) := readTail rest
    if digits.isEmpty then none else some (digits, rest)
  | _ => none

/-- An exponent with at least one digit. -/
def readExponent : List Char → Option (Int × List Char)
  | e :: rest =>
    if e = 'e' || e = 'E' then
      let (negative, rest) := readSign rest
      let (digits, rest) := readTail rest
      let n : Int := (digitsValue digits : Nat)
      if digits.isEmpty then none else some (if negative then -n else n, rest)
    else none
  | [] => none

/-- A number. -/
def readNumber : Reader Value := fun cs =>
  let (negative, body) :=
    match cs with
    | '-' :: rest => (true, rest)
    | _ => (false, cs)
  let (whole, rest) :=
    match body with
    | '0' :: rest => (['0'], rest)
    | _ => readTail body
  if whole.isEmpty then .error .malformed
  else
    let n := digitsValue whole
    match readPlaces rest, readExponent ((readPlaces rest).elim rest Prod.snd) with
    | none, none =>
      if maxIntegerDigits < whole.length then .error (.limit (.numeralTooLong whole.length))
      else .ok (.int (if negative then -(n : Int) else n), rest)
    | some (places, rest), none =>
      .ok (.float (Binary64.ofDecimal negative (digitsValue (whole ++ places)) (-places.length)), rest)
    | none, some (exponent, rest) => .ok (.float (Binary64.ofDecimal negative n exponent), rest)
    | some (places, _), some (exponent, rest) =>
      .ok (.float (Binary64.ofDecimal negative (digitsValue (whole ++ places))
        (exponent - places.length)), rest)

/-- The words for values. -/
def words : List (String × Value) := [
  ("null", .null), ("true", .bool true), ("false", .bool false), ("NaN", .float .nan),
  ("Infinity", .float (.infinite false)), ("-Infinity", .float (.infinite true))]

/-- A word for a value. -/
def readWord? (cs : List Char) : Option (Value × List Char) :=
  words.findSome? fun (word, v) =>
    if word.toList.isPrefixOf cs then some (v, cs.drop word.length) else none

mutual

/-- A value, after white space. -/
def readValue : Nat → Reader Value
  | 0, _ => .error .malformed
  | fuel + 1, cs =>
    match skipGap cs with
    | '"' :: rest => do
      let (s, rest) ← readString rest
      .ok (.str s, rest)
    | '[' :: rest =>
      match skipGap rest with
      | ']' :: rest => .ok (.ofItems [], rest)
      | _ => readItems fuel [] rest
    | '\x7b' :: rest =>
      match skipGap rest with
      | '\x7d' :: rest => .ok (.ofFields [], rest)
      | _ => readFields fuel [] rest
    | cs =>
      match readWord? cs with
      | some found => .ok found
      | none => readNumber cs

/-- The items of a list up to its bracket, onto those read so far, last first. -/
def readItems : Nat → List Value → Reader Value
  | 0, _, _ => .error .malformed
  | fuel + 1, read, cs => do
    let (v, rest) ← readValue fuel cs
    match skipGap rest with
    | ',' :: rest => readItems fuel (v :: read) rest
    | ']' :: rest => .ok (.ofItems (v :: read).reverse, rest)
    | _ => .error .malformed

/-- The fields of an object up to its brace, onto those read so far, last first. -/
def readFields : Nat → List (String × Value) → Reader Value
  | 0, _, _ => .error .malformed
  | fuel + 1, read, cs =>
    match skipGap cs with
    | '"' :: rest => do
      let (k, rest) ← readString rest
      match skipGap rest with
      | ':' :: rest => do
        let (v, rest) ← readValue fuel rest
        match skipGap rest with
        | ',' :: rest => readFields fuel ((k, v) :: read) rest
        | '\x7d' :: rest => .ok (.ofPairs ((k, v) :: read).reverse, rest)
        | _ => .error .malformed
      | _ => .error .malformed
    | _ => .error .malformed

end

/-- Read a whole text. -/
def ofChars (cs : List Char) : Except Error Value := do
  let (v, rest) ← readValue (2 * cs.length + 2) cs
  if (skipGap rest).isEmpty then .ok v else .error .malformed

/-- Read a whole text. -/
def ofText (s : String) : Except Error Value := ofChars s.toList

end Json

end Verdict
