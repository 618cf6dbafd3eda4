import Verdict.Number.Shortest
import Verdict.Text.Blank
import Verdict.Text.DecimalDigit

/-!
# Number/Numeral — numbers written in decimal

Writing: `FloatLayout` says how the shortest digits of a double are laid out.  Reading: integers
and doubles between white space, with digits of any script, single underscores between digits, and
for doubles the words for infinity and `nan`.

Integers of more than `maxIntegerDigits` digits are neither read nor written.
-/

namespace Verdict

/-- The longest integer that is read or written. -/
def maxIntegerDigits : Nat := 4300

/-- An integer in decimal; none when it is too long. -/
def integerText? (i : Int) : Option String :=
  let text := toString i.natAbs
  if maxIntegerDigits < text.length then none
  else some (if i < 0 then "-" ++ text else text)

/-! ## Laying out a double -/

/-- How doubles are written: a leading digit at `10 ^ e` with `leastPositional ≤ e` and
`e < firstScientific` is written positionally, all others with an exponent of two digits or more. -/
structure FloatLayout where
  leastPositional : Int
  firstScientific : Int
  nanText : String
  infinityText : String

namespace FloatLayout

/-- Digits with the point after `whole` of them, filled with zeros on either side; at least one
digit stands on each side of the point. -/
def positional (digits : List Char) (whole : Int) : List Char :=
  if whole ≤ 0 then '0' :: '.' :: List.replicate (-whole).toNat '0' ++ digits
  else
    let w := whole.toNat
    let padded := digits ++ List.replicate (w - digits.length) '0'
    let places := padded.drop w
    padded.take w ++ '.' :: (if places.isEmpty then ['0'] else places)

/-- Digits with the point after the first, and an exponent. -/
def scientific (digits : List Char) (exponent : Int) : List Char :=
  let places := digits.drop 1
  let e := Nat.toDigits 10 exponent.natAbs
  digits.take 1 ++ (if places.isEmpty then [] else '.' :: places) ++
  'e' :: (if exponent < 0 then '-' else '+') :: List.replicate (2 - e.length) '0' ++ e

/-- The layout of a magnitude. -/
def magnitude (layout : FloatLayout) (units : Nat) : List Char :=
  let d := Binary64.shortest units
  let digits := Nat.toDigits 10 d.digits
  let lead := d.exponent + digits.length - 1
  if layout.leastPositional ≤ lead && lead < layout.firstScientific then
    positional digits (lead + 1)
  else scientific digits lead

/-- The written form of a double. -/
def text (layout : FloatLayout) : Binary64 → String
  | .nan => layout.nanText
  | .infinite negative => (if negative then "-" else "") ++ layout.infinityText
  | .finite negative units =>
    (if negative then "-" else "") ++ String.ofList (layout.magnitude units)

end FloatLayout

/-! ## Reading -/

/-- White space around a number: of the ASCII characters only the blank, the tabs and the line
ends. -/
def isNumberBlank (c : Char) : Bool :=
  if c.toNat < 127 then c = ' ' || (9 ≤ c.toNat && c.toNat ≤ 13) else isBlank c

/-- Drop white space around a number. -/
def stripNumber (cs : List Char) : List Char :=
  ((cs.dropWhile isNumberBlank).reverse.dropWhile isNumberBlank).reverse

/-- Digits of any script as ASCII digits; other characters stay. -/
def plainDigits (cs : List Char) : List Char :=
  cs.map fun c => ((decimalDigit? c).map Nat.digitChar).getD c

/-- Drop underscores; none unless each of them stands between two digits. -/
def dropUnderscores? (cs : List Char) : Option (List Char) :=
  let rec go : Char → List Char → Option (List Char)
    | _, [] => some []
    | before, c :: rest =>
      if c = '_' then
        if before.isDigit && rest.head?.any Char.isDigit then go c rest else none
      else (go c rest).map (c :: ·)
  go ' ' cs

/-- A sign and the rest of a numeral. -/
def readSign : List Char → Bool × List Char
  | '-' :: rest => (true, rest)
  | '+' :: rest => (false, rest)
  | cs => (false, cs)

/-- The outcome of reading an integer. -/
inductive IntegerReading where
  | value (i : Int)
  | malformed
  /-- Well formed, but of this many digits. -/
  | tooLong (digits : Nat)

/-- Read an integer between white space. -/
def readInteger (s : String) : IntegerReading :=
  match dropUnderscores? (plainDigits (stripNumber s.toList)) with
  | none => .malformed
  | some cs =>
    let (negative, digits) := readSign cs
    if digits.isEmpty || !digits.all Char.isDigit then .malformed
    else if maxIntegerDigits < digits.length then .tooLong digits.length
    else
      let n : Int := (digitsValue digits : Nat)
      .value (if negative then -n else n)

/-- Read `digits`, `digits.digits` or either with an exponent, filling the text. -/
def readDecimal? (negative : Bool) (cs : List Char) : Option Binary64 := do
  let (whole, rest) := cs.span Char.isDigit
  let (places, rest) :=
    match rest with
    | '.' :: rest => rest.span Char.isDigit
    | _ => ([], rest)
  let exponent ←
    match rest with
    | [] => some (0 : Int)
    | e :: rest =>
      if e = 'e' || e = 'E' then
        let (negative, digits) := readSign rest
        if digits.isEmpty || !digits.all Char.isDigit then none
        else
          let n : Int := (digitsValue digits : Nat)
          some (if negative then -n else n)
      else none
  if whole.isEmpty && places.isEmpty then none
  else some (Binary64.ofDecimal negative (digitsValue (whole ++ places)) (exponent - places.length))

/-- Read a double between white space. -/
def readFloat? (s : String) : Option Binary64 := do
  let cs ← dropUnderscores? (plainDigits (stripNumber s.toList))
  let (negative, body) := readSign cs
  let word := body.map Char.toLower
  if word = "inf".toList || word = "infinity".toList then some (.infinite negative)
  else if word = "nan".toList then some .nan
  else readDecimal? negative body

end Verdict
