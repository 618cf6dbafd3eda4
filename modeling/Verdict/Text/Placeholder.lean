import Verdict.Number.Places
import Verdict.Value.Display

/-!
# Text/Placeholder — texts with placeholders

A placeholder begins with `%`.  It may name a field in parentheses; flags, a least width and a
precision may follow, and a letter that says how the value is written ends it.  `%%` is a per cent
sign.
-/

namespace Verdict

/-- Why placeholders cannot be filled. -/
inductive Placeholder.Error where
  /-- A value of the wrong kind, too few values, or too many. -/
  | mismatch
  /-- A field that the values lack. -/
  | missing (name : String)
  /-- A text that ends inside a placeholder. -/
  | incomplete
  /-- A text that ends inside the name of a field. -/
  | incompleteName
  /-- A letter that says nothing, and its place in the text. -/
  | unknownLetter (c : Char) (place : Nat)
  /-- A double that is no number. -/
  | notANumber
  /-- A number beyond a limit. -/
  | tooLarge
  | limit (f : Fault)

namespace Placeholder

/-- The wording of an error. -/
def Error.message : Error → String
  | .mismatch => "The values do not match the placeholders."
  | .missing name => quote name
  | .incomplete => "incomplete format"
  | .incompleteName => "incomplete format key"
  | .unknownLetter c place =>
    "unsupported format character '" ++
    String.singleton (if 31 ≤ c.toNat && c.toNat < 128 then c else '?') ++
    "' (0x" ++ String.ofList (Nat.toDigits 16 c.toNat) ++ ") at index " ++ toString place
  | .notANumber => "cannot convert float NaN to integer"
  | .tooLarge => "The number is too large."
  | .limit f => f.message

/-- What stands in placeholders: values in order, or an object with fields. -/
inductive Values where
  | inOrder (vs : List Value)
  | fields (v : Value)

/-- The values that are left, and the object that has the fields. -/
structure Supply where
  object : Option Value
  queue : List Value

/-- All values. -/
def Values.supply : Values → Supply
  | .inOrder vs => ⟨none, vs⟩
  | .fields v => ⟨some v, [v]⟩

/-- The next value. -/
def Supply.next (s : Supply) : Except Error (Value × Supply) :=
  match s.queue with
  | v :: rest => .ok (v, { s with queue := rest })
  | [] => .error .mismatch

/-- The flags of a placeholder. -/
structure Flags where
  left : Bool
  plus : Bool
  blank : Bool
  alternate : Bool
  zero : Bool

/-- The flags among some characters. -/
def Flags.ofChars (cs : List Char) : Flags :=
  ⟨cs.contains '-', cs.contains '+', cs.contains ' ', cs.contains '#', cs.contains '0'⟩

/-- How a value is written. -/
structure Style where
  flags : Flags
  width : Nat
  precision : Option Nat

/-! ## Writing values -/

/-- What a value comes to: a sign, a mark of the base, the rest, and whether zeros may fill it. -/
structure Piece where
  sign : List Char
  base : List Char
  body : List Char
  isNumber : Bool

/-- A piece at its width. -/
def Piece.padded (p : Piece) (style : Style) : List Char :=
  let missing := style.width - (p.sign.length + p.base.length + p.body.length)
  if style.flags.left then p.sign ++ p.base ++ p.body ++ List.replicate missing ' '
  else if p.isNumber && style.flags.zero then p.sign ++ p.base ++ List.replicate missing '0' ++ p.body
  else List.replicate missing ' ' ++ p.sign ++ p.base ++ p.body

/-- The sign of a number. -/
def signOf (flags : Flags) (negative : Bool) : List Char :=
  if negative then ['-'] else if flags.plus then ['+'] else if flags.blank then [' '] else []

/-- A text cut to the precision. -/
def textPiece (style : Style) (text : String) : Piece :=
  let cs := text.toList
  ⟨[], [], (style.precision.map fun n => cs.take n).getD cs, false⟩

/-- A displayed value with all other characters than ASCII escaped. -/
def inAscii (text : String) : String :=
  String.ofList (text.toList.flatMap fun c => if c.toNat < 128 then [c] else escapeUnprintable c)

/-- An integer in a base, with at least as many digits as the precision. -/
def integerPiece (style : Style) (base : List Char) (digits : List Char) (negative : Bool) : Piece :=
  let zeros := List.replicate (style.precision.getD 0 - digits.length) '0'
  ⟨signOf style.flags negative, if style.flags.alternate then base else [], zeros ++ digits, true⟩

/-- The integer that a number comes to toward zero. -/
def wholeOf : Value → Except Error Int
  | .bool b => .ok (if b then 1 else 0)
  | .int i => .ok i
  | .float .nan => .error .notANumber
  | .float (.infinite _) => .error .tooLarge
  | .float x => .ok (x.truncate?.getD 0)
  | _ => .error .mismatch

/-- An integer, and no other number. -/
def integerOf : Value → Except Error Int
  | .bool b => .ok (if b then 1 else 0)
  | .int i => .ok i
  | _ => .error .mismatch

/-- A number as a double. -/
def doubleOf : Value → Except Error Binary64
  | .bool b => .ok (Binary64.ofInt (if b then 1 else 0))
  | .int i =>
    match Binary64.ofInt i with
    | .infinite _ => .error .tooLarge
    | x => .ok x
  | .float x => .ok x
  | _ => .error .mismatch

/-- A double by one of the letters `e`, `f` and `g`. -/
def doublePiece (style : Style) (letter : Char) (x : Binary64) : Piece :=
  let places := style.precision.getD 6
  let alternate := style.flags.alternate
  let (negative, body) :=
    match x with
    | .nan => (false, ['n', 'a', 'n'])
    | .infinite negative => (negative, ['i', 'n', 'f'])
    | .finite negative units =>
      (negative,
        match letter.toLower with
        | 'f' => Binary64.fixed units places alternate
        | 'e' => Binary64.scientific units places alternate
        | _ => Binary64.general units places alternate)
  ⟨signOf style.flags negative, [], if letter.isUpper then body.map Char.toUpper else body, true⟩

/-- A character, or the number of one. -/
def characterPiece : Value → Except Error Piece
  | .str s =>
    match s.toList with
    | [c] => .ok ⟨[], [], [c], false⟩
    | _ => .error .mismatch
  | v => do
    let n ← integerOf v
    if 0 ≤ n && n < 0x110000 then .ok ⟨[], [], [Char.ofNat n.toNat], false⟩ else .error .tooLarge

/-- What a value comes to by a letter that stands at a place. -/
def piece (style : Style) (letter : Char) (place : Nat) (v : Value) : Except Error Piece :=
  match letter with
  | 's' => (v.plain.mapError Error.limit).map (textPiece style)
  | 'r' => (v.display.mapError Error.limit).map (textPiece style)
  | 'a' => (v.display.mapError Error.limit).map fun s => textPiece style (inAscii s)
  | 'd' | 'i' | 'u' => do
    let n ← wholeOf v
    let text ← (Value.integerText n.natAbs).mapError Error.limit
    .ok (integerPiece style [] text.toList (n < 0))
  | 'x' | 'X' | 'o' => do
    let n ← integerOf v
    let digits := Nat.toDigits (if letter = 'o' then 8 else 16) n.natAbs
    .ok (integerPiece style ['0', letter] (if letter = 'X' then digits.map Char.toUpper else digits) (n < 0))
  | 'e' | 'E' | 'f' | 'F' | 'g' | 'G' => (doubleOf v).map (doublePiece style letter)
  | 'c' => characterPiece v
  | c => .error (.unknownLetter c place)

/-! ## Reading placeholders -/

/-- The name of a field up to the closing parenthesis that belongs to the opening one. -/
def takeName : Nat → List Char → Option (List Char × List Char)
  | _, [] => none
  | 0, ')' :: rest => some ([], rest)
  | depth, c :: rest =>
    let depth := if c = '(' then depth + 1 else if c = ')' then depth - 1 else depth
    (takeName depth rest).map fun (name, rest) => (c :: name, rest)

/-- A field that is named in parentheses becomes the only value left. -/
def takeField (s : Supply) : List Char → Except Error (Supply × List Char)
  | '(' :: rest =>
    match s.object with
    | none => .error .mismatch
    | some v =>
      match takeName 0 rest with
      | none => .error .incompleteName
      | some (name, rest) =>
        let name := String.ofList name
        match v.get? name with
        | none => .error (.missing name)
        | some found => .ok ({ s with queue := [found] }, rest)
  | cs => .ok (s, cs)

/-- The largest width and precision. -/
def maxNumber : Nat := 2147483647

/-- A number in digits, or one of the values for an asterisk. -/
def takeNumber (s : Supply) : List Char → Except Error (Option Int × Supply × List Char)
  | '*' :: rest => do
    let (v, s) ← s.next
    let n ← integerOf v
    if n.natAbs ≤ maxNumber then .ok (some n, s, rest) else .error .tooLarge
  | cs => do
    let (digits, rest) := cs.span Char.isDigit
    let n := digitsValue digits
    if n ≤ maxNumber then .ok (if digits.isEmpty then none else some (n : Int), s, rest)
    else .error .tooLarge

/-- Drop the mark of a precision, then read it. -/
def takePrecision (s : Supply) : List Char → Except Error (Option Nat × Supply × List Char)
  | '.' :: rest => do
    let (n, s, rest) ← takeNumber s rest
    .ok (some (n.getD 0).toNat, s, rest)
  | cs => .ok (none, s, cs)

/-- Drop a letter that would tell the size of a number. -/
def dropSize : List Char → List Char
  | c :: rest => if c = 'h' || c = 'l' || c = 'L' then rest else c :: rest
  | [] => []

/-- Fill a placeholder after its per cent sign, in a text of some length. -/
def fillOne (length : Nat) (s : Supply) (cs : List Char) : Except Error (List Char × Supply × List Char) := do
  let (s, cs) ← takeField s cs
  let (flags, cs) := cs.span ['-', '+', ' ', '#', '0'].contains
  let flags := Flags.ofChars flags
  let (width, s, cs) ← takeNumber s cs
  let (precision, s, cs) ← takePrecision s cs
  let width := width.getD 0
  let style : Style := ⟨{ flags with left := flags.left || width < 0 }, width.natAbs, precision⟩
  match dropSize cs with
  | [] => .error .incomplete
  | letter :: rest => do
    let (v, s) ← s.next
    let p ← piece style letter (length - rest.length - 1) v
    .ok (p.padded style, s, rest)

/-- Fill all placeholders of a text onto what has been written, last first. -/
def fillAll (length : Nat) : Nat → List Char → Supply → List Char → Except Error (List Char × Supply)
  | 0, _, _, _ => .error .incomplete
  | _ + 1, written, s, [] => .ok (written.reverse, s)
  | fuel + 1, written, s, '%' :: '%' :: rest => fillAll length fuel ('%' :: written) s rest
  | fuel + 1, written, s, '%' :: rest => do
    let (text, s, rest) ← fillOne length s rest
    fillAll length fuel (text.reverse ++ written) s rest
  | fuel + 1, written, s, c :: rest => fillAll length fuel (c :: written) s rest

/-- Fill the placeholders of a text.  Values in order must all be used. -/
def fill (text : String) (values : Values) : Except Error String := do
  let cs := text.toList
  let (written, s) ← fillAll cs.length (cs.length + 1) [] values.supply cs
  if s.object.isNone && !s.queue.isEmpty then .error .mismatch else .ok (String.ofList written)

end Placeholder

end Verdict
