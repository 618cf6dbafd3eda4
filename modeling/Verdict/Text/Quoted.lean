import Verdict.Text.Printable

/-!
# Text/Quoted — texts between quotes

Two written forms of a text:

* `quote` — the form inside a displayed value: single quotes, or double quotes when the text holds
  a single quote and no double one; unprintable characters become escapes.
* `quoteAscii` — the form inside a written document: double quotes and ASCII only, a character
  beyond the basic plane as two surrogates.
-/

namespace Verdict

/-- The hexadecimal digits of `n`, at least `width` of them. -/
def hexDigits (width n : Nat) : List Char :=
  let digits := Nat.toDigits 16 n
  List.replicate (width - digits.length) '0' ++ digits

/-- The escape of an unprintable character, as short as its code point allows. -/
def escapeUnprintable (c : Char) : List Char :=
  let n := c.toNat
  if n < 0x100 then '\\' :: 'x' :: hexDigits 2 n
  else if n < 0x10000 then '\\' :: 'u' :: hexDigits 4 n
  else '\\' :: 'U' :: hexDigits 8 n

/-- One character between quotes of the given kind. -/
def escapeChar (mark c : Char) : List Char :=
  if c = mark || c = '\\' then ['\\', c]
  else if c = '\n' then ['\\', 'n']
  else if c = '\r' then ['\\', 'r']
  else if c = '\t' then ['\\', 't']
  else if isPrintable c then [c]
  else escapeUnprintable c

/-- The kind of quote a displayed text takes. -/
def quoteMark (cs : List Char) : Char :=
  if cs.contains '\'' && !cs.contains '"' then '"' else '\''

/-- A text as it is shown inside a displayed value. -/
def quote (s : String) : String :=
  let cs := s.toList
  let mark := quoteMark cs
  String.ofList (mark :: cs.flatMap (escapeChar mark) ++ [mark])

/-- A UTF-16 unit as an escape. -/
def escapeUnit (unit : Nat) : List Char := '\\' :: 'u' :: hexDigits 4 unit

/-- One character of a written document. -/
def escapeAscii (c : Char) : List Char :=
  let n := c.toNat
  if c = '"' || c = '\\' then ['\\', c]
  else if c = '\n' then ['\\', 'n']
  else if c = '\r' then ['\\', 'r']
  else if c = '\t' then ['\\', 't']
  else if n = 8 then ['\\', 'b']
  else if n = 12 then ['\\', 'f']
  else if 32 ≤ n && n < 127 then [c]
  else if n < 0x10000 then escapeUnit n
  else escapeUnit (0xd800 + (n - 0x10000) / 0x400) ++ escapeUnit (0xdc00 + (n - 0x10000) % 0x400)

/-- A text as it is written in a document. -/
def quoteAscii (s : String) : String :=
  String.ofList ('"' :: s.toList.flatMap escapeAscii ++ ['"'])

example : quote "it's" = "\"it's\"" := by decide
example : quote "\"it's\"" = "'\"it\\'s\"'" := by decide
example : quoteAscii "é😀" = "\"\\u00e9\\ud83d\\ude00\"" := by decide

end Verdict
