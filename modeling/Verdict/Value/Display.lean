import Verdict.Fault
import Verdict.Number.Numeral
import Verdict.Text.Quoted
import Verdict.Value.Basic

/-!
# Value/Display — values as they read in messages

`display` is the form a value takes inside another one, `plain` the form it takes on its own, where
a text stands without quotes.  Both stop at an integer that is too long to be written.
-/

namespace Verdict.Value

/-- Doubles keep a place after the point; exponents start at `1e16` and below `1e-04`. -/
def floats : FloatLayout := ⟨-4, 16, "nan", "inf"⟩

/-- The decimal text of an integer. -/
def integerText (i : Int) : Except Fault String :=
  match integerText? i with
  | some text => .ok text
  | none => .error .integerTooLong

mutual

/-- A value inside another one. -/
def display : Value → Except Fault String
  | .null => .ok "None"
  | .bool b => .ok (if b then "True" else "False")
  | .int i => integerText i
  | .float x => .ok (floats.text x)
  | .str s => .ok (quote s)
  | .date d => .ok d.display
  | .dateTime t => .ok t.display
  | .list _ items => do
    let parts ← displayItems items
    .ok ("[" ++ ", ".intercalate parts ++ "]")
  | .object _ fields => do
    let parts ← displayFields fields
    .ok ("\x7b" ++ ", ".intercalate parts ++ "\x7d")

/-- The items of a list. -/
def displayItems : List Value → Except Fault (List String)
  | [] => .ok []
  | v :: rest => do
    let text ← display v
    let texts ← displayItems rest
    .ok (text :: texts)

/-- The fields of an object, a colon after each name. -/
def displayFields : List (String × Value) → Except Fault (List String)
  | [] => .ok []
  | (k, v) :: rest => do
    let text ← display v
    let texts ← displayFields rest
    .ok ((quote k ++ ": " ++ text) :: texts)

end

/-- A value on its own: texts without quotes, days and instants in their written form. -/
def plain : Value → Except Fault String
  | .str s => .ok s
  | .date d => .ok d.toIso
  | .dateTime t => .ok (t.toIsoWith " ")
  | v => display v

end Verdict.Value
