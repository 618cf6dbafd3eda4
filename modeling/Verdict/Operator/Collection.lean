import Verdict.Operator.Order
import Verdict.Text.Part
import Verdict.Value.Display

/-!
# Operator/Collection — lists, and texts against lists
-/

namespace Verdict.Value

/-- A list that holds an item. -/
def holds (c v : Value) : Bool :=
  match c with
  | .list _ items => contains items v
  | _ => false

/-- Two lists with a common item. -/
def holdsAny (c v : Value) : Bool :=
  match c, v with
  | .list _ items, .list _ wanted => items.any fun item => contains wanted item
  | _, _ => false

/-- A list that holds every item of another. -/
def holdsAll (c v : Value) : Bool :=
  match c, v with
  | .list _ items, .list _ wanted => wanted.all fun item => contains items item
  | _, _ => false

/-- A value as it is looked for in a text. -/
def sought : Value → Except Fault String
  | .bool b => .ok (if b then "true" else "false")
  | .null => .ok "null"
  | v => v.plain

/-- A text in which some item of a list occurs. -/
def mentionsAny (c v : Value) : Except Fault Bool :=
  match c, v with
  | .str s, .list _ items => items.anyM fun item => item.sought.map fun part => isPartOf part s
  | _, _ => .ok false

/-- A text in which every item of a list occurs. -/
def mentionsAll (c v : Value) : Except Fault Bool :=
  match c, v with
  | .str s, .list _ items => items.allM fun item => item.sought.map fun part => isPartOf part s
  | _, _ => .ok false

/-- The number of items of a list, as a value. -/
def size? : Value → Option Value
  | .list _ items => some (.int items.length)
  | _ => none

/-- The number of characters of a text, as a value. -/
def length? : Value → Option Value
  | .str s => some (.int s.length)
  | _ => none

/-- Whether a count is there, the value is a number, and the two compare. -/
def countIs (compare : Value → Value → Bool) (count : Option Value) (v : Value) : Bool :=
  v.isNumber && count.any fun n => compare n v

end Verdict.Value
