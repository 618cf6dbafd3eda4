import Verdict.Path.Resolve
import Verdict.Text.LetterCase
import Verdict.Value.Marking

/-!
# Mutation/Transform — transforms of one field

A transform takes the value of a field and the criteria it stands in, and gives a new value or a
fault.  It may pause before it does so.
-/

namespace Verdict

/-- A transform. -/
structure Transform where
  /-- How often it pauses before it looks at anything. -/
  pauses : Nat
  apply : (value criteria : Value) → Except Fault Value

namespace Transform

/-- A number, where a truth value is zero or one, twice; a text or a list, repeated. -/
def double : Value → Except Fault Value
  | .bool b => .ok (.int (if b then 2 else 0))
  | .int i => .ok (.int (2 * i))
  | .float x => .ok (.float x.double)
  | .str s => .ok (.str (s ++ s))
  | .list _ items => .ok (.ofItems (items ++ items))
  | _ => .error .wrongKind

/-- A number as a double, unless it is too large for one. -/
def toDouble (i : Int) : Except Fault Binary64 :=
  match Binary64.ofInt i with
  | .infinite _ => .error .integerBeyondDoubles
  | x => .ok x

/-- The sum of two numbers, where a truth value is zero or one.  A double makes the sum one. -/
def sum (a b : Value) : Except Fault Value :=
  match a, b with
  | .int i, .int j => .ok (.int (i + j))
  | .int i, .float y => (toDouble i).map fun x => .float (x.add y)
  | .float x, .int j => (toDouble j).map fun y => .float (x.add y)
  | .float x, .float y => .ok (.float (x.add y))
  | _, _ => .error .wrongKind

/-- A truth value as a number, any other value as it is. -/
def asNumber : Value → Value
  | .bool b => .int (if b then 1 else 0)
  | v => v

/-- A text in capitals, any other value as it is. -/
def upper : Value → Value
  | .str s => .str (upperText s)
  | v => v

/-- What a path leads to in the criteria, `null` when it leads nowhere. -/
def field (path criteria : Value) : Except Fault Value :=
  (Path.resolveValue path criteria).map fun found => found.getD .null

/-- Doubling. -/
def doubling (pauses : Nat) : Transform := ⟨pauses, fun v _ => double v⟩

/-- Adding a number. -/
def adding (n : Value) (pauses : Nat) : Transform := ⟨pauses, fun v _ => sum (asNumber v) (asNumber n)⟩

/-- Writing in capitals. -/
def uppering (pauses : Nat) : Transform := ⟨pauses, fun v _ => .ok (upper v)⟩

/-- A constant, in a new copy each time. -/
def constant (v : Value) (pauses : Nat) : Transform := ⟨pauses, fun _ _ => .ok v.unmarked⟩

/-- Another field of the criteria. -/
def copying (path : Value) (pauses : Nat) : Transform := ⟨pauses, fun _ criteria => field path criteria⟩

/-- Giving up with a message. -/
def failing (message : String) (pauses : Nat) : Transform :=
  ⟨pauses, fun _ _ => .error (.gaveUp message)⟩

end Transform

end Verdict
