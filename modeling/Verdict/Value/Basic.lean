import Verdict.Calendar.Instant
import Verdict.Entries
import Verdict.Number.Binary64

/-!
# Value/Basic — the values that rules and criteria are made of

A `Value` is what a document can hold, together with days and instants.  Objects keep the order of
their fields.

A container that occurs in several places of a document carries a **mark**: containers with the same
mark are one container, and one without a mark occurs only where it stands.  Nothing but identity
depends on marks (`sameContainer`).
-/

namespace Verdict

/-- What makes several occurrences of a container one; none for a container that occurs once. -/
abbrev Mark := Option Nat

/-- A value of a rule, of criteria or of a result. -/
inductive Value where
  | null
  | bool (b : Bool)
  | int (i : Int)
  | float (x : Binary64)
  | str (s : String)
  | date (d : Date)
  | dateTime (t : DateTime)
  | list (mark : Mark) (items : List Value)
  | object (mark : Mark) (fields : List (String × Value))
  deriving Repr, Inhabited

namespace Value

/-- What a value is called when kinds are compared. -/
inductive Kind where
  | null | boolean | number | string | array | object | date | dateTime
  deriving DecidableEq, Repr

/-- The name of a kind. -/
def Kind.name : Kind → String
  | .null => "null"
  | .boolean => "boolean"
  | .number => "number"
  | .string => "string"
  | .array => "array"
  | .object => "object"
  | .date => "date"
  | .dateTime => "datetime"

/-- The kind of a value.  A truth value is not a number. -/
def kind : Value → Kind
  | .null => .null
  | .bool _ => .boolean
  | .int _ | .float _ => .number
  | .str _ => .string
  | .list .. => .array
  | .object .. => .object
  | .date _ => .date
  | .dateTime _ => .dateTime

/-- A list that occurs once. -/
def ofItems (items : List Value) : Value := .list none items

/-- An object that occurs once. -/
def ofFields (fields : List (String × Value)) : Value := .object none fields

/-- The field of a name; none also for a value that is not an object. -/
def get? (key : String) : Value → Option Value
  | .object _ fields => Entries.find? key fields
  | _ => none

/-- Whether a value is an object with a field of a name. -/
def hasField (key : String) (v : Value) : Bool := (v.get? key).isSome

/-- The field of a name, `null` when it is missing. -/
def getOrNull (key : String) (v : Value) : Value := (v.get? key).getD .null

/-- An object of a list of fields, the last field of a name counting, at the place of the first. -/
def ofPairs (pairs : List (String × Value)) : Value :=
  ofFields (Entries.ofList pairs)

/-- `null` and nothing else. -/
def isNull : Value → Bool
  | .null => true
  | _ => false

/-- An integer or a finite double. -/
def isNumber : Value → Bool
  | .int _ => true
  | .float x => x.isFinite
  | _ => false

/-- The exact magnitude of a number, in units of doubles. -/
def scaled? : Value → Option Int
  | .int i => some (Binary64.scaleInt i)
  | .float x => x.scaled?
  | _ => none

/-- The characters of a text. -/
def text? : Value → Option String
  | .str s => some s
  | _ => none

/-- The items of a list. -/
def items? : Value → Option (List Value)
  | .list _ items => some items
  | _ => none

/-- The two items of a list of two. -/
def pair? : Value → Option (Value × Value)
  | .list _ [a, b] => some (a, b)
  | _ => none

/-- Whether a value counts as true in the sense that zero, nothing and the empty do not. -/
def isTruthy : Value → Bool
  | .null => false
  | .bool b => b
  | .int i => i != 0
  | .float (.finite _ units) => units != 0
  | .float _ => true
  | .str s => s != ""
  | .list _ items => !items.isEmpty
  | .object _ fields => !fields.isEmpty
  | .date _ | .dateTime _ => true

/-- The mark of a container. -/
def mark : Value → Mark
  | .list m _ | .object m _ => m
  | _ => none

end Value

end Verdict
