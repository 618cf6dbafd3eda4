import Verdict.Fault
import Verdict.Value.Basic

/-!
# Operator/Basic — what an operator is

An operator tests the value of a field against the value of a constraint.  It belongs to a category
and says which types of fields it is meant for.

* `Test.inverse` — the test that holds where another fails; `Test.inverse_apply` states it.
-/

namespace Verdict

/-- A test of a field's value against the value of a constraint. -/
abbrev Test := Value → Value → Except Fault Bool

namespace Test

/-- A test that always decides. -/
def ofRelation (holds : Value → Value → Bool) : Test := fun c v => .ok (holds c v)

/-- A test that looks at the field's value alone. -/
def ofProperty (holds : Value → Bool) : Test := fun c _ => .ok (holds c)

/-- The test that holds where another fails. -/
def inverse (t : Test) : Test := fun c v => (t c v).map (!·)

@[simp] theorem inverse_ofRelation (holds : Value → Value → Bool) :
    (ofRelation holds).inverse = ofRelation fun c v => !holds c v := rfl

@[simp] theorem inverse_ofProperty (holds : Value → Bool) :
    (ofProperty holds).inverse = ofProperty fun c => !holds c := rfl

theorem inverse_apply {t : Test} {c v : Value} {b : Bool} (h : t c v = .ok b) :
    t.inverse c v = .ok (!b) := by
  simp [inverse, h, Except.map]

end Test

/-- The families of operators. -/
inductive Category where
  | comparison | array | string | pattern | numeric | type | boolean | existence | dateTime | custom
  deriving DecidableEq, Repr

namespace Category

/-- All categories. -/
def all : List Category :=
  [.comparison, .array, .string, .pattern, .numeric, .type, .boolean, .existence, .dateTime, .custom]

/-- The name of a category. -/
def name : Category → String
  | .comparison => "comparison"
  | .array => "array"
  | .string => "string"
  | .pattern => "pattern"
  | .numeric => "numeric"
  | .type => "type"
  | .boolean => "boolean"
  | .existence => "existence"
  | .dateTime => "date_time"
  | .custom => "custom"

/-- The category of a name. -/
def ofName? (s : String) : Option Category := all.find? fun c => c.name == s

theorem ofName?_name (c : Category) : ofName? c.name = some c := by cases c <;> decide

end Category

/-- The types of fields. -/
inductive FieldType where
  | any | array | boolean | date | number | object | string | time
  deriving DecidableEq, Repr

namespace FieldType

/-- All types, in the order of their names. -/
def all : List FieldType := [.any, .array, .boolean, .date, .number, .object, .string, .time]

/-- The name of a type. -/
def name : FieldType → String
  | .any => "any"
  | .array => "array"
  | .boolean => "boolean"
  | .date => "date"
  | .number => "number"
  | .object => "object"
  | .string => "string"
  | .time => "time"

/-- The type of a name. -/
def ofName? (s : String) : Option FieldType := all.find? fun t => t.name == s

/-- The names of the types of a list, in order and each once. -/
def sortedNames (types : List FieldType) : List String :=
  (all.filter fun t => types.contains t).map name

theorem ofName?_name (t : FieldType) : ofName? t.name = some t := by cases t <;> decide

theorem mem_all (t : FieldType) : t ∈ all := by cases t <;> decide

end FieldType

/-- An operator. -/
structure Operator where
  name : String
  category : Category
  /-- The types of fields that the operator is meant for. -/
  fieldTypes : List FieldType
  test : Test

end Verdict
