import Verdict.Entries
import Verdict.Operator.BuiltIn
import Verdict.Value.Display

/-!
# Operator/Registry — operators by name

A registry knows operators by their names, in the order in which the names were first registered,
and links operators that are inverses of each other.  Names come from documents, so look-ups take
any value: one that is not a text names nothing.
-/

namespace Verdict

/-- Known operators and the links between inverses. -/
structure Registry where
  operators : List (String × Operator)
  negations : List (String × String)

/-- An operator as it is declared: category and types of fields by name. -/
structure Declaration where
  name : String
  category : Category
  fieldTypes : List String
  test : Test
  negation : Option String

/-- Why a declaration is refused. -/
inductive Declaration.Error where
  | unnamed
  | unknownFieldTypes (name : String) (types : List String)
  deriving DecidableEq, Repr

namespace Declaration

/-- The wording of a refusal. -/
def Error.message : Error → String
  | .unnamed => "OperatorSpec: name must be non-empty"
  | .unknownFieldTypes name types =>
    "OperatorSpec '" ++ name ++ "': unknown field types [" ++ ", ".intercalate (types.map quote) ++ "]"

/-- The declared types that are none, in order and each once. -/
def unknownTypes (d : Declaration) : List String :=
  ((d.fieldTypes.filter fun t => (FieldType.ofName? t).isNone).eraseDups).mergeSort
    fun a b => decide (a ≤ b)

/-- The declared operator. -/
def operator? (d : Declaration) : Except Error Operator :=
  if d.name = "" then .error .unnamed
  else if d.unknownTypes.isEmpty then
    .ok ⟨d.name, d.category, d.fieldTypes.filterMap FieldType.ofName?, d.test⟩
  else .error (.unknownFieldTypes d.name d.unknownTypes)

end Declaration

namespace Registry

/-- A registry without operators. -/
def empty : Registry := ⟨[], []⟩

/-- Put an operator under its name. -/
def insert (r : Registry) (o : Operator) : Registry :=
  { r with operators := Entries.put o.name o r.operators }

/-- Link two operators in both directions. -/
def link (r : Registry) (a b : String) : Registry :=
  { r with negations := Entries.put b a (Entries.put a b r.negations) }

/-- The built-in operators, at a given moment. -/
def builtIn (now : DateTime) : Registry :=
  Operator.inversePairs.foldl (fun r (a, b) => r.link a b)
    ((Operator.builtIns now).foldl insert empty)

/-- The operator of a name. -/
def find? (r : Registry) (name : Value) : Option Operator :=
  match name with
  | .str name => Entries.find? name r.operators
  | _ => none

/-- Whether a name is known. -/
def has (r : Registry) (name : Value) : Bool := (r.find? name).isSome

/-- The inverse of an operator, if one is linked. -/
def negation? (r : Registry) (name : Value) : Option String :=
  match name with
  | .str name => Entries.find? name r.negations
  | _ => none

/-- The names, in order. -/
def names (r : Registry) : List String := r.operators.map Prod.fst

/-- The number of operators. -/
def size (r : Registry) : Nat := r.operators.length

/-- Register a declared operator, replacing one of its name, and link it to its inverse. -/
def register (r : Registry) (d : Declaration) : Except Declaration.Error Registry :=
  d.operator?.map fun o =>
    match d.negation with
    | some n => (r.insert o).link o.name n
    | none => r.insert o

/-- Remove a name and its links. -/
def erase (r : Registry) (name : String) : Registry :=
  let negations := Entries.without name r.negations
  { operators := Entries.without name r.operators
    negations :=
      match Entries.find? name r.negations with
      | some partner =>
        if Entries.find? partner negations = some name then Entries.without partner negations
        else negations
      | none => negations }

/-- Remove an operator and say whether it was there.  Lists and objects cannot be names. -/
def unregister (r : Registry) (name : Value) : Except Fault (Bool × Registry) :=
  match name with
  | .str key => .ok (r.has name, r.erase key)
  | .list .. | .object .. => .error .wrongKind
  | _ => .ok (false, r)

/-- Names grouped by category, in order of the first name of each. -/
def byCategory (r : Registry) : List (Category × List String) :=
  r.operators.foldl (fun groups (name, o) =>
    Entries.put o.category ((Entries.find? o.category groups).getD [] ++ [name]) groups) []

/-- What tools are told about an operator. -/
def describe (r : Registry) (o : Operator) : Value :=
  .ofFields [
    ("name", .str o.name),
    ("negation", ((Entries.find? o.name r.negations).map Value.str).getD .null),
    ("category", .str o.category.name),
    ("acceptedFieldTypes", .ofItems ((FieldType.sortedNames o.fieldTypes).map Value.str))]

/-- What tools are told about all operators. -/
def describeAll (r : Registry) : List Value := r.operators.map fun (_, o) => r.describe o

/-- What tools are told about the operators of a category. -/
def describeCategory (r : Registry) (category : String) : List Value :=
  (r.operators.filter fun (_, o) => o.category.name == category).map fun (_, o) => r.describe o

end Registry

end Verdict
