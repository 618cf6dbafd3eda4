import Verdict.Operator.Registry

/-!
# Introspection/Findings — what is counted on the way

Counts of a rule's nodes, its fields and operators, the types that its fields can have, and
warnings.
-/

namespace Verdict

/-- What was found in a rule so far. -/
structure Findings where
  warnings : List String
  /-- The deepest level of nesting, a root being at level one. -/
  maxDepth : Nat
  conditions : Nat
  constraints : Nat
  /-- Names of fields, in the order of their first use. -/
  fields : List String
  operators : List (Category × List String)
  /-- The types that all operators on a field accept; none for a field on which no operator narrows
  the type. -/
  fieldTypes : List (String × List FieldType)

namespace Findings

/-- Nothing found. -/
def empty : Findings := ⟨[], 0, 0, 0, [], [], []⟩

/-- An item at the end of a list, unless it is there. -/
def appendOnce (items : List String) (s : String) : List String :=
  if items.contains s then items else items ++ [s]

/-- A warning, given once. -/
def warn (f : Findings) (message : String) : Findings :=
  { f with warnings := appendOnce f.warnings message }

/-- A condition at a depth, a root being at zero. -/
def recordCondition (f : Findings) (depth : Nat) : Findings :=
  { f with conditions := f.conditions + 1, maxDepth := max f.maxDepth (depth + 1) }

/-- The types that an operator leaves to a field. -/
def narrow (types : List (String × List FieldType)) (field : String) (o : Operator) :
    List (String × List FieldType) :=
  if o.fieldTypes.contains .any then types
  else
    match Entries.find? field types with
    | none => Entries.put field o.fieldTypes types
    | some current => Entries.put field (current.filter o.fieldTypes.contains) types

/-- A constraint on a field, with its operator if that is known. -/
def recordConstraint (f : Findings) (field : String) (o : Option Operator) : Findings :=
  let f := { f with constraints := f.constraints + 1, fields := appendOnce f.fields field }
  match o with
  | none => f
  | some o =>
    { f with
      operators :=
        Entries.put o.category
          (appendOnce ((Entries.find? o.category f.operators).getD []) o.name) f.operators
      fieldTypes := narrow f.fieldTypes field o }

/-- A list of texts as a value. -/
def texts (items : List String) : Value := .ofItems (items.map Value.str)

/-- The names of the types that a field can have. -/
def typeNames (f : Findings) (field : String) : List String :=
  match Entries.find? field f.fieldTypes with
  | none => [FieldType.any.name]
  | some types => FieldType.sortedNames types

/-- Fields, operators and types. -/
def metadata (f : Findings) : Value :=
  .ofFields [
    ("uniqueFields", .int f.fields.length),
    ("fields", texts f.fields),
    ("operatorsByCategory", .ofFields (f.operators.map fun (c, names) => (c.name, texts names))),
    ("fieldTypes", .ofFields (f.fields.map fun field => (field, texts (f.typeNames field))))]

/-- Depth, counts and their sum. -/
def complexity (f : Findings) : Value :=
  .ofFields [
    ("maxDepth", .int f.maxDepth),
    ("totalConditions", .int f.conditions),
    ("totalConstraints", .int f.constraints),
    ("uniqueFields", .int f.fields.length),
    ("score", .int (f.conditions + f.constraints + f.maxDepth : Nat))]

end Findings

end Verdict
