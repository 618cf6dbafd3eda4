import Verdict.Document.Written
import Verdict.Operator.BuiltIn
import Verdict.Rule.Basic
import Verdict.Value.Equality

/-!
# Introspection/Alternative — combinations of inputs

An **alternative** says for each of its fields what is required of it: a value, a list of entries of
which one has to be met, or an object with an operator and a value.  The alternatives of a result
are its possible inputs.

* `dedupFlatten` — values put together, lists one level deep, without repetitions.
* `Alternative.withConstraint` — one more constraint in the alternative of a field.
* `Alternative.mergeInto` — the requirements of two alternatives together.
-/

namespace Verdict

/-- Put the items of a list that are not there yet behind those that are. -/
def Value.appendNew (kept : List Value) : List Value → List Value
  | [] => kept
  | item :: rest =>
    if kept.any fun seen => item.equal seen then appendNew kept rest
    else appendNew (kept ++ [item]) rest

/-- The items of a list, or a single value. -/
def Value.flat : Value → List Value
  | .list _ items => items
  | v => [v]

/-- Values one after another, the items of lists in their place, without repetitions. -/
def dedupFlatten (values : List Value) : List Value :=
  values.foldl (fun kept v => Value.appendNew kept v.flat) []

/-- What is required of each field, in order.  Fields are mostly texts. -/
abbrev Alternative := List (Value × Value)

namespace Alternative

/-- The requirement of a field. -/
def find? (field : Value) : Alternative → Option Value
  | [] => none
  | (f, v) :: rest => if f.loosely field then some v else find? field rest

/-- Set the requirement of a field: in place when there is one, else at the end. -/
def put (field v : Value) : Alternative → Alternative
  | [] => [(field, v)]
  | (f, w) :: rest => if f.loosely field then (f, v) :: rest else (f, w) :: put field v rest

/-- The requirements of all other fields. -/
def without (field : Value) (a : Alternative) : Alternative := a.filter fun r => !r.1.loosely field

/-- Whether a value can be a field. -/
def isField : Value → Bool
  | .list .. | .object .. => false
  | _ => true

/-- The requirement of an operator, with its value unless the document left it out. -/
def requirement (c : Constraint) (operator : Value) : Value :=
  .ofFields (("operator", operator) :: (c.value?.map fun v => ("value", v)).toList)

/-- Whether a requirement is the value alone.  Lists and objects are no operators. -/
def isPlain (operator : Value) : Except Fault Bool :=
  match operator with
  | .str name => .ok (Operator.plainOperators.contains name)
  | .list .. | .object .. => .error .wrongKind
  | _ => .ok false

/-- What a constraint adds to a field that has requirements already. -/
def addition (c : Constraint) (operator : Value) : Value :=
  match operator with
  | .str "equals" => c.value
  | _ => requirement c operator

/-- Add a constraint to an alternative, with the operator that it has in effect.  Under OR a new
field starts a new alternative. -/
def withConstraint (a : Alternative) (c : Constraint) (operator : Value) (b : Branch) :
    Except Fault Alternative :=
  if !isField c.field then .error .wrongKind
  else
    match a.find? c.field with
    | some known => .ok (a.put c.field (.ofItems (dedupFlatten [known, addition c operator])))
    | none =>
      (isPlain operator).map fun plain =>
        let entry := if plain then c.value else requirement c operator
        if b = .or then [(c.field, entry)] else a ++ [(c.field, entry)]

/-- Add the requirement of a field to what is required already. -/
def require (a : Alternative) (field v : Value) : Alternative :=
  match a.find? field with
  | some known => a.put field (.ofItems (dedupFlatten [known, v]))
  | none => a ++ [(field, v)]

/-- The requirements of two alternatives together. -/
def mergeInto (target a : Alternative) : Alternative :=
  a.foldl (fun target (field, v) => target.require field v) target

/-- The requirements of several alternatives together. -/
def merge (as : List Alternative) : Alternative := as.foldl mergeInto []

/-- The document of an alternative.  A field that is no text is written as a document. -/
def toValue (a : Alternative) : Except Fault Value := do
  let fields ← a.mapM fun (field, v) =>
    match field with
    | .str name => Except.ok (name, v)
    | field => field.write.map fun name => (name, v)
  .ok (.ofFields fields)

end Alternative

end Verdict
