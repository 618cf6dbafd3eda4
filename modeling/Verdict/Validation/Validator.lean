import Verdict.Evaluation.Constraint
import Verdict.Operator.Registry
import Verdict.Pattern.Literal
import Verdict.Similarity
import Verdict.Validation.Problem

/-!
# Validation/Validator — the first problem of a document

A document is checked before it is read as a rule.  Checks go from the outside to the inside and
from left to right, and the first problem is reported.
-/

namespace Verdict

/-- What validation comes to: a problem or none. -/
abbrev Validation := Except Fault (Option Problem)

namespace Validation

/-- No problem. -/
def fine : Validation := .ok none

/-- A problem. -/
def problem (p : Problem) : Validation := .ok (some p)

/-- One check after another; the second counts when the first finds nothing. -/
def andThen (first : Validation) (second : Unit → Validation) : Validation :=
  match first with
  | .error f => .error f
  | .ok (some p) => .ok (some p)
  | .ok none => second ()

/-- The document of a validation without fault. -/
def toValue : Option Problem → Value
  | none => .ofFields [("isValid", .bool true)]
  | some p => .ofFields [("isValid", .bool false), ("error", p.toValue)]

end Validation

open Validation

namespace Validator

/-- An operator has to be the name of a registered one. -/
def checkOperator (r : Registry) (constraint : Value) : Validation :=
  match constraint.getOrNull "operator" with
  | .str name =>
    if r.has (.str name) then fine
    else problem (.unknownOperator name (Similarity.closeTo name r.names) constraint)
  | v => v.plain.map fun shown => some (.unknownOperator shown [] constraint)

/-- Some operators ask for a list. -/
def checkList (constraint : Value) : Validation :=
  match constraint.getOrNull "operator", constraint.getOrNull "value" with
  | .str _, .list .. => fine
  | .str name, _ =>
    if Operator.listOperators.contains name then problem (.valueNotAList constraint) else fine
  | _, _ => fine

/-- Some operators ask for a pattern, or for a path that leads to one. -/
def checkPattern (constraint : Value) : Validation :=
  match constraint.getOrNull "operator", constraint.getOrNull "value" with
  | .str name, v =>
    if Operator.patternOperators.contains name && !v.isReference then
      match v with
      | .str pattern =>
        (Pattern.compile? pattern).map fun node =>
          if node.isSome then none else some (.valueNotAPattern constraint)
      | _ => problem (.valueNotAPattern constraint)
    else fine
  | _, _ => fine

/-- A constraint needs a text as its field, and an operator that suits its value. -/
def checkConstraint (r : Registry) (constraint : Value) : Validation :=
  match constraint.getOrNull "field" with
  | .str _ =>
    (checkOperator r constraint).andThen fun _ =>
    (checkList constraint).andThen fun _ => checkPattern constraint
  | _ => problem (.fieldNotText constraint)

/-- A result needs a value. -/
def checkResult (isDefault : Bool) (payload : Value) : Validation :=
  if payload.isNull || payload.hasField "value" then fine
  else problem (.badResult isDefault payload)

mutual

/-- A condition has one branch, a list of nodes under it, and perhaps a result. -/
def checkCondition (r : Registry) (condition : Value) : Validation :=
  if 1 < condition.branches.length then problem (.severalBranches condition)
  else if condition.isConstraint then problem (.noCondition condition)
  else
    match condition.branch? with
    | none => problem (.noCondition condition)
    | some b =>
      match _h : condition.get? b.name with
      | some (.list _ nodes) =>
        (checkResult false (condition.getOrNull "result")).andThen fun _ => checkNodes r nodes
      | _ => problem (.nodesNotAList b condition)
termination_by sizeOf condition
decreasing_by
  have := Value.sizeOf_lt_of_get? _h
  simp only [Value.list.sizeOf_spec] at this
  omega

/-- Each node is a constraint or a condition. -/
def checkNodes (r : Registry) (nodes : List Value) : Validation :=
  match nodes with
  | [] => fine
  | node :: rest =>
    (if node.isConstraint then checkConstraint r node
      else if node.branches.isEmpty then problem (.noNode node)
      else checkCondition r node).andThen fun _ => checkNodes r rest
termination_by sizeOf nodes

end

/-- Root conditions, one after another. -/
def checkRoots (r : Registry) : List Value → Validation
  | [] => fine
  | v :: rest => (checkCondition r v).andThen fun _ => checkRoots r rest

/-- Whether a value is an object without fields. -/
def isBare : Value → Bool
  | .object _ [] => true
  | _ => false

/-- The first problem of a document. -/
def validate (r : Registry) (rule : Value) : Validation :=
  match rule with
  | .object .. =>
    if rule.conditions.head?.all isBare then problem (.noConditions rule)
    else
      (checkRoots r rule.conditions).andThen fun _ =>
        checkResult true (rule.getOrNull "default")
  | _ => problem (.notAnObject rule)

end Validator

end Verdict
