import Verdict.Rule.Shape

/-!
# Rule/Reading — rules from documents

Reading never fails on an object: what is neither a condition nor a constraint becomes an invalid
node that keeps the document.  Under a branch a single object stands for a list of one.
-/

namespace Verdict

/-- The outcome of a result object, which is read at a place; none when it is no object. -/
def Outcome.ofValue? (place : Origin) (v : Value) : Option Outcome :=
  match v with
  | .object mark fields =>
    let v := Value.object mark fields
    some ⟨mark.elim place Origin.shared, v.getOrNull "value", v.getOrNull "message"⟩
  | _ => none

/-- The constraint of a document. -/
def Constraint.ofValue (v : Value) : Constraint :=
  ⟨v.getOrNull "field", v.getOrNull "operator", v.get? "value", v.getOrNull "message"⟩

namespace Node

mutual

/-- Read the node at a place. -/
def ofValue (place : List Nat) (v : Value) : Node :=
  if v.isConstraint then .constraint (Constraint.ofValue v)
  else
    match v.branch? with
    | none => .invalid v
    | some b =>
      match _h : v.get? b.name with
      | some (.list _ items) =>
        .condition b (ofItems place 0 items) (Outcome.ofValue? (.place place) (v.getOrNull "result"))
      | some (.object mark fields) =>
        .condition b [ofValue (0 :: place) (.object mark fields)]
          (Outcome.ofValue? (.place place) (v.getOrNull "result"))
      | _ => .invalid v
termination_by sizeOf v
decreasing_by
  · have := Value.sizeOf_lt_of_get? _h
    simp only [Value.list.sizeOf_spec] at this
    omega
  · exact Value.sizeOf_lt_of_get? _h

/-- Read the nodes from a position on. -/
def ofItems (place : List Nat) (position : Nat) (items : List Value) : List Node :=
  match items with
  | [] => []
  | v :: rest => ofValue (position :: place) v :: ofItems place (position + 1) rest
termination_by sizeOf items

end

end Node

namespace Rule

/-- Read a rule; none when the document is no object. -/
def ofValue? (v : Value) : Option Rule :=
  match v with
  | .object mark fields =>
    let v := Value.object mark fields
    some ⟨Node.ofItems [] 0 v.conditions, Outcome.ofValue? .default (v.getOrNull "default")⟩
  | _ => none

end Rule

end Verdict
