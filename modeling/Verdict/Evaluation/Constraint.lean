import Verdict.Evaluation.Judgement
import Verdict.Text.Part

/-!
# Evaluation/Constraint — judging one constraint

The field is looked up in the criteria, and `missing` is compared when it is not there.  Texts of the
constraint's value that start with `$.` are paths into the criteria.  An operator that is not known
fails with a message of its own.
-/

namespace Verdict

/-- Whether a value is a path into the criteria. -/
def Value.isReference : Value → Bool
  | .str s => startsWith s "$."
  | _ => false

namespace Constraint

/-- A path replaced by what it leads to, `null` when it leads nowhere. -/
def resolve (criteria : Value) (v : Value) : Except Fault Value :=
  if v.isReference then (Path.resolveValue v criteria).map fun found => found.getD .null else .ok v

/-- The items of a list, resolved. -/
def resolveItems (criteria : Value) : List Value → Except Fault (List Value)
  | [] => .ok []
  | v :: rest => do
    let v ← resolve criteria v
    let rest ← resolveItems criteria rest
    .ok (v :: rest)

/-- The value that the operator is given. -/
def operand (criteria : Value) : Value → Except Fault Value
  | .list _ items => (resolveItems criteria items).map .ofItems
  | v => resolve criteria v

/-- The value of the field. -/
def criterion (c : Constraint) (criteria : Value) : Except Fault Value :=
  (Path.resolveValue c.field criteria).map fun found => found.getD .missing

/-- What is said of an operator that is not known. -/
def unknownOperator (operator : Value) : Except Fault String :=
  operator.plain.map fun shown =>
    "Invalid operator: " ++ shown ++ ". Please provide a valid operator. " ++
    "The operator is case-sensitive."

/-- The criteria with the constraint's own value and its field's value under `self`. -/
def context (c : Constraint) (criterion criteria : Value) : Value :=
  let self := Value.ofFields [("value", c.value), ("input", criterion)]
  match criteria with
  | .object _ fields => .ofFields (Entries.put "self" self fields)
  | _ => .ofFields [("self", self)]

/-- The constraint's message, filled in; an empty message counts as none. -/
def ownMessage (c : Constraint) (criterion criteria : Value) : Except Fault Value :=
  if c.message.isTruthy then fillMessage (c.context criterion criteria) c.message else .ok .null

/-- Judge a constraint. -/
def judge (k : Setting) (c : Constraint) : Except Fault Report := do
  let criterion ← c.criterion k.criteria
  match k.registry.find? c.operator with
  | none => do
    let message ← unknownOperator c.operator
    .ok ⟨⟨false, .bool false, .str message⟩, [⟨c, criterion, none⟩]⟩
  | some o => do
    let operand ← operand k.criteria c.value
    let passed ← o.test criterion operand
    let message ← c.ownMessage criterion k.criteria
    .ok ⟨⟨passed, .bool passed, message⟩, [⟨c, criterion, some operand⟩]⟩

end Constraint

end Verdict
