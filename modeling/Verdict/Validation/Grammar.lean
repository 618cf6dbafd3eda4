import Verdict.Evaluation.Constraint
import Verdict.Operator.Registry
import Verdict.Pattern.Literal
import Verdict.Rule.Shape

/-!
# Validation/Grammar — well-formed documents of rules

What a document has to look like, said of each of its parts and not as a way of checking it.

    rule        conditions, at least one, and perhaps a default
    condition   one branch with a list of nodes, and perhaps a result
    constraint  a text as the field, an operator, and a value that suits it

Whatever has a `field` is a constraint and nothing else.
-/

namespace Verdict

/-- `Fragment a v`: the value `a` is the value `v`, or stands somewhere in it. -/
inductive Fragment : Value → Value → Prop
  | self (v : Value) : Fragment v v
  | item {a v : Value} {mark : Mark} {items : List Value} :
      v ∈ items → Fragment a v → Fragment a (.list mark items)
  | field {a v : Value} {key : String} {mark : Mark} {fields : List (String × Value)} :
      (key, v) ∈ fields → Fragment a v → Fragment a (.object mark fields)

theorem Fragment.trans {a b c : Value} (hab : Fragment a b) (hbc : Fragment b c) :
    Fragment a c := by
  induction hbc with
  | self => exact hab
  | item hv _ ih => exact .item hv ih
  | field hv _ ih => exact .field hv ih

theorem Fragment.of_get? {key : String} {v w : Value} (h : v.get? key = some w) :
    Fragment w v := by
  cases v with
  | object mark fields => exact .field (Entries.mem_of_find? h) (.self w)
  | _ => simp [Value.get?] at h

namespace Grammar

/-- A result or a default: left out, `null`, or an object with a value. -/
def IsPayload (v : Value) : Prop := v.isNull = true ∨ v.hasField "value" = true

/-- A constraint that suits the operators of a registry. -/
structure IsConstraint (r : Registry) (v : Value) : Prop where
  /-- The field is a text. -/
  field : ∃ name, v.getOrNull "field" = .str name
  /-- The operator is registered. -/
  operator : r.has (v.getOrNull "operator") = true
  /-- An operator that asks for a list has one. -/
  list : ∀ name ∈ Operator.listOperators, v.getOrNull "operator" = .str name →
    (v.getOrNull "value").isList = true
  /-- An operator that asks for a pattern has one, or a path that leads to one. -/
  pattern : ∀ name ∈ Operator.patternOperators, v.getOrNull "operator" = .str name →
    (v.getOrNull "value").isReference = true ∨
    ∃ text node, v.getOrNull "value" = .str text ∧ Pattern.compile? text = .ok (some node)

/-- A condition all of whose nodes are well formed. -/
inductive IsCondition (r : Registry) : Value → Prop
  | mk {v : Value} {b : Branch} {mark : Mark} {nodes : List Value} :
      v.branches = [b] → v.get? b.name = some (.list mark nodes) →
      IsPayload (v.getOrNull "result") →
      (∀ n ∈ nodes, n.isConstraint = true → IsConstraint r n) →
      (∀ n ∈ nodes, n.isConstraint = false → IsCondition r n) → IsCondition r v

/-- A rule: at least one root, each of them a condition and no constraint. -/
structure IsRule (r : Registry) (v : Value) : Prop where
  isObject : v.isObject = true
  nonempty : v.conditions ≠ []
  conditions : ∀ c ∈ v.conditions, c.isConstraint = false ∧ IsCondition r c
  default : IsPayload (v.getOrNull "default")

end Grammar

end Verdict
