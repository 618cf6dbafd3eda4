import Verdict.Introspection.Explore
import Verdict.Proofs.Limit

/-!
# Proofs/Introspection/Effective — what is found with one constraint

    findings ──field, operator, types──▸ recorded ──at most one warning──▸ findings'

A constraint **warns** when its operator is not registered, or when it stands below a NONE and its
operator has no inverse (`Constraint.warning?`).  Finding the operator in force records the
constraint and gives its warning, if any (`Exploration.effective_eq_ok`).
-/

namespace Verdict

namespace Constraint

/-- The warning of a constraint, below a NONE or elsewhere, with its field and its operator as they
read in messages. -/
def warning? (r : Registry) (inNone : Bool) (c : Constraint) (field operator : String) :
    Option String :=
  if !r.has c.operator then
    some ("Unknown operator '" ++ operator ++ "' on field '" ++ field ++ "'")
  else if inNone && (r.negation? c.operator).isNone then
    some ("No negation registered for operator '" ++ operator ++ "' on field '" ++ field ++
      "'; kept as is")
  else none

/-- A constraint gives a warning. -/
def Warns (r : Registry) (inNone : Bool) (c : Constraint) (w : String) : Prop :=
  ∃ field operator, c.field.plain = .ok field ∧ c.operator.plain = .ok operator ∧
    c.warning? r inNone field operator = some w

variable {r : Registry} {inNone : Bool} {c : Constraint} {field operator : String}

theorem warns_iff (hfield : c.field.plain = .ok field) (hoperator : c.operator.plain = .ok operator)
    {w : String} : c.Warns r inNone w ↔ c.warning? r inNone field operator = some w := by
  refine ⟨fun ⟨field', operator', hfield', hoperator', hw⟩ => ?_,
    fun hw => ⟨field, operator, hfield, hoperator, hw⟩⟩
  cases hfield.symm.trans hfield'
  cases hoperator.symm.trans hoperator'
  exact hw

/-- **Just the constraints with a registered operator that has an inverse where it needs one are
silent.** -/
theorem silent_iff (hfield : c.field.plain = .ok field)
    (hoperator : c.operator.plain = .ok operator) : (∀ w, ¬ c.Warns r inNone w) ↔
      r.has c.operator = true ∧ (inNone = true → (r.negation? c.operator).isSome = true) := by
  simp only [warns_iff hfield hoperator, warning?]
  cases r.has c.operator <;> cases inNone <;> cases r.negation? c.operator <;> simp

end Constraint

namespace Exploration

variable {r : Registry} {negated : Bool} {c : Constraint} {f f' : Findings} {operator : Value}

/-- **Finding the operator in force records the constraint**, and gives its warning, if any. -/
theorem effective_eq_ok (h : effective r negated c f = .ok (operator, f')) :
    ∃ field shown, c.field.plain = .ok field ∧ c.operator.plain = .ok shown ∧
      f' = (c.warning? r negated field shown).elim
        (f.recordConstraint field (r.find? c.operator))
        (f.recordConstraint field (r.find? c.operator)).warn := by
  unfold effective at h
  obtain ⟨field, hfield, h⟩ := Except.bind_eq_ok_iff.mp h
  obtain ⟨shown, hshown, h⟩ := Except.bind_eq_ok_iff.mp h
  refine ⟨field, shown, hfield, hshown, ?_⟩
  unfold Constraint.warning? Registry.has
  cases hfind : r.find? c.operator with
  | none =>
    rw [hfind] at h
    cases h
    rfl
  | some o =>
    rw [hfind] at h
    cases negated with
    | false =>
      cases h
      rfl
    | true =>
      cases hnegation : r.negation? c.operator with
      | none =>
        rw [hnegation] at h
        cases h
        rfl
      | some inverse =>
        rw [hnegation] at h
        cases h
        rfl

end Exploration

end Verdict
