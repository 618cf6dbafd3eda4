import Verdict.Evaluation.Constraint
import Verdict.Introspection.Alternative

/-!
# Introspection/Satisfaction — criteria that meet an alternative

An alternative is met when the requirement of each of its fields is.  A field that is missing has the
value that operators see for it.
-/

namespace Verdict

namespace Requirement

/-- Whether a field's value meets one entry: the test of its operator, or equality with a bare
value. -/
def entryIsMet (k : Setting) (criterion entry : Value) : Bool :=
  match entry.get? "operator" with
  | none => criterion.equal entry
  | some name =>
    match k.registry.find? name, Constraint.operand k.criteria (entry.getOrNull "value") with
    | some o, .ok operand =>
      match o.test criterion operand with
      | .ok passed => passed
      | .error _ => false
    | _, _ => false

/-- Whether a field's value meets a requirement: of a list, some entry. -/
def isMet (k : Setting) (criterion : Value) : Value → Bool
  | .list _ entries => entries.any (entryIsMet k criterion)
  | entry => entryIsMet k criterion entry

end Requirement

namespace Alternative

/-- Whether criteria meet the requirement of every field. -/
def isMet (k : Setting) (a : Alternative) : Bool :=
  a.all fun (field, requirement) =>
    match Path.resolveValue field k.criteria with
    | .ok found => Requirement.isMet k (found.getD .missing) requirement
    | .error _ => false

@[simp] theorem isMet_nil (k : Setting) : isMet k [] = true := rfl

theorem isMet_append (k : Setting) (a b : Alternative) :
    isMet k (a ++ b) = (isMet k a && isMet k b) := List.all_append ..

end Alternative

end Verdict
