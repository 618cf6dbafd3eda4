import Verdict.Engine.Failure
import Verdict.Evaluation.Rule
import Verdict.Introspection.Usage
import Verdict.Validation.Validator

/-!
# Engine/Task — what can be done with a rule

Each task takes a document or a rule, and reads the document where a rule is needed.
-/

namespace Verdict.RuleSource

/-- The rule of a source. -/
def read (s : RuleSource) : Except Failure Rule :=
  match s.rule? with
  | some r => .ok r
  | none => .error .notAnObject

/-- Evaluate a rule. -/
def evaluate (r : Registry) (s : RuleSource) (criteria : Value) : Except Failure Evaluated := do
  let rule ← s.read
  Failure.ofFault (rule.evaluate r criteria)

/-- Introspect a rule. -/
def introspect (r : Registry) (s : RuleSource) : Except Failure Introspection := do
  let rule ← s.read
  if rule.isGranular then Failure.ofFault (Introspection.ofRule r rule) else .error .notGranular

/-- The first problem of a rule's document. -/
def validate (r : Registry) (s : RuleSource) : Except Failure (Option Problem) :=
  Failure.ofFault (Validator.validate r s.toValue)

/-- Fail unless a rule's document has no problem. -/
def ensureValid (r : Registry) (s : RuleSource) : Except Failure Unit := do
  match ← s.validate r with
  | none => .ok ()
  | some p => .error (.invalid p)

/-- The operators that a rule uses. -/
def usedOperators (s : RuleSource) : Except Failure (List String) := s.read.map Rule.usedOperators

/-- The check of the operators that a rule uses. -/
def operatorCheck (r : Registry) (s : RuleSource) : Except Failure Value :=
  s.read.map (Rule.operatorCheck r)

end Verdict.RuleSource
