import Verdict.Evaluation.Constraint

/-!
# Evaluation/Meaning — what constraints and conditions mean

A constraint holds when its operator is known and says so of the field's value and the constraint's,
whatever its message.  The meaning of a node, given which constraints hold: AND means that all of its
nodes hold, OR that some does, NONE that none does.  Invalid nodes take no part.
-/

namespace Verdict

namespace Constraint

/-- What the operator of a constraint says; of an operator that is not known, nothing holds. -/
def verdict (k : Setting) (c : Constraint) : Except Fault Bool := do
  let criterion ← c.criterion k.criteria
  match k.registry.find? c.operator with
  | none => .ok false
  | some o => do
    let operand ← operand k.criteria c.value
    o.test criterion operand

/-- Whether a constraint holds. -/
def holds (k : Setting) (c : Constraint) : Bool := (c.verdict k).toOption.getD false

end Constraint

namespace Node

mutual

/-- Whether a node holds, given which constraints do. -/
def meaning (holds : Constraint → Bool) : Node → Bool
  | .constraint c => holds c
  | .condition .and nodes _ => allMean holds nodes
  | .condition .or nodes _ => someMean holds nodes
  | .condition .none nodes _ => !someMean holds nodes
  | .invalid _ => false

/-- Whether all valid nodes hold. -/
def allMean (holds : Constraint → Bool) : List Node → Bool
  | [] => true
  | .invalid _ :: rest => allMean holds rest
  | n :: rest => meaning holds n && allMean holds rest

/-- Whether some valid node holds. -/
def someMean (holds : Constraint → Bool) : List Node → Bool
  | [] => false
  | .invalid _ :: rest => someMean holds rest
  | n :: rest => meaning holds n || someMean holds rest

end

end Node

end Verdict
