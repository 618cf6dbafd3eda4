import Verdict.Operator.Registry
import Verdict.Rule.Basic
import Verdict.Template

/-!
# Evaluation/Judgement — what evaluation comes to

A **judgement** says whether a node or a rule passed, with a value and a message.  A **report** is a
judgement together with the constraints that were visited on the way to it.
-/

namespace Verdict

/-- The outcome of judging a node or a rule. -/
structure Judgement where
  passed : Bool
  value : Value
  /-- Mostly a text; `null` when there is none. -/
  message : Value
  deriving Repr

namespace Judgement

/-- Whether there is a message that is not empty. -/
def hasMessage (j : Judgement) : Bool := j.message.isTruthy

/-- The document of a judgement. -/
def toValue (j : Judgement) : Value :=
  .ofFields ([("isPassed", .bool j.passed), ("value", j.value)] ++
    (if j.message.isNull then [] else [("message", j.message)]))

end Judgement

/-- A constraint that was visited. -/
structure Visit where
  constraint : Constraint
  /-- The value of its field. -/
  criterion : Value
  /-- The value that the operator was given; none when there is no such operator. -/
  operand : Option Value
  deriving Repr

/-- A judgement and the visits that led to it, in order. -/
structure Report where
  judgement : Judgement
  visits : List Visit
  deriving Repr

namespace Report

/-- A judgement without visits. -/
def ofJudgement (j : Judgement) : Report := ⟨j, []⟩

/-- Visits that came before. -/
def after (visits : List Visit) (r : Report) : Report := { r with visits := visits ++ r.visits }

/-- Visits to operators that exist: operator, value of the field, value of the constraint. -/
def calls (r : Report) : List (Value × Value × Value) :=
  r.visits.filterMap fun v => v.operand.map fun operand => (v.constraint.operator, v.criterion, operand)

end Report

/-- What a rule is judged with: the operators, and the criteria. -/
structure Setting where
  registry : Registry
  criteria : Value

/-- A message with its paths filled in; messages that are no texts stay. -/
def fillMessage (context : Value) (message : Value) : Except Fault Value :=
  match message with
  | .str s => if Template.mayHoldPath s then (Template.fill s context).map .str else .ok (.str s)
  | v => .ok v

end Verdict
