import Verdict.Introspection.Explore
import Verdict.Validation.Problem

/-!
# Engine/Failure — why a task on a rule is not done
-/

namespace Verdict

/-- Why a task on a rule is not done. -/
inductive Failure where
  /-- A computation on values stopped. -/
  | fault (f : Fault)
  /-- The rule is no object. -/
  | notAnObject
  /-- Introspection of a rule whose roots do not all have results. -/
  | notGranular
  /-- The rule has a problem. -/
  | invalid (p : Problem)
  /-- A text that is no YAML. -/
  | malformedYaml
  /-- A file of JSON that holds none. -/
  | malformedJson
  /-- A document with a day or a time that does not exist. -/
  | noSuchMoment
  /-- A source whose document is empty, as it was given. -/
  | emptyDocument (source : String)
  /-- A document that is no mapping, with the word for what it is. -/
  | notAMapping (kind : String)
  /-- A value that names no branch, as it is displayed. -/
  | notABranch (shown : String)
  /-- A condition that was given a value instead of a branch. -/
  | untypedCondition (shown : String)
  /-- A value that names no built-in operator, as it is displayed. -/
  | notAnOperator (shown : String)
  deriving Repr

namespace Failure

/-- The wording of a failure. -/
def message : Failure → String
  | .fault f => f.message
  | .notAnObject => RuleSource.notAnObject
  | .notGranular => Introspection.notGranular
  | .invalid p => p.message
  | .malformedYaml | .malformedJson => "The document is malformed."
  | .noSuchMoment => "The document has a day or a time that does not exist."
  | .emptyDocument source => "Empty or invalid rule document: " ++ source
  | .notAMapping kind => "Rule document must be a mapping, got " ++ kind
  | .notABranch shown => shown ++ " is not a valid ConditionType"
  | .untypedCondition shown => "Condition: invalid type " ++ shown
  | .notAnOperator shown => shown ++ " is not a valid Operators"

/-- Whether a failure lies in what was given, rather than in a number, a moment or a pattern that
cannot be computed with. -/
def isOfInput : Failure → Bool
  | .fault .integerBeyondDoubles | .fault .instantBeyondCalendar | .fault .repetitionTooLarge
  | .fault .codePointTooLarge | .fault .wrongKind => false
  | _ => true

/-- A computation on values as a task. -/
def ofFault {α : Type} (x : Except Fault α) : Except Failure α := x.mapError Failure.fault

end Failure

end Verdict
