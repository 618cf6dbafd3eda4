import Verdict.Operator.BuiltIn
import Verdict.Rule.Basic
import Verdict.Rule.Subject
import Verdict.Value.Display

/-!
# Validation/Problem — what can be wrong with a rule

Each problem names the fragment of the document that has it.
-/

namespace Verdict

/-- The first thing that is wrong with a document. -/
inductive Problem where
  | notAnObject (rule : Value)
  | noConditions (rule : Value)
  | severalBranches (condition : Value)
  | noCondition (condition : Value)
  | nodesNotAList (b : Branch) (condition : Value)
  /-- A result, or the default, that is no object with a value. -/
  | badResult (isDefault : Bool) (payload : Value)
  | noNode (node : Value)
  | fieldNotText (constraint : Value)
  /-- An operator that is not registered, as it reads, with names that are like it. -/
  | unknownOperator (shown : String) (similar : List String) (constraint : Value)
  | valueNotAList (constraint : Value)
  | valueNotAPattern (constraint : Value)
  deriving Repr

namespace Problem

/-- The fragment that has the problem. -/
def element : Problem → Value
  | .notAnObject v | .noConditions v | .severalBranches v | .noCondition v | .nodesNotAList _ v
  | .badResult _ v | .noNode v | .fieldNotText v | .unknownOperator _ _ v | .valueNotAList v
  | .valueNotAPattern v => v

/-- Names in the order of the alphabet, with commas. -/
def sortedNames (names : List String) : String :=
  ",".intercalate (names.mergeSort fun a b => decide (a ≤ b))

/-- The wording of a problem. -/
def message : Problem → String
  | .notAnObject _ => RuleSource.notAnObject
  | .noConditions _ => "The conditions property must contain at least one condition."
  | .severalBranches _ =>
    "A condition cannot have more than one \"and\", \"or\", or \"none\" property."
  | .noCondition _ => "Invalid condition structure."
  | .nodesNotAList b _ => "The condition '" ++ b.name ++ "' should be iterable."
  | .badResult isDefault _ =>
    (if isDefault then "Rule \"default\"" else "Condition \"result\"") ++
    " must be an object with a \"value\" property."
  | .noNode _ => "Each node should be a condition or constraint."
  | .fieldNotText _ => "Constraint \"field\" must be of type string."
  | .unknownOperator shown similar _ =>
    "Constraint \"operator\" with value " ++ shown ++ " is invalid." ++
    (if similar.isEmpty then "" else " (did you mean: " ++ ", ".intercalate similar ++ "?)")
  | .valueNotAList _ =>
    "Constraint \"value\" must be an array if the \"operator\" is in " ++
    sortedNames Operator.listOperators
  | .valueNotAPattern _ =>
    "Constraint \"value\" must be a valid regular expression if the \"operator\" is in " ++
    sortedNames Operator.patternOperators

/-- The document of a problem. -/
def toValue (p : Problem) : Value :=
  .ofFields [("message", .str p.message), ("element", p.element)]

end Problem

end Verdict
