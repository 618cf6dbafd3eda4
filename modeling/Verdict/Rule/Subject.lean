import Verdict.Rule.Reading
import Verdict.Rule.Written

/-!
# Rule/Subject — documents and what was read from them

The same questions are asked of a document, of a node and of a rule: is it a condition, which root
conditions has it, is it granular?
-/

namespace Verdict

/-- A document, or what was read from one. -/
inductive Subject where
  | document (v : Value)
  | node (n : Node)
  | rule (r : Rule)

namespace Subject

/-- The branch of a condition. -/
def branch? : Subject → Option Branch
  | .document v => v.branch?
  | .node n => n.branch?
  | .rule _ => none

/-- Whether it is a condition. -/
def isCondition : Subject → Bool
  | .document v => v.isCondition
  | .node n => n.isCondition
  | .rule _ => false

/-- Whether it is a constraint. -/
def isConstraint : Subject → Bool
  | .document v => v.isConstraint
  | .node n => n.isConstraint
  | .rule _ => false

/-- The documents of the root conditions. -/
def conditions : Subject → List Value
  | .document v => v.conditions
  | .node _ => []
  | .rule r => Node.toValues r.conditions

/-- Whether each root condition is a condition with a result. -/
def isGranular : Subject → Bool
  | .document v => v.isGranular
  | .node _ => true
  | .rule r => r.isGranular

end Subject

/-- What stands for a rule: a document that has yet to be read, or a rule. -/
inductive RuleSource where
  | document (v : Value)
  | rule (r : Rule)

namespace RuleSource

/-- The rule; none when the document is no object. -/
def rule? : RuleSource → Option Rule
  | .document v => Rule.ofValue? v
  | .rule r => some r

/-- The document. -/
def toValue : RuleSource → Value
  | .document v => v
  | .rule r => r.toValue

/-- What is said of a document that cannot be read as a rule. -/
def notAnObject : String := "The rule must be a valid JSON object."

end RuleSource

end Verdict
