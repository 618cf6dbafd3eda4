import Verdict.Value.Basic

/-!
# Rule/Basic — rules as trees

A rule tries its root nodes in order.  A node is a **condition**, which joins other nodes by a
branch, a **constraint**, which tests one field, or invalid.  A condition may carry an **outcome**.
Outcomes are told apart by their origin and never by what they hold: two conditions have one outcome
exactly when it was read from one object.
-/

namespace Verdict

/-- How a condition joins its nodes: all of them, some of them, or none of them must hold. -/
inductive Branch where
  | and | or | none
  deriving DecidableEq, Repr

namespace Branch

/-- All branches, in the order in which they are looked for. -/
def all : List Branch := [.and, .or, .none]

/-- The name of a branch in documents. -/
def name : Branch → String
  | .and => "and"
  | .or => "or"
  | .none => "none"

/-- The name of a branch in capitals. -/
def capitals : Branch → String
  | .and => "AND"
  | .or => "OR"
  | .none => "NONE"

/-- The branch of a name. -/
def ofName? (s : String) : Option Branch := all.find? fun b => b.name == s

theorem ofName?_name (b : Branch) : ofName? b.name = some b := by cases b <;> decide

theorem mem_all (b : Branch) : b ∈ all := by cases b <;> decide

end Branch

/-- Where an outcome was read: from an object with a mark, at a place among the nodes (positions
from the inside to the outside), or as the default. -/
inductive Origin where
  | shared (mark : Nat)
  | place (positions : List Nat)
  | default
  deriving DecidableEq, Repr

/-- What a rule hands back when a condition decides. -/
structure Outcome where
  origin : Origin
  value : Value
  /-- Mostly a text; `null` when there is none. -/
  message : Value
  deriving Repr

/-- A test of one field.  Nothing here has to be well formed. -/
structure Constraint where
  field : Value
  operator : Value
  /-- None when the document left it out. -/
  value? : Option Value
  message : Value
  deriving Repr

/-- The value to compare with, `null` when the document left it out. -/
def Constraint.value (c : Constraint) : Value := c.value?.getD .null

/-- A node of a rule. -/
inductive Node where
  | condition (branch : Branch) (nodes : List Node) (outcome : Option Outcome)
  | constraint (c : Constraint)
  /-- What is neither a condition nor a constraint, as it stood in the document. -/
  | invalid (raw : Value)
  deriving Repr

/-- A rule. -/
structure Rule where
  conditions : List Node
  default : Option Outcome
  deriving Repr

namespace Node

/-- The branch of a condition. -/
def branch? : Node → Option Branch
  | .condition b _ _ => some b
  | _ => none

/-- The outcome of a condition. -/
def outcome? : Node → Option Outcome
  | .condition _ _ o => o
  | _ => none

/-- Whether a node is a condition. -/
def isCondition (n : Node) : Bool := n.branch?.isSome

/-- Whether a node is a constraint. -/
def isConstraint : Node → Bool
  | .constraint _ => true
  | _ => false

mutual

/-- The constraints of a node, in document order. -/
def constraints : Node → List Constraint
  | .constraint c => [c]
  | .condition _ nodes _ => constraintsOf nodes
  | .invalid _ => []

/-- The constraints of nodes, in document order. -/
def constraintsOf : List Node → List Constraint
  | [] => []
  | n :: rest => constraints n ++ constraintsOf rest

end

end Node

namespace Rule

/-- A rule is granular when each of its roots is a condition with an outcome. -/
def isGranular (r : Rule) : Bool := r.conditions.all fun n => n.outcome?.isSome

/-- The constraints of a rule, in document order. -/
def constraints (r : Rule) : List Constraint := Node.constraintsOf r.conditions

end Rule

end Verdict
