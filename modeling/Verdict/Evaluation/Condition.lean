import Verdict.Evaluation.Constraint

/-!
# Evaluation/Condition — judging conditions

A condition goes through its nodes from left to right and may stop early:

* under AND at a constraint that fails, or at a nested condition that fails with a message;
* under OR at a constraint that passes;
* under NONE never.

Invalid nodes are passed over.
-/

namespace Verdict

/-- What a condition comes to before any of its nodes. -/
def Branch.start : Branch → Judgement
  | .and | .none => ⟨true, .bool true, .null⟩
  | .or => ⟨false, .bool false, .null⟩

/-- Whether a condition passes, given that it did so far and whether the next node does. -/
def Branch.join : Branch → Bool → Bool → Bool
  | .and, sofar, next => sofar && next
  | .or, sofar, next => sofar || next
  | .none, sofar, next => sofar && !next

/-- Whether a condition stops at a constraint of the given judgement. -/
def Branch.stopsAtConstraint : Branch → Judgement → Bool
  | .and, j => !j.passed
  | .or, j => j.passed
  | .none, _ => false

/-- Whether a condition stops at a nested condition of the given judgement. -/
def Branch.stopsAtCondition : Branch → Judgement → Bool
  | .and, j => !j.passed && j.hasMessage
  | .or, _ | .none, _ => false

/-- The message of a condition after a constraint. -/
def Branch.messageAfterConstraint : Branch → Value → Judgement → Value
  | .and, sofar, j => if j.passed then sofar else j.message
  | .or, sofar, j => if j.passed then sofar else j.message
  | .none, sofar, j => if j.passed && j.hasMessage then j.message else sofar

/-- The message of a condition after a nested condition. -/
def Branch.messageAfterCondition (b : Branch) (sofar : Value) (j : Judgement) : Value :=
  if b.stopsAtCondition j then j.message else sofar

/-- The value of an outcome, `null` without one. -/
def Outcome.valueOf (o : Option Outcome) : Value := o.elim .null Outcome.value

namespace Node

/-- What is said of a root that is no condition. -/
def invalidCondition : String :=
  "Invalid condition type. Please provide a valid condition type. " ++
  "The condition type is case-sensitive."

mutual

/-- Judge a node as a condition; any other node fails with a message. -/
def judge (k : Setting) : Node → Except Fault Report
  | .condition b nodes outcome => judgeNodes k b outcome (.ofJudgement b.start) nodes
  | .constraint _ => .ok (.ofJudgement ⟨false, .bool false, .str invalidCondition⟩)
  | .invalid _ => .ok (.ofJudgement ⟨false, .bool false, .str invalidCondition⟩)

/-- Go through the nodes of a condition, onto what it has come to so far. -/
def judgeNodes (k : Setting) (b : Branch) (outcome : Option Outcome) (sofar : Report) :
    List Node → Except Fault Report
  | [] => .ok sofar
  | .invalid _ :: rest =>
    judgeNodes k b outcome
      { sofar with judgement.value := Outcome.valueOf outcome } rest
  | .constraint c :: rest => do
    let r ← c.judge k
    let sofar : Report := {
      judgement := {
        passed := b.join sofar.judgement.passed r.judgement.passed
        value := Outcome.valueOf outcome
        message := b.messageAfterConstraint sofar.judgement.message r.judgement }
      visits := sofar.visits ++ r.visits }
    if b.stopsAtConstraint r.judgement then .ok sofar else judgeNodes k b outcome sofar rest
  | .condition b' nodes outcome' :: rest => do
    let r ← judge k (.condition b' nodes outcome')
    let sofar : Report := {
      judgement := {
        passed := b.join sofar.judgement.passed r.judgement.passed
        value := Outcome.valueOf outcome'
        message := b.messageAfterCondition sofar.judgement.message r.judgement }
      visits := sofar.visits ++ r.visits }
    if b.stopsAtCondition r.judgement then .ok sofar else judgeNodes k b outcome sofar rest

end

end Node

end Verdict
