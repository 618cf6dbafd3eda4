import Verdict.Evaluation.Condition

/-!
# Evaluation/Rule — judging rules

Roots are tried in order.  The first that passes decides, and so does the first that fails with a
message; when none does, the default answers.
-/

namespace Verdict

namespace Rule

/-- A value that stands in for `null`. -/
def valueOr (fallback v : Value) : Value := if v.isNull then fallback else v

/-- The judgement of an outcome: its message is filled in, and a missing value replaced. -/
def answer (criteria : Value) (passed : Bool) (o : Option Outcome) : Except Fault Judgement :=
  (fillMessage criteria (o.elim .null Outcome.message)).map fun message =>
    ⟨passed, valueOr (.bool passed) (Outcome.valueOf o), message⟩

/-- Try roots in order. -/
def judgeRoots (k : Setting) (default : Option Outcome) : List Node → Except Fault Report
  | [] => (answer k.criteria false default).map .ofJudgement
  | root :: rest => do
    let r ← root.judge k
    if r.judgement.passed then
      let j ← answer k.criteria true root.outcome?
      .ok ⟨j, r.visits⟩
    else if r.judgement.hasMessage then
      .ok ⟨⟨false, valueOr (.bool false) (Outcome.valueOf default), r.judgement.message⟩, r.visits⟩
    else
      let later ← judgeRoots k default rest
      .ok (later.after r.visits)

/-- Judge one criteria object. -/
def judge (registry : Registry) (rule : Rule) (criteria : Value) : Except Fault Report :=
  judgeRoots ⟨registry, criteria⟩ rule.default rule.conditions

end Rule

/-- What rules are evaluated to: one report, or one for each item of a list of criteria. -/
inductive Evaluated where
  | one (r : Report)
  | each (rs : List Report)

namespace Evaluated

/-- All reports. -/
def reports : Evaluated → List Report
  | .one r => [r]
  | .each rs => rs

/-- The document of an evaluation. -/
def toValue : Evaluated → Value
  | .one r => r.judgement.toValue
  | .each rs => .ofItems (rs.map fun r => r.judgement.toValue)

/-- Whether all criteria passed. -/
def passed (e : Evaluated) : Bool := e.reports.all fun r => r.judgement.passed

/-- The value, or the values of all criteria. -/
def value : Evaluated → Value
  | .one r => r.judgement.value
  | .each rs => .ofItems (rs.map fun r => r.judgement.value)

end Evaluated

namespace Rule

/-- Judge a list of criteria one after another. -/
def judgeEach (registry : Registry) (rule : Rule) : List Value → Except Fault (List Report)
  | [] => .ok []
  | v :: rest => do
    let r ← rule.judge registry v
    let rs ← judgeEach registry rule rest
    .ok (r :: rs)

/-- Evaluate a rule against criteria, or against each item of a list of criteria. -/
def evaluate (registry : Registry) (rule : Rule) (criteria : Value) : Except Fault Evaluated :=
  match criteria with
  | .list _ items => (judgeEach registry rule items).map .each
  | v => (rule.judge registry v).map .one

end Rule

end Verdict
