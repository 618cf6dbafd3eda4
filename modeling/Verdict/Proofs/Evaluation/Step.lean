import Mathlib.Data.List.Forall2
import Verdict.Evaluation.Rule
import Verdict.Introspection.Alternative
import Verdict.Proofs.Limit

/-!
# Proofs/Evaluation/Step — what one step of judging can do

    constraint   told that its operator is not known  |  tested by its operator
    node         passed over  |  the condition stops at it  |  the condition goes on behind it
    root         passes  |  fails with a message  |  fails, and the next root is tried
    criteria     each judged in turn  |  one of them not judged

Proofs read what a step does from here, whatever they show of it: `Constraint.judged_of_judge`,
`Node.judgeNodes_cons` with its two readings `Node.step_of_judgeNodes_ok` and
`Node.step_of_judgeNodes_error`, and for roots `Rule.step_of_judgeRoots_ok` and
`Rule.step_of_judgeRoots_error`.  A condition treats constraints and nested conditions alike but for
when it stops and which message it takes over (`Branch.stopsAt`, `Branch.onward`).
-/

namespace Verdict

/-! ## Constraints -/

namespace Constraint

variable {k : Setting} {c : Constraint}

/-- What a constraint is judged to, with its one visit. -/
inductive Judged (k : Setting) (c : Constraint) : Report → Prop
  /-- There is no such operator, and a message says so. -/
  | unknown {criterion : Value} {message : String} :
      c.criterion k.criteria = .ok criterion → k.registry.find? c.operator = none →
      unknownOperator c.operator = .ok message →
      Judged k c ⟨⟨false, .bool false, .str message⟩, [⟨c, criterion, none⟩]⟩
  /-- The operator says whether it passes. -/
  | tested {criterion value message : Value} {o : Operator} {passed : Bool} :
      c.criterion k.criteria = .ok criterion → k.registry.find? c.operator = some o →
      operand k.criteria c.value = .ok value → o.test criterion value = .ok passed →
      c.ownMessage criterion k.criteria = .ok message →
      Judged k c ⟨⟨passed, .bool passed, message⟩, [⟨c, criterion, some value⟩]⟩

theorem judged_of_judge {r : Report} (h : c.judge k = .ok r) : c.Judged k r := by
  obtain ⟨criterion, hcriterion, h⟩ := Except.bind_eq_ok_iff.mp h
  cases hfind : k.registry.find? c.operator with
  | none =>
    rw [hfind] at h
    obtain ⟨message, hmessage, h⟩ := Except.bind_eq_ok_iff.mp h
    cases h
    exact .unknown hcriterion hfind hmessage
  | some o =>
    rw [hfind] at h
    obtain ⟨value, hvalue, h⟩ := Except.bind_eq_ok_iff.mp h
    obtain ⟨passed, htest, h⟩ := Except.bind_eq_ok_iff.mp h
    obtain ⟨message, hmessage, h⟩ := Except.bind_eq_ok_iff.mp h
    cases h
    exact .tested hcriterion hfind hvalue htest hmessage

end Constraint

/-! ## Nodes -/

namespace Branch

/-- Whether a condition stops at a node of the given judgement. -/
def stopsAt (b : Branch) : Node → Judgement → Bool
  | .condition .. => b.stopsAtCondition
  | .constraint _ | .invalid _ => b.stopsAtConstraint

/-- What a condition has come to behind a node that it looks at, given the report on the node. -/
def onward (b : Branch) (outcome : Option Outcome) (sofar : Report) (n : Node) (r : Report) :
    Report where
  judgement := {
    passed := b.join sofar.judgement.passed r.judgement.passed
    value := match n with
      | .condition _ _ outcome' => Outcome.valueOf outcome'
      | .constraint _ | .invalid _ => Outcome.valueOf outcome
    message := match n with
      | .condition .. => b.messageAfterCondition sofar.judgement.message r.judgement
      | .constraint _ | .invalid _ => b.messageAfterConstraint sofar.judgement.message r.judgement }
  visits := sofar.visits ++ r.visits

end Branch

/-- What a condition has come to behind a node that it passes over. -/
def Report.passOver (sofar : Report) (outcome : Option Outcome) : Report :=
  { sofar with judgement.value := Outcome.valueOf outcome }

namespace Node

variable {k : Setting} {b : Branch} {outcome : Option Outcome} {n : Node} {rest : List Node}
  {sofar r : Report} {f : Fault}

/-- The report on a node that a condition looks at; invalid nodes are passed over. -/
def report? (k : Setting) : Node → Option (Except Fault Report)
  | .condition b nodes outcome => some ((condition b nodes outcome).judge k)
  | .constraint c => some (c.judge k)
  | .invalid _ => none

theorem report?_of_isCondition (h : n.isCondition = true) : n.report? k = some (n.judge k) := by
  cases n with
  | condition b nodes outcome => rfl
  | constraint c => cases h
  | invalid raw => cases h

/-- What is no condition is judged to fail with a message, without a visit. -/
theorem judge_of_not_isCondition (h : n.isCondition = false) :
    n.judge k = .ok (.ofJudgement ⟨false, .bool false, .str invalidCondition⟩) := by
  cases n with
  | condition b nodes outcome => cases h
  | constraint c => rw [judge]
  | invalid raw => rw [judge]

theorem report?_eq_none_iff : n.report? k = none ↔ ∃ raw, n = .invalid raw := by
  cases n <;> simp [report?]

theorem ne_invalid_of_report? {report : Except Fault Report} (h : n.report? k = some report)
    (raw : Value) : n ≠ .invalid raw := by
  rintro rfl
  cases h

/-- **One step of a condition**, whatever its next node is. -/
theorem judgeNodes_cons : judgeNodes k b outcome sofar (n :: rest) =
    match n.report? k with
    | none => judgeNodes k b outcome (sofar.passOver outcome) rest
    | some report => report >>= fun r =>
      if b.stopsAt n r.judgement then .ok (b.onward outcome sofar n r)
      else judgeNodes k b outcome (b.onward outcome sofar n r) rest := by
  cases n <;> rw [judgeNodes] <;> rfl

/-- A condition passes over its next node, stops at it, or goes on behind it. -/
theorem step_of_judgeNodes_ok (h : judgeNodes k b outcome sofar (n :: rest) = .ok r) :
    (n.report? k = none ∧ judgeNodes k b outcome (sofar.passOver outcome) rest = .ok r) ∨
    ∃ rn, n.report? k = some (.ok rn) ∧
      (b.stopsAt n rn.judgement = true ∧ r = b.onward outcome sofar n rn ∨
        b.stopsAt n rn.judgement = false ∧
          judgeNodes k b outcome (b.onward outcome sofar n rn) rest = .ok r) := by
  cases hn : n.report? k with
  | none =>
    rw [judgeNodes_cons, hn] at h
    exact .inl ⟨rfl, h⟩
  | some report =>
    rw [judgeNodes_cons, hn] at h
    obtain ⟨rn, rfl, hnext⟩ := Except.bind_eq_ok_iff.mp h
    refine .inr ⟨rn, rfl, ?_⟩
    split at hnext
    · next hstop => exact .inl ⟨hstop, (Except.ok.inj hnext).symm⟩
    · next hstop => exact .inr ⟨by simpa using hstop, hnext⟩

/-- A condition that is not judged has a node without a report: its next one, or one behind it. -/
theorem step_of_judgeNodes_error (h : judgeNodes k b outcome sofar (n :: rest) = .error f) :
    n.report? k = some (.error f) ∨ ∃ next, judgeNodes k b outcome next rest = .error f := by
  cases hn : n.report? k with
  | none =>
    rw [judgeNodes_cons, hn] at h
    exact .inr ⟨_, h⟩
  | some report =>
    rw [judgeNodes_cons, hn] at h
    rcases Except.bind_eq_error_iff.mp h with hreport | ⟨rn, _, h⟩
    · exact .inl (congrArg some hreport)
    · split at h
      · cases h
      · exact .inr ⟨_, h⟩

end Node

/-! ## Roots -/

namespace Rule

section Roots

variable {k : Setting} {default : Option Outcome} {root : Node} {rest : List Node}

/-- A root passes and is answered, fails with a message, or leaves it to the roots behind it. -/
theorem step_of_judgeRoots_ok {r : Report} (h : judgeRoots k default (root :: rest) = .ok r) :
    ∃ rn, root.judge k = .ok rn ∧
      ((rn.judgement.passed = true ∧
          ∃ j, answer k.criteria true root.outcome? = .ok j ∧ r = ⟨j, rn.visits⟩) ∨
        (rn.judgement.passed = false ∧ rn.judgement.hasMessage = true ∧
          r = ⟨⟨false, valueOr (.bool false) (Outcome.valueOf default), rn.judgement.message⟩,
            rn.visits⟩) ∨
        (rn.judgement.passed = false ∧ rn.judgement.hasMessage = false ∧
          ∃ later, judgeRoots k default rest = .ok later ∧ r = later.after rn.visits)) := by
  rw [judgeRoots] at h
  obtain ⟨rn, hroot, h⟩ := Except.bind_eq_ok_iff.mp h
  refine ⟨rn, hroot, ?_⟩
  split at h
  · next hpassed =>
    obtain ⟨j, hj, h⟩ := Except.bind_eq_ok_iff.mp h
    exact .inl ⟨hpassed, j, hj, (Except.ok.inj h).symm⟩
  · next hpassed =>
    rw [Bool.not_eq_true] at hpassed
    split at h
    · next hmessage => exact .inr (.inl ⟨hpassed, hmessage, (Except.ok.inj h).symm⟩)
    · next hmessage =>
      obtain ⟨later, hlater, h⟩ := Except.bind_eq_ok_iff.mp h
      exact .inr (.inr ⟨hpassed, by simpa using hmessage, later, hlater, (Except.ok.inj h).symm⟩)

/-- Roots that come to nothing have one that is not judged or not answered: the first, or one behind
it. -/
theorem step_of_judgeRoots_error {f : Fault} (h : judgeRoots k default (root :: rest) = .error f) :
    root.judge k = .error f ∨ answer k.criteria true root.outcome? = .error f ∨
      judgeRoots k default rest = .error f := by
  rw [judgeRoots] at h
  rcases Except.bind_eq_error_iff.mp h with hroot | ⟨rn, _, h⟩
  · exact .inl hroot
  · split at h
    · rcases Except.bind_eq_error_iff.mp h with hanswer | ⟨_, _, h⟩
      · exact .inr (.inl hanswer)
      · cases h
    · split at h
      · cases h
      · rcases Except.bind_eq_error_iff.mp h with hlater | ⟨_, _, h⟩
        · exact .inr (.inr hlater)
        · cases h

end Roots

/-! ## Criteria -/

/-- Criteria that are no list are judged once. -/
theorem evaluate_eq_judge {criteria : Value} (h : criteria.items? = none) (registry : Registry)
    (rule : Rule) : rule.evaluate registry criteria = (rule.judge registry criteria).map .one := by
  cases criteria with
  | list mark items => cases h
  | _ => rfl

/-- Criteria one after another are each judged, or one of them is not. -/
theorem judgeEach_cases (registry : Registry) (rule : Rule) : ∀ items : List Value,
    (∃ rs, rule.judgeEach registry items = .ok rs ∧
      List.Forall₂ (fun v r => rule.judge registry v = .ok r) items rs) ∨
    ∃ f, rule.judgeEach registry items = .error f ∧ ∃ v ∈ items, rule.judge registry v = .error f
  | [] => .inl ⟨[], rfl, .nil⟩
  | v :: rest => by
    rw [judgeEach]
    cases hv : rule.judge registry v with
    | error f => exact .inr ⟨f, rfl, v, List.mem_cons_self .., hv⟩
    | ok r =>
      rcases judgeEach_cases registry rule rest with ⟨rs, hrs, hjudged⟩ | ⟨f, hf, w, hw, hjudge⟩
      · exact .inl ⟨r :: rs, by rw [hrs]; rfl, .cons hv hjudged⟩
      · exact .inr ⟨f, by rw [hf]; rfl, w, List.mem_cons_of_mem _ hw, hjudge⟩

/-- An evaluation reports on each of the criteria, or one of them is not judged. -/
theorem evaluate_cases (registry : Registry) (rule : Rule) (criteria : Value) :
    (∃ e, rule.evaluate registry criteria = .ok e ∧
      List.Forall₂ (fun v r => rule.judge registry v = .ok r) criteria.flat e.reports) ∨
    ∃ f, rule.evaluate registry criteria = .error f ∧
      ∃ v ∈ criteria.flat, rule.judge registry v = .error f := by
  cases criteria with
  | list mark items =>
    rcases judgeEach_cases registry rule items with ⟨rs, hrs, hjudged⟩ | ⟨f, hf, hjudge⟩
    · exact .inl ⟨.each rs, congrArg (Except.map Evaluated.each) hrs, hjudged⟩
    · exact .inr ⟨f, congrArg (Except.map Evaluated.each) hf, hjudge⟩
  | _ =>
    rw [evaluate_eq_judge rfl]
    cases hjudge : rule.judge registry _ with
    | ok r => exact .inl ⟨.one r, rfl, .cons hjudge .nil⟩
    | error f => exact .inr ⟨f, rfl, _, List.mem_singleton_self _, hjudge⟩

end Rule

end Verdict
