import Verdict.Proofs.Evaluation.Meaning

/-!
# Proofs/Evaluation/Visit — what is visited on the way to a judgement

    Constraint.judge c   visits  c, with an operand exactly where its operator is known
    Node.judge n         visits  some constraints of n
    Rule.evaluate rule   visits  some constraints of the rule, for each criteria

What holds of the visits of single constraints holds of all visits of a node, of a rule and of an
evaluation (`Node.forall_visits`, `Rule.visits_evaluate`).
-/

namespace Verdict

/-- A visit to one of some constraints, with an operand exactly where the operator is known. -/
structure Visit.IsOf (registry : Registry) (cs : List Constraint) (visit : Visit) : Prop where
  mem : visit.constraint ∈ cs
  operand : visit.operand.isSome = registry.has visit.constraint.operator

/-- Judging a constraint visits it once. -/
theorem Constraint.visits_of_judge {k : Setting} {c : Constraint} {r : Report}
    (h : c.judge k = .ok r) : ∀ visit ∈ r.visits, visit.IsOf k.registry [c] := by
  cases judged_of_judge h with
  | unknown _ hfind _ =>
    refine List.forall_mem_singleton.mpr ⟨List.mem_singleton_self c, ?_⟩
    rw [Registry.has, hfind]
    rfl
  | tested _ hfind _ _ _ =>
    refine List.forall_mem_singleton.mpr ⟨List.mem_singleton_self c, ?_⟩
    rw [Registry.has, hfind]
    rfl

namespace Node

variable {k : Setting} {P : Visit → Prop}

mutual

/-- What holds of the visits of each constraint holds of all visits of a node. -/
theorem forall_visits : ∀ {n : Node},
    (∀ c ∈ n.constraints, ∀ r, c.judge k = .ok r → ∀ visit ∈ r.visits, P visit) →
    ∀ {r : Report}, n.report? k = some (.ok r) → ∀ visit ∈ r.visits, P visit
  | .condition b nodes outcome, h, r, hr => by
    have hjudge : (condition b nodes outcome).judge k = .ok r := Option.some.inj hr
    rw [constraints] at h
    rw [judge] at hjudge
    exact forall_visits_nodes b outcome h (List.forall_mem_nil P) hjudge
  | .constraint c, h, r, hr => h c (by simp [constraints]) r (Option.some.inj hr)
  | .invalid _, _, _, hr => nomatch hr

theorem forall_visits_nodes (b : Branch) (outcome : Option Outcome) : ∀ {nodes : List Node},
    (∀ c ∈ constraintsOf nodes, ∀ r, c.judge k = .ok r → ∀ visit ∈ r.visits, P visit) →
    ∀ {sofar : Report}, (∀ visit ∈ sofar.visits, P visit) →
    ∀ {r : Report}, judgeNodes k b outcome sofar nodes = .ok r → ∀ visit ∈ r.visits, P visit
  | [], _, sofar, hsofar, r, hr => by
    rw [judgeNodes] at hr
    cases hr
    exact hsofar
  | n :: rest, h, sofar, hsofar, r, hr => by
    rw [constraintsOf, List.forall_mem_append] at h
    rcases step_of_judgeNodes_ok hr with ⟨_, hrest⟩ | ⟨rn, hn, hstep⟩
    · have hpass : ∀ visit ∈ (sofar.passOver outcome).visits, P visit := hsofar
      exact forall_visits_nodes b outcome h.2 hpass hrest
    · have hnext : ∀ visit ∈ (b.onward outcome sofar n rn).visits, P visit :=
        List.forall_mem_append.mpr ⟨hsofar, forall_visits h.1 hn⟩
      rcases hstep with ⟨_, rfl⟩ | ⟨_, hrest⟩
      · exact hnext
      · exact forall_visits_nodes b outcome h.2 hnext hrest

end

theorem forall_visits_of_judge {n : Node}
    (h : ∀ c ∈ n.constraints, ∀ r, c.judge k = .ok r → ∀ visit ∈ r.visits, P visit)
    {r : Report} (hr : n.judge k = .ok r) : ∀ visit ∈ r.visits, P visit := by
  cases hn : n.isCondition with
  | true => exact forall_visits h ((report?_of_isCondition hn).trans (congrArg some hr))
  | false =>
    rw [judge_of_not_isCondition hn] at hr
    cases hr
    exact List.forall_mem_nil P

end Node

namespace Rule

variable {registry : Registry} {P : Visit → Prop}

theorem forall_visits_roots {k : Setting} {default : Option Outcome} : ∀ {roots : List Node},
    (∀ n ∈ roots, ∀ r, n.judge k = .ok r → ∀ visit ∈ r.visits, P visit) →
    ∀ {r : Report}, judgeRoots k default roots = .ok r → ∀ visit ∈ r.visits, P visit
  | [], _, r, hr => by
    rw [judgeRoots] at hr
    obtain ⟨j, _, rfl⟩ := Except.map_eq_ok_iff.mp hr
    exact List.forall_mem_nil P
  | root :: rest, h, r, hr => by
    obtain ⟨hroot, hrest⟩ := List.forall_mem_cons.mp h
    obtain ⟨rn, hrn, ⟨_, j, _, rfl⟩ | ⟨_, _, rfl⟩ | ⟨_, _, later, hlater, rfl⟩⟩ :=
      step_of_judgeRoots_ok hr
    · exact hroot rn hrn
    · exact hroot rn hrn
    · exact List.forall_mem_append.mpr ⟨hroot rn hrn, forall_visits_roots hrest hlater⟩

/-- Each report of an evaluation judges some criteria. -/
theorem exists_criteria_of_evaluate {rule : Rule} {criteria : Value} {e : Evaluated}
    (h : rule.evaluate registry criteria = .ok e) :
    ∀ r ∈ e.reports, ∃ criteria, rule.judge registry criteria = .ok r := by
  rcases evaluate_cases registry rule criteria with ⟨e', he, hjudged⟩ | ⟨f, hf, _⟩
  · cases h.symm.trans he
    generalize criteria.flat = values, e.reports = reports at hjudged
    induction hjudged with
    | nil => exact fun r hr => nomatch hr
    | cons hv _ ih => exact List.forall_mem_cons.mpr ⟨⟨_, hv⟩, ih⟩
  · cases h.symm.trans hf

/-- **Evaluation visits constraints of the rule, with operands exactly where their operators are
known.** -/
theorem visits_evaluate {rule : Rule} {criteria : Value} {e : Evaluated}
    (h : rule.evaluate registry criteria = .ok e) :
    ∀ r ∈ e.reports, ∀ visit ∈ r.visits, visit.IsOf registry rule.constraints := by
  intro r hr
  obtain ⟨criteria, hjudge⟩ := exists_criteria_of_evaluate h r hr
  refine forall_visits_roots
    (fun n hn r hr => Node.forall_visits_of_judge (fun c hc r hr visit hvisit => ?_) hr) hjudge
  have hvisit : visit.IsOf registry [c] := Constraint.visits_of_judge hr visit hvisit
  refine ⟨?_, hvisit.operand⟩
  rw [List.mem_singleton.mp hvisit.mem]
  exact Node.mem_constraintsOf.mpr ⟨n, hn, hc⟩

end Rule

end Verdict
