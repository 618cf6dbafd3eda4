import Verdict.Proofs.Introspection.Choice
import Verdict.Proofs.Introspection.Explored
import Verdict.Proofs.Rule.Written

/-!
# Proofs/Introspection/Exact — alternatives of normal rules are neither lost nor made up

A root is **disjunctive** when it is an AND of conjuncts, or an OR of such ANDs and of constraints.
Where all roots are, the alternatives of an outcome are the options of its roots, one root after
another, and some alternative is met exactly where some root of the outcome passes
(`RuleSource.introspect_exact`).
-/

namespace Verdict

namespace RuleSource

variable {now : DateTime}

/-- **Introspection of a rule with disjunctive roots is exact**: some root of an outcome passes
exactly where some alternative of the outcome is met — or a constraint meets the limit on digits. -/
theorem introspect_exact {v : Value} {rule : Rule}
    (hvalid : Validator.validate (.builtIn now) v = .ok none)
    (hread : Rule.ofValue? v = some rule) (hgranular : rule.isGranular = true)
    (hroots : ∀ n ∈ rule.conditions, n.IsDisjunctive)
    (hliteral : ∀ c ∈ rule.constraints, c.IsLiteral)
    (hnegatable : ∀ p ∈ Node.polaritiesOf false rule.conditions,
      p.1 = true → p.2.IsNegatable now) :
    ∃ i, (RuleSource.document v).introspect (.builtIn now) = .ok i ∧
      i.ranges.map CriteriaRange.outcome = Introspection.outcomes rule.conditions ∧
      ∀ range ∈ i.ranges, ∀ criteria : Value,
        (∀ c ∈ rule.constraints, c.Decides ⟨.builtIn now, criteria⟩) →
        (∀ n ∈ rule.conditions, n.Agree ⟨.builtIn now, criteria⟩) →
        ((∃ n ∈ Introspection.rootsOf rule.conditions range.outcome,
            ∃ r, n.judge ⟨.builtIn now, criteria⟩ = .ok r ∧ r.judgement.passed = true) ↔
          ∃ a ∈ range.alternatives, a.isMet ⟨.builtIn now, criteria⟩ = true) ∨
        ∃ c ∈ rule.constraints, ∃ f, c.judge ⟨.builtIn now, criteria⟩ = .error f ∧
          f.isDigitLimit = true := by
  obtain ⟨i, hi, houtcomes, hranges⟩ := introspect_grown hvalid hread hgranular
  refine ⟨i, hi, houtcomes, fun range hrange criteria hdecides hagree => ?_⟩
  refine (Constraint.judged_or_stopsAtDigits hdecides).imp_left fun hjudged => ?_
  obtain ⟨⟨steps, halternatives⟩, hsound⟩ := hranges range hrange
  rw [Node.alternatives_growAll_roots (fun n hn => hroots n (hsound n hn).1)
    (fun n hn => (hsound n hn).2.2), List.nil_append] at halternatives
  -- Root by root: passing is meaning, and meaning is some option that is met.
  have hroot : ∀ n ∈ Introspection.rootsOf rule.conditions range.outcome,
      ((∃ r, n.judge ⟨.builtIn now, criteria⟩ = .ok r ∧ r.judgement.passed = true) ↔
        ∃ a ∈ n.options (.builtIn now), a.isMet ⟨.builtIn now, criteria⟩ = true) := fun n hn => by
    obtain ⟨hmem, hcondition, hsoundn⟩ := hsound n hn
    have hconstraints : ∀ c ∈ n.constraints, c ∈ rule.constraints := fun c hc =>
      Node.mem_constraintsOf.mpr ⟨n, hmem, hc⟩
    have hjudgedn : ∀ c ∈ n.constraints, ∃ r, c.judge ⟨.builtIn now, criteria⟩ = .ok r :=
      fun c hc => hjudged c (hconstraints c hc)
    rw [Node.exists_passed_iff_meaning hcondition hjudgedn, ← List.any_eq_true,
      Node.any_options (hroots n hmem) hsoundn (fun c hc => hliteral c (hconstraints c hc))
        (fun p hp => hnegatable p (Node.mem_polaritiesOf.mpr ⟨n, hmem, hp⟩)) hjudgedn
        (hagree n hmem)]
  constructor
  · rintro ⟨n, hn, hpassed⟩
    obtain ⟨a, ha, hmet⟩ := (hroot n hn).mp hpassed
    exact ⟨a, halternatives ▸ List.mem_flatMap.mpr ⟨n, hn, ha⟩, hmet⟩
  · rintro ⟨a, ha, hmet⟩
    rw [halternatives] at ha
    obtain ⟨n, hn, ha⟩ := List.mem_flatMap.mp ha
    exact ⟨n, hn, (hroot n hn).mpr ⟨a, ha, hmet⟩⟩

/-- An OR with two constraints on one field and a nested AND, and criteria that the second meets. -/
theorem introspect_exact_choice :
    let now := DateTime.epoch
    let test (field operator : String) (v : Value) : Node :=
      .constraint ⟨.str field, .str operator, some v, .null⟩
    let rule : Rule := ⟨[.condition .or [test "a" "in" (.ofItems [.int 1, .int 2]),
      test "a" "equals" (.int 3), .condition .and [test "b" "equals" (.int 4),
        .condition .none [test "c" "equals" (.int 5)] none] none]
      (some ⟨.place [0], .str "yes", .null⟩)], none⟩
    let v := rule.toValue
    let k : Setting := ⟨.builtIn now, .ofFields [("a", .int 3)]⟩
    (Validator.validate (.builtIn now) v = .ok none ∧ Rule.ofValue? v = some rule ∧
      rule.isGranular = true ∧ (∀ n ∈ rule.conditions, n.IsDisjunctive) ∧
      (∀ c ∈ rule.constraints, c.IsLiteral) ∧
      (∀ p ∈ Node.polaritiesOf false rule.conditions, p.1 = true → p.2.IsNegatable now) ∧
      (∀ c ∈ rule.constraints, c.Decides k) ∧ ∀ n ∈ rule.conditions, n.Agree k) ∧
    ∃ i, (RuleSource.document v).introspect (.builtIn now) = .ok i ∧ ∀ range ∈ i.ranges,
      ((∃ n ∈ Introspection.rootsOf rule.conditions range.outcome,
        ∃ r, n.judge k = .ok r ∧ r.judgement.passed = true) ↔
      ∃ a ∈ range.alternatives, a.isMet k = true) := by
  intro now test rule v k
  have hchecked : ∀ c ∈ rule.constraints,
      (Validator.checkConstraint (.builtIn now) c.toValue).isFine = true := by decide +kernel
  obtain ⟨hvalid, hread⟩ : Validator.validate (.builtIn now) v = .ok none ∧
      Rule.ofValue? v = some rule :=
    Rule.valid_toValue (List.cons_ne_nil _ _) (List.forall_mem_singleton.mpr rfl) rfl rfl hchecked
  have hroots : ∀ n ∈ rule.conditions, n.IsDisjunctive := by
    refine List.forall_mem_singleton.mpr (.or ?_)
    refine List.forall_mem_cons.mpr ⟨.inl rfl, List.forall_mem_cons.mpr ⟨.inl rfl,
      List.forall_mem_singleton.mpr (.inr ⟨rfl, .and ?_, ?_⟩)⟩⟩
    · exact List.forall_mem_cons.mpr ⟨.constraint _, List.forall_mem_singleton.mpr
        (.none (List.forall_mem_singleton.mpr rfl))⟩
    · simp [Node.fields, Node.constraints, Node.constraintsOf, test]
  have hliteral : ∀ c ∈ rule.constraints, c.IsLiteral := by
    refine List.forall_mem_cons.mpr ⟨.of_items rfl ?_ (by simp), ?_⟩
    · exact List.forall_mem_cons.mpr ⟨⟨rfl, rfl⟩, List.forall_mem_singleton.mpr ⟨rfl, rfl⟩⟩
    · exact List.forall_mem_cons.mpr ⟨.of_isScalar rfl rfl, List.forall_mem_cons.mpr
        ⟨.of_isScalar rfl rfl, List.forall_mem_singleton.mpr (.of_isScalar rfl rfl)⟩⟩
  have hnegatable : ∀ p ∈ Node.polaritiesOf false rule.conditions,
      p.1 = true → p.2.IsNegatable now := by
    have hnone : ∀ c : Constraint, false = true → c.IsNegatable now := fun _ h =>
      absurd h Bool.false_ne_true
    refine List.forall_mem_cons.mpr ⟨hnone _, List.forall_mem_cons.mpr ⟨hnone _,
      List.forall_mem_cons.mpr ⟨hnone _, List.forall_mem_singleton.mpr fun _ => ?_⟩⟩⟩
    exact ⟨"equals", "not-equals", Operator.isInversePair_equals now, .inl rfl⟩
  have hsome : ∀ c ∈ rule.constraints, (c.judge k).toOption.isSome = true := by decide +kernel
  have hjudged : ∀ c ∈ rule.constraints, ∃ r, c.judge k = .ok r := fun c hc =>
    Except.exists_eq_ok_of_isSome (hsome c hc)
  have hagree : ∀ n ∈ rule.conditions, n.Agree k := by
    refine List.forall_mem_singleton.mpr fun c hc c' hc' _ hoperator _ => ?_
    rcases List.mem_cons.mp hc with rfl | hc <;> rcases List.mem_cons.mp hc' with rfl | hc'
    · rfl
    · cases List.mem_singleton.mp hc'
      exact absurd (Value.str.inj hoperator) (by decide)
    · cases List.mem_singleton.mp hc
      exact absurd (Value.str.inj hoperator) (by decide)
    · rw [List.mem_singleton.mp hc, List.mem_singleton.mp hc']
  have hdecides : ∀ c ∈ rule.constraints, c.Decides k := fun c hc =>
    Constraint.decides_of_judge (hjudged c hc)
  refine ⟨⟨hvalid, hread, rfl, hroots, hliteral, hnegatable, hdecides, hagree⟩, ?_⟩
  obtain ⟨i, hi, _, hranges⟩ := introspect_exact hvalid hread rfl hroots hliteral hnegatable
  exact ⟨i, hi, fun range hrange => (hranges range hrange _ hdecides hagree).resolve_right
    (Constraint.not_stops_of_judged hjudged)⟩

/-- The numbers `1.0` and `1` are equal and are written differently: the requirement of the second
is left out, and the root passes where no alternative is met. -/
theorem introspect_takes_equal_values_together :
    let now := DateTime.epoch
    let test (v : Value) : Node :=
      .constraint ⟨.str "f", .str "self-contains-any", some (.ofItems [v]), .null⟩
    let rule : Rule := ⟨[.condition .or
      [test (.float (.finite false Binary64.unitsPerOne)), test (.int 1)]
      (some ⟨.place [0], .str "yes", .null⟩)], none⟩
    let v := rule.toValue
    let k : Setting := ⟨.builtIn now, .ofFields [("f", .str "1")]⟩
    (Validator.validate (.builtIn now) v = .ok none ∧ Rule.ofValue? v = some rule ∧
      rule.isGranular = true ∧ (∀ n ∈ rule.conditions, n.IsDisjunctive) ∧
      (∀ c ∈ rule.constraints, c.IsLiteral) ∧
      (∀ p ∈ Node.polaritiesOf false rule.conditions, p.1 = true → p.2.IsNegatable now) ∧
      ∀ c ∈ rule.constraints, ∃ r, c.judge k = .ok r) ∧
    ∃ i, (RuleSource.document v).introspect (.builtIn now) = .ok i ∧ ∃ range ∈ i.ranges,
      (∃ n ∈ Introspection.rootsOf rule.conditions range.outcome,
        ∃ r, n.judge k = .ok r ∧ r.judgement.passed = true) ∧
      ¬ ∃ a ∈ range.alternatives, a.isMet k = true := by
  intro now test rule v k
  have hchecked : ∀ c ∈ rule.constraints,
      (Validator.checkConstraint (.builtIn now) c.toValue).isFine = true := by decide +kernel
  obtain ⟨hvalid, hread⟩ : Validator.validate (.builtIn now) v = .ok none ∧
      Rule.ofValue? v = some rule :=
    Rule.valid_toValue (List.cons_ne_nil _ _) (List.forall_mem_singleton.mpr rfl) rfl rfl hchecked
  have hroots : ∀ n ∈ rule.conditions, n.IsDisjunctive := by
    refine List.forall_mem_singleton.mpr (.or ?_)
    exact List.forall_mem_cons.mpr ⟨.inl rfl, List.forall_mem_singleton.mpr (.inl rfl)⟩
  have hliteral : ∀ c ∈ rule.constraints, c.IsLiteral :=
    List.forall_mem_cons.mpr
      ⟨.of_items rfl (List.forall_mem_singleton.mpr ⟨rfl, rfl⟩) (by simp),
        List.forall_mem_singleton.mpr
          (.of_items rfl (List.forall_mem_singleton.mpr ⟨rfl, rfl⟩) (by simp))⟩
  have hnegatable : ∀ p ∈ Node.polaritiesOf false rule.conditions,
      p.1 = true → p.2.IsNegatable now := by
    have hnone : ∀ c : Constraint, false = true → c.IsNegatable now := fun _ h =>
      absurd h Bool.false_ne_true
    exact List.forall_mem_cons.mpr ⟨hnone _, List.forall_mem_singleton.mpr (hnone _)⟩
  have hsome : ∀ c ∈ rule.constraints, (c.judge k).toOption.isSome = true := by decide +kernel
  have hjudged : ∀ c ∈ rule.constraints, ∃ r, c.judge k = .ok r := fun c hc =>
    Except.exists_eq_ok_of_isSome (hsome c hc)
  refine ⟨⟨hvalid, hread, rfl, hroots, hliteral, hnegatable, hjudged⟩, ?_⟩
  obtain ⟨i, hi, hranges⟩ := introspect_eq hvalid hread rfl
  have hgap : ∃ range ∈ Introspection.grown (.builtIn now) rule.conditions
      (Introspection.outcomes rule.conditions) [],
      (∃ n ∈ Introspection.rootsOf rule.conditions range.outcome,
        n.isCondition = true ∧ n.meaning (Constraint.holds k) = true) ∧
      ∀ a ∈ range.alternatives, a.isMet k = false := by decide +kernel
  obtain ⟨range, hrange, ⟨n, hn, hcondition, hmeaning⟩, hnone⟩ := hgap
  refine ⟨i, hi, range, hranges ▸ hrange, ⟨n, hn, ?_⟩, ?_⟩
  · refine (Node.exists_passed_iff_meaning hcondition fun c hc => ?_).mpr hmeaning
    exact hjudged c (Node.mem_constraintsOf.mpr ⟨n, Introspection.mem_of_mem_rootsOf hn, hc⟩)
  · rintro ⟨a, ha, hmet⟩
    rw [hnone a ha] at hmet
    cases hmet

end RuleSource

end Verdict
