import Verdict.Proofs.Evaluation.Visit
import Verdict.Proofs.Introspection.Warning
import Verdict.Proofs.Validation.Exact

/-!
# Proofs/Validation/Safety — a valid document does not go wrong

    document ──validate──▸ fine
       │
       ├─read──────▸ conditions of sound nodes
       ├─evaluate──▸ known operators only
       └─introspect▸ exactly where all roots have results, without unknown operators

Validator, reader, evaluator and introspector each decide on their own what a node is.  On a valid
document they agree (`RuleSource.valid_goes_well`).
-/

namespace Verdict

/-! ## Roots and their results -/

namespace Grammar

variable {r : Registry} {v : Value}

/-- A payload is read exactly where it is not `null`. -/
theorem isSome_ofValue? (h : IsPayload v) (place : Origin) :
    (Outcome.ofValue? place v).isSome = !v.isNull := by
  rcases h with hnull | hvalue
  · cases v <;> first | rfl | cases hnull
  · cases v <;> first | rfl | cases hvalue

theorem IsCondition.isPayload (h : IsCondition r v) : IsPayload (v.getOrNull "result") := by
  cases h with
  | mk _ _ hresult => exact hresult

/-- A root that is well formed counts as a condition before and after it is read. -/
theorem IsCondition.outcome?_ofValue (h : IsCondition r v) (hconstraint : v.isConstraint = false)
    (place : List Nat) : (Node.ofValue place v).outcome? =
      Outcome.ofValue? (.place place) (v.getOrNull "result") := by
  cases h with
  | @mk _ b mark nodes hb hnodes =>
    have hbranch : v.branch? = some b := by rw [Value.branch?, hb]
    rw [Validator.ofValue_eq_condition (by rw [hconstraint]; exact Bool.false_ne_true) hbranch hnodes]
    rfl

theorem IsCondition.isCondition (h : IsCondition r v) (hconstraint : v.isConstraint = false) :
    v.isCondition = true := by
  cases h with
  | mk hb =>
    rw [Value.isCondition, Value.branch?, hb, hconstraint]
    rfl

/-- Roots have results exactly where their documents have. -/
theorem all_outcome?_ofItems : ∀ {roots : List Value},
    (∀ c ∈ roots, c.isConstraint = false ∧ IsCondition r c) → ∀ position : Nat,
      ((Node.ofItems [] position roots).all fun n => n.outcome?.isSome) =
        roots.all fun c => !(c.getOrNull "result").isNull
  | [], _, position => by
    rw [Node.ofItems]
    rfl
  | c :: rest, h, position => by
    obtain ⟨⟨hconstraint, hc⟩, hrest⟩ := List.forall_mem_cons.mp h
    rw [Node.ofItems, List.all_cons, List.all_cons, all_outcome?_ofItems hrest (position + 1),
      hc.outcome?_ofValue hconstraint, isSome_ofValue? hc.isPayload]

/-- A well-formed document is granular exactly where no result is missing. -/
theorem IsRule.isGranular_eq (h : IsRule r v) :
    v.isGranular = v.conditions.all fun c => !(c.getOrNull "result").isNull := by
  rw [Value.isGranular, Bool.eq_iff_iff, List.all_eq_true, List.all_eq_true]
  refine forall₂_congr fun c hc => ?_
  obtain ⟨hconstraint, hcondition⟩ := h.conditions c hc
  rw [hcondition.isCondition hconstraint, Bool.true_and]

/-- A well-formed document is read as a rule that is granular exactly where the document is. -/
theorem IsRule.exists_rule (h : IsRule r v) :
    ∃ rule, Rule.ofValue? v = some rule ∧ v.isGranular = rule.isGranular := by
  have hgranular := h.isGranular_eq
  cases v with
  | object mark fields =>
    refine ⟨_, rfl, ?_⟩
    rw [hgranular, Rule.isGranular]
    exact (all_outcome?_ofItems h.conditions 0).symm
  | _ => cases h.isObject

end Grammar

namespace RuleSource

variable {r : Registry} {v : Value} {rule : Rule}

/-- Introspecting a document is introspecting its rule, if that is granular. -/
theorem introspect_document (hread : Rule.ofValue? v = some rule) (r : Registry) :
    (RuleSource.document v).introspect r =
      if rule.isGranular then Failure.ofFault (Introspection.ofRule r rule)
      else .error .notGranular := by
  have hrule : (RuleSource.document v).read = .ok rule := by
    rw [RuleSource.read, RuleSource.rule?, hread]
  rw [RuleSource.introspect, hrule]
  rfl

/-- **A valid granular document is introspected without a warning of an unknown operator.** -/
theorem introspect_knowsOperators (hvalid : Validator.validate r v = .ok none)
    (hread : Rule.ofValue? v = some rule) (hgranular : rule.isGranular = true) :
    ∃ i, (RuleSource.document v).introspect r = .ok i ∧ i.findings.KnowsOperators := by
  have hsound : ∀ c ∈ rule.constraints, c.IsSound r :=
    Node.IsSound.of_mem_constraintsOf fun n hn => (Rule.isSound_of_validate hvalid hread n hn).2
  obtain ⟨i, hi, _, hnoted⟩ :=
    (introspect_explored (s := .document v) hread hgranular
      fun c hc => (hsound c hc).follows).resolve_right
      fun ⟨_, c, hc, hstop⟩ => hstop (hsound c hc).isReadable
  refine ⟨i, hi, hnoted.keeps ?_ (Exploration.isInvariant_knowsOperators hsound) nofun⟩
  intro c hc
  have hroots := Introspection.constraints_noted (List.all_eq_true.mp hgranular)
  exact hroots.mem_iff.mp (List.mem_filterMap.mpr ⟨_, hc, rfl⟩)

/-- Whether some root of a document has no result, or `null` for one. -/
def LacksResult (v : Value) : Prop := ∃ c ∈ v.conditions, (c.getOrNull "result").isNull = true

/-- A well-formed document lacks a result exactly where its rule is not granular. -/
theorem lacksResult_iff (h : Grammar.IsRule r v) : LacksResult v ↔ v.isGranular = false := by
  rw [h.isGranular_eq, LacksResult, List.all_eq_false]
  simp

/-- **Introspection of a valid document fails exactly where a result is lacking.** -/
theorem introspect_eq_notGranular_iff (hvalid : Validator.validate r v = .ok none)
    (hread : Rule.ofValue? v = some rule) (hgranular : v.isGranular = rule.isGranular) :
    (RuleSource.document v).introspect r = .error .notGranular ↔ LacksResult v := by
  have hrule : Grammar.IsRule r v := (Validator.settles_validate r v).fine_iff.mp hvalid
  rw [lacksResult_iff hrule, hgranular]
  constructor
  · intro h
    refine Bool.eq_false_iff.mpr fun hall => ?_
    obtain ⟨i, hi, _⟩ := introspect_knowsOperators hvalid hread hall
    rw [hi] at h
    cases h
  · intro h
    rw [introspect_document hread, h]
    rfl

/-- A sound constraint has a registered operator. -/
theorem has_operator_of_isSound {c : Constraint} (h : c.IsSound r) :
    ∃ name, c.operator = .str name ∧ r.has (.str name) = true := by
  obtain ⟨name, o, hname, ho⟩ := h.operator
  exact ⟨name, hname, by rw [Registry.has, ho]; rfl⟩

/-- What a document and the rule that is read from it agree on. -/
structure Agrees (r : Registry) (v : Value) (rule : Rule) : Prop where
  /-- Roots are conditions, and nothing below them is invalid. -/
  sound : ∀ n ∈ rule.conditions, n.isCondition = true ∧ n.IsSound r
  /-- Each constraint has a text as its field and a registered operator. -/
  constraint : ∀ c ∈ rule.constraints,
    (∃ name, c.field = .str name) ∧ ∃ name, c.operator = .str name ∧ r.has (.str name) = true
  /-- Evaluation comes to constraints of the rule only, and their operators are given operands. -/
  visit : ∀ (criteria : Value) (e : Evaluated), rule.evaluate r criteria = .ok e →
    ∀ report ∈ e.reports, ∀ visit ∈ report.visits,
      visit.constraint ∈ rule.constraints ∧ visit.operand.isSome = true
  granular : v.isGranular = rule.isGranular
  /-- Introspection fails exactly where a root has no result. -/
  notGranular : (RuleSource.document v).introspect r = .error .notGranular ↔ LacksResult v
  /-- Otherwise it warns of no unknown operator. -/
  warning : ¬ LacksResult v → ∃ i, (RuleSource.document v).introspect r = .ok i ∧
    ∀ warning ∈ i.findings.warnings, startsWith warning "Unknown operator" = false

/-- **A valid document does not go wrong**: it is read as a rule, and validator, reader, evaluator
and introspector agree on it. -/
theorem valid_goes_well (hvalid : Validator.validate r v = .ok none) :
    ∃ rule, Rule.ofValue? v = some rule ∧ Agrees r v rule := by
  have hrule : Grammar.IsRule r v := (Validator.settles_validate r v).fine_iff.mp hvalid
  obtain ⟨rule, hread, hgranular⟩ := hrule.exists_rule
  have hsound : ∀ n ∈ rule.conditions, n.isCondition = true ∧ n.IsSound r :=
    Rule.isSound_of_validate hvalid hread
  have hconstraints : ∀ c ∈ rule.constraints, c.IsSound r :=
    Node.IsSound.of_mem_constraintsOf fun n hn => (hsound n hn).2
  have hnotGranular := introspect_eq_notGranular_iff hvalid hread hgranular
  refine ⟨rule, hread, hsound,
    fun c hc => ⟨(hconstraints c hc).field, has_operator_of_isSound (hconstraints c hc)⟩, ?_,
    hgranular, hnotGranular, fun hresults => ?_⟩
  · intro criteria e he report hreport visit hvisit
    have hof := Rule.visits_evaluate he report hreport visit hvisit
    obtain ⟨name, hname, hhas⟩ := has_operator_of_isSound (hconstraints _ hof.mem)
    exact ⟨hof.mem, by rw [hof.operand, hname, hhas]⟩
  · rw [lacksResult_iff hrule, hgranular, Bool.not_eq_false] at hresults
    exact introspect_knowsOperators hvalid hread hresults

/-- A valid document with two roots, of which the second has no result. -/
theorem valid_goes_well_without_result :
    let now := DateTime.epoch
    let test (field operator : String) (v : Value) : Node :=
      .constraint ⟨.str field, .str operator, some v, .null⟩
    let rule : Rule := ⟨[.condition .or [test "a" "in" (.ofItems [.int 1, .int 2]),
        .condition .none [test "b" "matches" (.str "^x")] none]
        (some ⟨.place [0], .str "yes", .null⟩),
      .condition .and [test "c" "equals" (.int 3)] none], none⟩
    let v := rule.toValue
    (Validator.validate (.builtIn now) v = .ok none ∧ LacksResult v) ∧
    (∃ rule', Rule.ofValue? v = some rule' ∧ Agrees (.builtIn now) v rule') ∧
    (RuleSource.document v).introspect (.builtIn now) = .error .notGranular := by
  intro now test rule v
  have hchecked : ∀ c ∈ rule.constraints,
      (Validator.checkConstraint (.builtIn now) c.toValue).isFine = true := by decide +kernel
  have hvalid : Validator.validate (.builtIn now) v = .ok none :=
    Rule.validate_toValue (List.cons_ne_nil _ _)
      (List.forall_mem_cons.mpr ⟨rfl, List.forall_mem_singleton.mpr rfl⟩) rfl
      fun c hc => Validation.isFine_iff.mp (hchecked c hc)
  have hlacks : LacksResult v :=
    ⟨(Node.condition .and [test "c" "equals" (.int 3)] none).toValue,
      List.mem_cons_of_mem _ (List.mem_singleton_self _), rfl⟩
  obtain ⟨rule', hread, hagrees⟩ := valid_goes_well hvalid
  exact ⟨⟨hvalid, hlacks⟩, ⟨rule', hread, hagrees⟩, hagrees.notGranular.mpr hlacks⟩

end RuleSource

end Verdict
