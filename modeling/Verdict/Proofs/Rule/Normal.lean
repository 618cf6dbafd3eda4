import Verdict.Evaluation.Rule
import Verdict.Proofs.Validation.Exact

/-!
# Proofs/Rule/Normal — reading a document and writing it again loses nothing

    document ── read ──▸ Rule ── write ──▸ document' ── read ──▸ Rule'
                          └──── equal but for the origins ────────┘

Documents come in many shapes: a single object for a list of one, values left out, results that are
no objects, fragments that are invalid.  What is written from a rule that was read has one shape.  It
is read as the same tree, in which only the outcomes are at other places: **anonymous** trees forget
where outcomes come from, and neither writing nor judging depends on it.  So a second writing gives
the same document, evaluation comes to the same, and a valid document stays valid
(`Rule.normal_of_read`).
-/

namespace Verdict

/-! ## Where outcomes come from -/

/-- An outcome that cannot be told apart from one that holds the same. -/
def Outcome.anonymous (o : Outcome) : Outcome := { o with origin := .default }

namespace Outcome

variable (o : Outcome)

@[simp] theorem anonymous_placed (origin : Origin) : (o.placed origin).anonymous = o.anonymous := rfl

@[simp] theorem toValue_anonymous : o.anonymous.toValue = o.toValue := rfl

@[simp] theorem toField_anonymous (name : String) (o : Option Outcome) :
    toField name (o.map anonymous) = toField name o := by
  cases o <;> rfl

@[simp] theorem valueOf_anonymous (o : Option Outcome) : valueOf (o.map anonymous) = valueOf o := by
  cases o <;> rfl

end Outcome

namespace Node

mutual

/-- A node whose outcomes are anonymous. -/
def anonymous : Node → Node
  | .condition b nodes outcome =>
    .condition b (anonymousAll nodes) (outcome.map Outcome.anonymous)
  | .constraint c => .constraint c
  | .invalid raw => .invalid raw

/-- Nodes whose outcomes are anonymous. -/
def anonymousAll : List Node → List Node
  | [] => []
  | n :: rest => anonymous n :: anonymousAll rest

end

mutual

theorem anonymous_placed (place : List Nat) : ∀ n : Node, (n.placed place).anonymous = n.anonymous
  | .condition b nodes outcome => by
    rw [placed, anonymous, anonymous, anonymousAll_placedAll place 0 nodes, Option.map_map]
    rfl
  | .constraint c => by rw [placed]
  | .invalid raw => by rw [placed]

theorem anonymousAll_placedAll (place : List Nat) (position : Nat) :
    ∀ nodes : List Node, anonymousAll (placedAll place position nodes) = anonymousAll nodes
  | [] => by rw [placedAll]
  | n :: rest => by
    rw [placedAll, anonymousAll, anonymousAll, anonymous_placed (position :: place) n,
      anonymousAll_placedAll place (position + 1) rest]

end

mutual

/-- What is written does not say where outcomes come from. -/
theorem toValue_anonymous : ∀ n : Node, n.anonymous.toValue = n.toValue
  | .condition b nodes outcome => by
    rw [anonymous, toValue, toValue, toValues_anonymousAll nodes, Outcome.toField_anonymous]
  | .constraint c => by rw [anonymous]
  | .invalid raw => by rw [anonymous]

theorem toValues_anonymousAll : ∀ nodes : List Node, toValues (anonymousAll nodes) = toValues nodes
  | [] => by rw [anonymousAll]
  | n :: rest => by
    rw [anonymousAll, toValues, toValues, toValue_anonymous n, toValues_anonymousAll rest]

end

theorem outcome?_anonymous (n : Node) :
    n.anonymous.outcome? = n.outcome?.map Outcome.anonymous := by
  cases n <;> rw [anonymous] <;> rfl

variable (k : Setting)

mutual

/-- A judgement does not depend on where outcomes come from. -/
theorem judge_anonymous : ∀ n : Node, n.anonymous.judge k = n.judge k
  | .condition b nodes outcome => by
    rw [anonymous, judge, judge, judgeNodes_anonymousAll b outcome _ nodes]
  | .constraint c => by rw [anonymous]
  | .invalid raw => by rw [anonymous]

theorem judgeNodes_anonymousAll (b : Branch) (outcome : Option Outcome) (sofar : Report) :
    ∀ nodes : List Node, judgeNodes k b (outcome.map Outcome.anonymous) sofar (anonymousAll nodes) =
      judgeNodes k b outcome sofar nodes
  | [] => by rw [anonymousAll, judgeNodes, judgeNodes]
  | .invalid raw :: rest => by
    rw [anonymousAll, anonymous, judgeNodes, judgeNodes, Outcome.valueOf_anonymous,
      judgeNodes_anonymousAll b outcome _ rest]
  | .constraint c :: rest => by
    rw [anonymousAll, anonymous, judgeNodes, judgeNodes]
    simp only [Outcome.valueOf_anonymous, judgeNodes_anonymousAll b outcome _ rest]
  | .condition b' nodes outcome' :: rest => by
    have hnode := judge_anonymous (.condition b' nodes outcome')
    rw [anonymous] at hnode
    rw [anonymousAll, anonymous, judgeNodes, judgeNodes, hnode]
    simp only [Outcome.valueOf_anonymous, judgeNodes_anonymousAll b outcome _ rest]

end

end Node

namespace Rule

/-- A rule whose outcomes are anonymous. -/
def anonymous (rule : Rule) : Rule :=
  ⟨Node.anonymousAll rule.conditions, rule.default.map Outcome.anonymous⟩

variable (rule : Rule)

theorem anonymous_placed : rule.placed.anonymous = rule.anonymous := by
  rw [placed, anonymous, anonymous, Node.anonymousAll_placedAll, Option.map_map]
  rfl

theorem toValue_anonymous : rule.anonymous.toValue = rule.toValue := by
  rw [anonymous, toValue, toValue, Node.toValues_anonymousAll, Outcome.toField_anonymous]

theorem answer_anonymous (criteria : Value) (passed : Bool) (o : Option Outcome) :
    answer criteria passed (o.map Outcome.anonymous) = answer criteria passed o := by
  cases o <;> rfl

theorem judgeRoots_anonymousAll (k : Setting) (default : Option Outcome) : ∀ roots : List Node,
    judgeRoots k (default.map Outcome.anonymous) (Node.anonymousAll roots) =
      judgeRoots k default roots
  | [] => by rw [Node.anonymousAll, judgeRoots, judgeRoots, answer_anonymous]
  | root :: rest => by
    rw [Node.anonymousAll, judgeRoots, judgeRoots, Node.judge_anonymous, Node.outcome?_anonymous,
      judgeRoots_anonymousAll k default rest]
    simp only [answer_anonymous, Outcome.valueOf_anonymous]

theorem judgeEach_anonymous (r : Registry) : ∀ items : List Value,
    judgeEach r rule.anonymous items = judgeEach r rule items
  | [] => rfl
  | criteria :: rest => by
    have hjudge : rule.anonymous.judge r criteria = rule.judge r criteria :=
      judgeRoots_anonymousAll ..
    rw [judgeEach, judgeEach, hjudge, judgeEach_anonymous r rest]

/-- **Evaluation does not depend on where outcomes come from.** -/
theorem evaluate_anonymous (r : Registry) (criteria : Value) :
    rule.anonymous.evaluate r criteria = rule.evaluate r criteria := by
  cases criteria with
  | list mark items => exact congrArg (Except.map Evaluated.each) (judgeEach_anonymous rule r items)
  | _ => exact congrArg (Except.map Evaluated.one) (judgeRoots_anonymousAll ..)

end Rule

/-! ## What was read -/

namespace Node

/-- A document that is no constraint is read as a condition of its nodes, or it is invalid wherever
it is read. -/
theorem ofValue_cases {v : Value} (hconstraint : ¬ v.isConstraint = true) :
    (∃ b items, (∀ w ∈ items, sizeOf w < sizeOf v) ∧ ∀ place, ∃ outcome,
      ofValue place v = .condition b (ofItems place 0 items) outcome) ∨
    ∀ place, ofValue place v = .invalid v := by
  cases hb : v.branch? with
  | none => exact .inr fun place => by rw [ofValue, if_neg hconstraint, hb]
  | some b =>
    by_cases hlist : ∃ mark items, v.get? b.name = some (.list mark items)
    · obtain ⟨mark, items, hget⟩ := hlist
      refine .inl ⟨b, items, fun w hw => ?_, fun place =>
        ⟨_, Validator.ofValue_eq_condition hconstraint hb hget place⟩⟩
      have hlist := Value.sizeOf_lt_of_get? hget
      have hitem := List.sizeOf_lt_of_mem hw
      simp only [Value.list.sizeOf_spec] at hlist
      omega
    · by_cases hobject : ∃ mark fields, v.get? b.name = some (.object mark fields)
      · -- a single object stands for a list of one
        obtain ⟨mark, fields, hget⟩ := hobject
        refine .inl ⟨b, [.object mark fields], fun w hw => ?_, fun place =>
          ⟨Outcome.ofValue? (.place place) (v.getOrNull "result"), ?_⟩⟩
        · rw [List.mem_singleton.mp hw]
          exact Value.sizeOf_lt_of_get? hget
        · rw [ofValue, if_neg hconstraint, ofItems, ofItems]
          simp only [hb]
          split
          · next heq => cases hget.symm.trans heq
          · next heq => cases hget.symm.trans heq; rfl
          · next hno => exact absurd hget (hno _ _)
      · refine .inr fun place => ?_
        rw [ofValue, if_neg hconstraint]
        simp only [hb]
        split
        · next heq => exact absurd ⟨_, _, heq⟩ hlist
        · next heq => exact absurd ⟨_, _, heq⟩ hobject
        · rfl

theorem areLegible_ofItems : ∀ {items : List Value},
    (∀ v ∈ items, ∀ place, (ofValue place v).IsLegible) →
      ∀ place position, AreLegible (ofItems place position items)
  | [], _, place, position => by
    rw [ofItems, AreLegible]
    trivial
  | v :: rest, h, place, position => by
    obtain ⟨hv, hrest⟩ := List.forall_mem_cons.mp h
    rw [ofItems, AreLegible]
    exact ⟨hv (position :: place), areLegible_ofItems hrest place (position + 1)⟩

/-- **Whatever is read is legible.** -/
theorem isLegible_ofValue (v : Value) (place : List Nat) : (ofValue place v).IsLegible := by
  by_cases hconstraint : v.isConstraint = true
  · rw [ofValue, if_pos hconstraint, IsLegible]
    trivial
  · rcases ofValue_cases hconstraint with ⟨b, items, hsize, hread⟩ | hinvalid
    · obtain ⟨outcome, heq⟩ := hread place
      rw [heq, IsLegible]
      exact areLegible_ofItems (fun w hw place' => isLegible_ofValue w place') place 0
    · rw [hinvalid place, IsLegible]
      exact hinvalid
termination_by sizeOf v
decreasing_by exact hsize w hw

end Node

/-! ## What was read from a valid document -/

namespace Grammar

variable {r : Registry} {v : Value}

/-- A constraint that is written again suits the operators as before. -/
theorem IsConstraint.toValue_ofValue (h : IsConstraint r v) :
    IsConstraint r (Constraint.ofValue v).toValue := by
  have hvalue : (Constraint.ofValue v).toValue.getOrNull "value" = v.getOrNull "value" := by
    rw [Value.getOrNull, Constraint.get?_value_toValue]
    rfl
  refine ⟨h.field, h.operator, fun name hmem hname => ?_, fun name hmem hname => ?_⟩
  · rw [hvalue]
    exact h.list name hmem hname
  · rw [hvalue]
    exact h.pattern name hmem hname

theorem exists_of_mem_constraintsOf_ofItems {c : Constraint} : ∀ {items : List Value}
    {place : List Nat} {position : Nat},
    c ∈ Node.constraintsOf (Node.ofItems place position items) →
      ∃ v ∈ items, ∃ place', c ∈ (Node.ofValue place' v).constraints
  | [], place, position, hc => by
    rw [Node.ofItems, Node.constraintsOf] at hc
    cases hc
  | v :: rest, place, position, hc => by
    rw [Node.ofItems, Node.constraintsOf] at hc
    rcases List.mem_append.mp hc with hc | hc
    · exact ⟨v, List.mem_cons_self .., _, hc⟩
    · obtain ⟨w, hw, hc⟩ := exists_of_mem_constraintsOf_ofItems hc
      exact ⟨w, List.mem_cons_of_mem _ hw, hc⟩

/-- The constraints of a well-formed condition are written as well-formed constraints. -/
theorem IsCondition.isConstraint_toValue (h : IsCondition r v) : v.isConstraint = false →
    ∀ place, ∀ c ∈ (Node.ofValue place v).constraints, IsConstraint r c.toValue := by
  induction h with
  | @mk v b mark nodes hb hnodes _ hconstraints _ ih =>
    intro hconstraint place c hc
    have hbranch : v.branch? = some b := by rw [Value.branch?, hb]
    rw [Validator.ofValue_eq_condition (Bool.eq_false_iff.mp hconstraint) hbranch hnodes,
      Node.constraints] at hc
    obtain ⟨n, hn, place', hc⟩ := exists_of_mem_constraintsOf_ofItems hc
    cases hnode : n.isConstraint with
    | true =>
      rw [Node.ofValue, if_pos hnode, Node.constraints, List.mem_singleton] at hc
      rw [hc]
      exact (hconstraints n hn hnode).toValue_ofValue
    | false => exact ih n hn hnode hnode place' c hc

end Grammar

namespace Node

mutual

theorem IsSound.isProper {r : Registry} : ∀ {n : Node}, n.IsSound r → n.isProper = true
  | .condition b nodes outcome, h => by
    cases h with
    | condition hnodes =>
      rw [Node.isProper]
      exact areProper_of_areSound hnodes
  | .constraint c, _ => by rw [Node.isProper]
  | .invalid raw, h => nomatch h

theorem areProper_of_areSound {r : Registry} : ∀ {nodes : List Node},
    (∀ n ∈ nodes, n.IsSound r) → areProper nodes = true
  | [], _ => by rw [areProper]
  | n :: rest, h => by
    obtain ⟨hn, hrest⟩ := List.forall_mem_cons.mp h
    rw [areProper, hn.isProper, areProper_of_areSound hrest]
    rfl

end

end Node

namespace Rule

variable {r : Registry}

/-- **A valid document is written again as a valid document.** -/
theorem validate_toValue_of_read {v : Value} {rule : Rule} (hread : ofValue? v = some rule)
    (hvalid : Validator.validate r v = .ok none) :
    Validator.validate r rule.toValue = .ok none := by
  have hsound := isSound_of_validate hvalid hread
  have hrule : Grammar.IsRule r v := (Validator.settles_validate r v).fine_iff.mp hvalid
  cases v with
  | object mark fields =>
    cases hread
    refine validate_toValue ?_ (fun n hn => (hsound n hn).1)
      (Node.areProper_of_areSound fun n hn => (hsound n hn).2) fun c hc => ?_
    · intro hnil
      cases hconditions : (Value.object mark fields).conditions with
      | nil => exact hrule.nonempty hconditions
      | cons v rest =>
        simp only [hconditions] at hnil
        rw [Node.ofItems] at hnil
        cases hnil
    · obtain ⟨w, hw, place, hc⟩ := Grammar.exists_of_mem_constraintsOf_ofItems hc
      obtain ⟨hconstraint, hcondition⟩ := hrule.conditions w hw
      exact (Validator.settles_checkConstraint r _).fine_iff.mpr
        (hcondition.isConstraint_toValue hconstraint place c hc)
  | _ => cases hread

/-- **Reading and writing a document loses nothing, and doing it again changes nothing**: what is
written is read as the same tree but for the origins of outcomes, is written as the same document,
is evaluated alike, and is valid where the first document was. -/
theorem normal_of_read (mark : Mark) (fields : List (String × Value)) :
    ∃ rule, ofValue? (.object mark fields) = some rule ∧
      ∃ rule', ofValue? rule.toValue = some rule' ∧
        rule'.anonymous = rule.anonymous ∧ rule'.toValue = rule.toValue ∧
        (∀ r criteria, rule'.evaluate r criteria = rule.evaluate r criteria) ∧
        ∀ r, Validator.validate r (.object mark fields) = .ok none →
          Validator.validate r rule.toValue = .ok none := by
  refine ⟨_, rfl, _, ofValue?_toValue ?_, anonymous_placed _, ?_, fun r criteria => ?_, fun r =>
    validate_toValue_of_read rfl⟩
  · exact Node.areLegible_ofItems (fun v _ => Node.isLegible_ofValue v) [] 0
  · rw [← toValue_anonymous, anonymous_placed, toValue_anonymous]
  · rw [← evaluate_anonymous, anonymous_placed, evaluate_anonymous]

end Rule

end Verdict
