import Verdict.Evaluation.Condition
import Verdict.Evaluation.Meaning
import Verdict.Proofs.Evaluation.Limit
import Verdict.Proofs.Evaluation.Step

/-!
# Proofs/Evaluation/Meaning — conditions pass when they mean true

Judging goes through the nodes of a condition and may stop early; `Node.meaning` does not.  What a
condition has come to after some of its nodes is `Branch.onto` of those that are left, which each
step keeps (`Branch.onto_join`) and each early stop settles (`Branch.onto_of_stopsAt`).  So whoever
passes means true, and a judgement that does not come about is a constraint's that does not.
-/

namespace Verdict

namespace Node

/-- The constraints of nodes are those of each. -/
theorem constraintsOf_eq_flatMap (nodes : List Node) :
    constraintsOf nodes = nodes.flatMap constraints := by
  induction nodes with
  | nil => rfl
  | cons n rest ih => rw [constraintsOf, List.flatMap_cons, ih]

theorem mem_constraintsOf {c : Constraint} {nodes : List Node} :
    c ∈ constraintsOf nodes ↔ ∃ n ∈ nodes, c ∈ n.constraints := by
  rw [constraintsOf_eq_flatMap, List.mem_flatMap]

theorem eq_condition {n : Node} (h : n.isCondition = true) :
    ∃ b nodes outcome, n = condition b nodes outcome := by
  cases n with
  | condition b nodes outcome => exact ⟨b, nodes, outcome, rfl⟩
  | constraint c => cases h
  | invalid raw => cases h

end Node

/-! ## One constraint -/

namespace Constraint

/-- **A constraint holds when its operator is registered and true of the field's value and its
own** — a field that is missing having the value `missing`. -/
theorem holds_iff {k : Setting} {c : Constraint} :
    c.holds k = true ↔ ∃ o criterion value, k.registry.find? c.operator = some o ∧
      c.criterion k.criteria = .ok criterion ∧ operand k.criteria c.value = .ok value ∧
      o.test criterion value = .ok true := by
  have hok : c.holds k = true ↔ c.verdict k = .ok true := by
    unfold holds
    cases c.verdict k with
    | error f => simp [Except.toOption]
    | ok b => simp [Except.toOption]
  rw [hok, verdict, Except.bind_eq_ok_iff]
  constructor
  · rintro ⟨criterion, hcriterion, h⟩
    cases ho : k.registry.find? c.operator with
    | none => simp [ho] at h
    | some o =>
      rw [ho] at h
      obtain ⟨value, hvalue, htest⟩ := Except.bind_eq_ok_iff.mp h
      exact ⟨o, criterion, value, rfl, hcriterion, hvalue, htest⟩
  · rintro ⟨o, criterion, value, ho, hcriterion, hvalue, htest⟩
    refine ⟨criterion, hcriterion, ?_⟩
    rw [ho]
    exact Except.bind_eq_ok_iff.mpr ⟨value, hvalue, htest⟩

/-- What a judged constraint reports is its verdict. -/
theorem verdict_of_judge {k : Setting} {c : Constraint} {r : Report} (h : c.judge k = .ok r) :
    c.verdict k = .ok r.judgement.passed := by
  cases judged_of_judge h with
  | unknown hcriterion hfind _ => exact Except.bind_eq_ok_iff.mpr ⟨_, hcriterion, by rw [hfind]⟩
  | tested hcriterion hfind hvalue htest _ =>
    refine Except.bind_eq_ok_iff.mpr ⟨_, hcriterion, ?_⟩
    rw [hfind]
    exact Except.bind_eq_ok_iff.mpr ⟨_, hvalue, htest⟩

theorem passed_eq_holds {k : Setting} {c : Constraint} {r : Report} (h : c.judge k = .ok r) :
    r.judgement.passed = c.holds k := by
  rw [holds, verdict_of_judge h]
  rfl

end Constraint

/-! ## What is left of a condition -/

namespace Branch

/-- Whether a condition passes, given that it did so far and the nodes that are left. -/
def onto (holds : Constraint → Bool) : Branch → Bool → List Node → Bool
  | .and, sofar, rest => sofar && Node.allMean holds rest
  | .or, sofar, rest => sofar || Node.someMean holds rest
  | .none, sofar, rest => sofar && !Node.someMean holds rest

variable {holds : Constraint → Bool}

/-- Nothing judged yet: the meaning of all nodes. -/
theorem onto_start (b : Branch) (nodes : List Node) (outcome : Option Outcome) :
    b.onto holds b.start.passed nodes = (Node.condition b nodes outcome).meaning holds := by
  cases b <;> simp [onto, start, Node.meaning]

theorem onto_nil (b : Branch) (sofar : Bool) : b.onto holds sofar [] = sofar := by
  cases b <;> simp [onto, Node.allMean, Node.someMean]

theorem onto_invalid (b : Branch) (sofar : Bool) (raw : Value) (rest : List Node) :
    b.onto holds sofar (.invalid raw :: rest) = b.onto holds sofar rest := by
  cases b <;> simp [onto, Node.allMean, Node.someMean]

/-- Joining a judged node to what went before changes what is to come as the node would. -/
theorem onto_join (b : Branch) (sofar : Bool) {n : Node} (hn : ∀ raw, n ≠ .invalid raw)
    (rest : List Node) :
    b.onto holds sofar (n :: rest) = b.onto holds (b.join sofar (n.meaning holds)) rest := by
  cases n with
  | invalid raw => exact absurd rfl (hn raw)
  | constraint c =>
    cases b <;> simp [onto, join, Node.allMean, Node.someMean, Bool.and_assoc, Bool.or_assoc]
  | condition b' nodes outcome =>
    cases b <;> simp [onto, join, Node.allMean, Node.someMean, Bool.and_assoc, Bool.or_assoc]

/-- A branch stops at a node only where the nodes that are left change nothing. -/
theorem onto_of_stopsAt {b : Branch} {n : Node} {j : Judgement} (h : b.stopsAt n j = true)
    (sofar : Bool) (rest : List Node) :
    b.onto holds (b.join sofar j.passed) rest = b.join sofar j.passed := by
  cases n <;> cases b <;> simp_all [onto, join, stopsAt, stopsAtConstraint, stopsAtCondition]

end Branch

/-! ## Conditions -/

namespace Node

variable {k : Setting}

mutual

/-- A node passes when its meaning is true, wherever a condition looks at it. -/
theorem passed_eq_meaning : ∀ (n : Node) (r : Report), n.report? k = some (.ok r) →
    r.judgement.passed = n.meaning (Constraint.holds k)
  | .condition b nodes outcome, r, h => by
    have hjudge : (condition b nodes outcome).judge k = .ok r := Option.some.inj h
    rw [judge] at hjudge
    rw [← Branch.onto_start b nodes outcome]
    exact passed_eq_onto b outcome nodes _ r hjudge
  | .constraint c, r, h => by
    rw [meaning]
    exact Constraint.passed_eq_holds (Option.some.inj h)
  | .invalid _, _, h => nomatch h

/-- Each step of the walk keeps what the condition comes to. -/
theorem passed_eq_onto (b : Branch) (outcome : Option Outcome) :
    ∀ (nodes : List Node) (sofar r : Report), judgeNodes k b outcome sofar nodes = .ok r →
      r.judgement.passed = b.onto (Constraint.holds k) sofar.judgement.passed nodes
  | [], sofar, r, h => by
    rw [judgeNodes] at h
    cases h
    rw [Branch.onto_nil]
  | n :: rest, sofar, r, h => by
    rcases step_of_judgeNodes_ok h with ⟨hn, hrest⟩ | ⟨rn, hn, hstep⟩
    · obtain ⟨raw, rfl⟩ := report?_eq_none_iff.mp hn
      rw [Branch.onto_invalid]
      exact passed_eq_onto b outcome rest (sofar.passOver outcome) r hrest
    · rw [Branch.onto_join b _ (ne_invalid_of_report? hn), ← passed_eq_meaning n rn hn]
      rcases hstep with ⟨hstop, rfl⟩ | ⟨_, hrest⟩
      · -- the nodes that are left are not looked at, and would change nothing
        exact (Branch.onto_of_stopsAt hstop _ rest).symm
      · exact passed_eq_onto b outcome rest _ r hrest

end

mutual

/-- A node without a report has a constraint that is not judged. -/
theorem exists_constraint_of_report_error {f : Fault} : ∀ n : Node,
    n.report? k = some (.error f) → ∃ c ∈ n.constraints, c.judge k = .error f
  | .condition b nodes outcome, h => by
    have hjudge : (condition b nodes outcome).judge k = .error f := Option.some.inj h
    rw [judge] at hjudge
    rw [constraints]
    exact exists_constraint_of_judgeNodes_error b outcome nodes _ hjudge
  | .constraint c, h => ⟨c, by simp [constraints], Option.some.inj h⟩
  | .invalid _, h => nomatch h

theorem exists_constraint_of_judgeNodes_error {f : Fault} (b : Branch) (outcome : Option Outcome) :
    ∀ (nodes : List Node) (sofar : Report), judgeNodes k b outcome sofar nodes = .error f →
      ∃ c ∈ constraintsOf nodes, c.judge k = .error f
  | [], _, h => by
    rw [judgeNodes] at h
    cases h
  | n :: rest, sofar, h => by
    rw [constraintsOf]
    rcases step_of_judgeNodes_error h with hn | ⟨next, h⟩
    · obtain ⟨c, hc, hf⟩ := exists_constraint_of_report_error n hn
      exact ⟨c, List.mem_append_left _ hc, hf⟩
    · obtain ⟨c, hc, hf⟩ := exists_constraint_of_judgeNodes_error b outcome rest next h
      exact ⟨c, List.mem_append_right _ hc, hf⟩

end

theorem exists_constraint_of_judge_error {f : Fault} {n : Node} (h : n.judge k = .error f) :
    ∃ c ∈ n.constraints, c.judge k = .error f := by
  cases hn : n.isCondition with
  | true =>
    exact exists_constraint_of_report_error n ((report?_of_isCondition hn).trans (congrArg some h))
  | false =>
    rw [judge_of_not_isCondition hn] at h
    cases h

/-! ## Messages -/

mutual

/-- A node whose constraints have other messages, each given by the constraint. -/
def withMessages (message : Constraint → Value) : Node → Node
  | .condition b nodes outcome => .condition b (withMessagesOf message nodes) outcome
  | .constraint c => .constraint { c with message := message c }
  | .invalid raw => .invalid raw

/-- Nodes whose constraints have other messages. -/
def withMessagesOf (message : Constraint → Value) : List Node → List Node
  | [] => []
  | n :: rest => withMessages message n :: withMessagesOf message rest

end

mutual

/-- Messages take no part in what a node means. -/
theorem meaning_withMessages (k : Setting) (message : Constraint → Value) :
    ∀ n : Node, (n.withMessages message).meaning (Constraint.holds k) =
      n.meaning (Constraint.holds k)
  | .condition .and nodes _ => by
    rw [withMessages, meaning, meaning, allMean_withMessages k message nodes]
  | .condition .or nodes _ => by
    rw [withMessages, meaning, meaning, someMean_withMessages k message nodes]
  | .condition .none nodes _ => by
    rw [withMessages, meaning, meaning, someMean_withMessages k message nodes]
  | .constraint c => by
    rw [withMessages, meaning, meaning]
    rfl
  | .invalid _ => rfl

theorem allMean_withMessages (k : Setting) (message : Constraint → Value) :
    ∀ nodes : List Node, allMean (Constraint.holds k) (withMessagesOf message nodes) =
      allMean (Constraint.holds k) nodes
  | [] => rfl
  | .invalid raw :: rest => by
    simpa [withMessagesOf, withMessages, allMean] using allMean_withMessages k message rest
  | .constraint c :: rest => by
    have hc := meaning_withMessages k message (.constraint c)
    rw [withMessages] at hc
    rw [withMessagesOf, withMessages, allMean, allMean, hc, allMean_withMessages k message rest]
    all_goals simp
  | .condition b nodes outcome :: rest => by
    have hn := meaning_withMessages k message (.condition b nodes outcome)
    rw [withMessages] at hn
    rw [withMessagesOf, withMessages, allMean, allMean, hn, allMean_withMessages k message rest]
    all_goals simp

theorem someMean_withMessages (k : Setting) (message : Constraint → Value) :
    ∀ nodes : List Node, someMean (Constraint.holds k) (withMessagesOf message nodes) =
      someMean (Constraint.holds k) nodes
  | [] => rfl
  | .invalid raw :: rest => by
    simpa [withMessagesOf, withMessages, someMean] using someMean_withMessages k message rest
  | .constraint c :: rest => by
    have hc := meaning_withMessages k message (.constraint c)
    rw [withMessages] at hc
    rw [withMessagesOf, withMessages, someMean, someMean, hc, someMean_withMessages k message rest]
    all_goals simp
  | .condition b nodes outcome :: rest => by
    have hn := meaning_withMessages k message (.condition b nodes outcome)
    rw [withMessages] at hn
    rw [withMessagesOf, withMessages, someMean, someMean, hn, someMean_withMessages k message rest]
    all_goals simp

end

/-! ## Judging refines meaning -/

/-- A condition whose constraints are judged is judged, and passes where its meaning is true. -/
theorem exists_passed_iff_meaning {k : Setting} {n : Node} (hn : n.isCondition = true)
    (hjudged : ∀ c ∈ n.constraints, ∃ r, c.judge k = .ok r) :
    (∃ r, n.judge k = .ok r ∧ r.judgement.passed = true) ↔
      n.meaning (Constraint.holds k) = true := by
  cases n with
  | constraint c => cases hn
  | invalid raw => cases hn
  | condition b nodes outcome =>
    cases h : (condition b nodes outcome).judge k with
    | ok r =>
      rw [← passed_eq_meaning (condition b nodes outcome) r (congrArg some h)]
      exact ⟨fun ⟨_, hr, hpassed⟩ => Except.ok.inj hr ▸ hpassed, fun hpassed => ⟨r, rfl, hpassed⟩⟩
    | error f =>
      obtain ⟨c, hc, hf⟩ := exists_constraint_of_judge_error h
      obtain ⟨r, hr⟩ := hjudged c hc
      cases hr.symm.trans hf

/-- **A condition passes exactly when its meaning is true, or a constraint meets the limit on
digits** — wherever the walk stops early, and whatever messages the constraints have. -/
theorem judge_refines_meaning {k : Setting} (b : Branch) (nodes : List Node)
    (outcome : Option Outcome) (hk : ∀ c ∈ constraintsOf nodes, c.Decides k) :
    ((∃ r, (condition b nodes outcome).judge k = .ok r ∧
        r.judgement.passed = (condition b nodes outcome).meaning (Constraint.holds k)) ∨
      ∃ f, (condition b nodes outcome).judge k = .error f ∧ f.isDigitLimit = true ∧
        ∃ c ∈ constraintsOf nodes, c.judge k = .error f) ∧
    ∀ (message : Constraint → Value) (r' : Report),
      ((condition b nodes outcome).withMessages message).judge k = .ok r' →
      r'.judgement.passed = (condition b nodes outcome).meaning (Constraint.holds k) := by
  constructor
  · cases h : (condition b nodes outcome).judge k with
    | ok r => exact .inl ⟨r, rfl, passed_eq_meaning (condition b nodes outcome) r (congrArg some h)⟩
    | error f =>
      obtain ⟨c, hc, hf⟩ := exists_constraint_of_judge_error h
      rw [constraints] at hc
      exact .inr ⟨f, rfl, Constraint.stopsAtDigits_judge (hk c hc) f hf, c, hc, hf⟩
  · intro message r' h
    have hmeaning := meaning_withMessages k message (condition b nodes outcome)
    rw [withMessages] at h hmeaning
    rw [← hmeaning]
    exact passed_eq_meaning (condition b _ outcome) r' (congrArg some h)

/-- A registry whose one operator decides, and a condition with a constraint and an invalid node. -/
theorem judge_refines_meaning_of_presence :
    let presence : Operator := ⟨"exists", .existence, [.any], .ofProperty fun c => !c.isMissing⟩
    let k : Setting := ⟨Registry.empty.insert presence, .ofFields [("age", .int 18)]⟩
    let nodes : List Node := [.constraint ⟨.str "age", .str "exists", none, .null⟩, .invalid .null]
    (∀ c ∈ constraintsOf nodes, c.Decides k) ∧
    ((∃ r, (condition .and nodes none).judge k = .ok r ∧
        r.judgement.passed = (condition .and nodes none).meaning (Constraint.holds k)) ∨
      ∃ f, (condition .and nodes none).judge k = .error f ∧ f.isDigitLimit = true ∧
        ∃ c ∈ constraintsOf nodes, c.judge k = .error f) ∧
    ∀ (message : Constraint → Value) (r' : Report),
      ((condition .and nodes none).withMessages message).judge k = .ok r' →
      r'.judgement.passed = (condition .and nodes none).meaning (Constraint.holds k) := by
  intro presence k nodes
  have hk : ∀ c ∈ constraintsOf nodes, c.Decides k := fun c _ =>
    Constraint.decides_of_only (fun _ _ => ⟨_, rfl⟩) _ c
  exact ⟨hk, judge_refines_meaning .and nodes none hk⟩

/-- A condition with an index of more digits than can be read is not judged. -/
theorem judge_stops_at_longIndex :
    let k : Setting := ⟨Registry.builtIn DateTime.epoch, .ofFields []⟩
    let c : Constraint :=
      ⟨.str (String.ofList (Segment.longIndex 4301)), .str "exists", none, .null⟩
    c.Decides k ∧ ¬ ∃ r, (condition .and [.constraint c] none).judge k = .ok r := by
  intro k c
  have hlong : maxIntegerDigits < 4301 := by decide
  refine ⟨fun o criterion value _ h _ => ?_, ?_⟩
  · rw [Constraint.criterion_longIndex hlong rfl rfl] at h
    cases h
  · rintro ⟨r, h⟩
    rw [judge, judgeNodes, Constraint.judge_longIndex hlong rfl rfl] at h
    cases h

end Node

end Verdict
