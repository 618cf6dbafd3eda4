import Verdict.Evaluation.Rule
import Verdict.Proofs.Evaluation.Meaning

/-!
# Proofs/Evaluation/Walk — the root that decides

    root, root, …, root, | the first that passes, or fails with a message | …
       go on             |                   decides                      | not judged

`Rule.Walk` says what a rule comes to by naming the first root that does not let the walk go on,
without walking: `Rule.walk_of_judgeRoots`.  Where no constraint has a message, failing roots are
silent and the walk finds the first root that means true (`Rule.walk_evaluates`).
-/

namespace Verdict

/-! ## Messages -/

namespace Template

theorem mayHoldPath_go_iff : ∀ cs : List Char, mayHoldPath.go cs = true ↔ ['$', '.'] <:+: cs
  | [] => by simp [mayHoldPath.go]
  | [c] => by
    have hlong : ¬ ['$', '.'] <:+: [c] := fun h => by simpa using h.length_le
    simp [mayHoldPath.go, hlong]
  | c :: d :: rest => by
    rw [List.infix_cons_iff, ← mayHoldPath_go_iff (d :: rest)]
    by_cases h : c = '$' ∧ d = '.'
    · obtain ⟨rfl, rfl⟩ := h
      simp [mayHoldPath.go]
    · rw [mayHoldPath.go]
      · simp only [List.cons_prefix_cons, List.nil_prefix, and_true, iff_or_self]
        exact fun ⟨hc, hd⟩ => absurd ⟨hc.symm, hd.symm⟩ h
      · intro rest' hc hrest
        cases hrest
        exact h ⟨hc, rfl⟩

/-- A message may hold a path when a dollar sign and a point stand in it. -/
theorem mayHoldPath_iff {s : String} : mayHoldPath s = true ↔ ['$', '.'] <:+: s.toList :=
  mayHoldPath_go_iff s.toList

end Template

/-- A message as it is handed back: a text with a path in it is filled in once, any other stays. -/
inductive FilledIn (criteria : Value) : Value → Value → Prop
  | filled {s t : String} : ['$', '.'] <:+: s.toList → Template.fill s criteria = .ok t →
      FilledIn criteria (.str s) (.str t)
  | kept {message : Value} : (∀ s, message = .str s → ¬ ['$', '.'] <:+: s.toList) →
      FilledIn criteria message message

theorem filledIn_of_fillMessage {criteria message filled : Value}
    (h : fillMessage criteria message = .ok filled) : FilledIn criteria message filled := by
  unfold fillMessage at h
  split at h
  · next s =>
    split at h
    · next hpath =>
      obtain ⟨t, ht, rfl⟩ := Except.map_eq_ok_iff.mp h
      exact .filled (Template.mayHoldPath_iff.mp hpath) ht
    · next hpath =>
      cases h
      refine .kept fun s' hs' => ?_
      cases hs'
      rwa [← Template.mayHoldPath_iff]
  · next hmessage =>
    cases h
    exact .kept fun s hs => absurd hs (hmessage s)

/-! ## The walk -/

/-- A root that lets the walk go on: it fails without a message. -/
def Node.GoesOn (k : Setting) (n : Node) : Prop :=
  ∃ r, n.judge k = .ok r ∧ r.judgement.passed = false ∧ r.judgement.hasMessage = false

theorem Node.goesOn_iff {k : Setting} {n : Node} {r : Report} (h : n.judge k = .ok r) :
    n.GoesOn k ↔ r.judgement.passed = false ∧ r.judgement.hasMessage = false := by
  refine ⟨?_, fun hsilent => ⟨r, h, hsilent⟩⟩
  rintro ⟨r', hr', hsilent⟩
  cases h.symm.trans hr'
  exact hsilent

namespace Rule

/-- The message of an outcome, `null` without one. -/
def messageOf (o : Option Outcome) : Value := o.elim .null Outcome.message

/-- What a rule comes to, by the first of its roots that does not let the walk go on. -/
inductive Walk (k : Setting) (default : Option Outcome) (roots : List Node) : Judgement → Prop
  /-- The root passes: its value, or true, and its message. -/
  | passing (before after : List Node) {root : Node} {r : Report} {message : Value} :
      roots = before ++ root :: after → (∀ n ∈ before, n.GoesOn k) →
      root.judge k = .ok r → r.judgement.passed = true →
      FilledIn k.criteria (messageOf root.outcome?) message →
      Walk k default roots ⟨true, valueOr (.bool true) (Outcome.valueOf root.outcome?), message⟩
  /-- The root fails with a message: the default's value, or false, and that message. -/
  | failing (before after : List Node) {root : Node} {r : Report} :
      roots = before ++ root :: after → (∀ n ∈ before, n.GoesOn k) →
      root.judge k = .ok r → r.judgement.passed = false → r.judgement.hasMessage = true →
      Walk k default roots
        ⟨false, valueOr (.bool false) (Outcome.valueOf default), r.judgement.message⟩
  /-- There is no such root: the default's value, or false, and its message. -/
  | default {message : Value} : (∀ n ∈ roots, n.GoesOn k) →
      FilledIn k.criteria (messageOf default) message →
      Walk k default roots ⟨false, valueOr (.bool false) (Outcome.valueOf default), message⟩

variable {k : Setting} {default : Option Outcome}

/-- A root that lets the walk go on decides nothing. -/
theorem Walk.cons {root : Node} {roots : List Node} {j : Judgement} (hroot : root.GoesOn k)
    (h : Walk k default roots j) : Walk k default (root :: roots) j := by
  cases h with
  | @passing before after n r message hroots hbefore hn hpassed hmessage =>
    exact .passing (root :: before) after (by rw [hroots]; rfl)
      (List.forall_mem_cons.mpr ⟨hroot, hbefore⟩) hn hpassed hmessage
  | @failing before after n r hroots hbefore hn hpassed hmessage =>
    exact .failing (root :: before) after (by rw [hroots]; rfl)
      (List.forall_mem_cons.mpr ⟨hroot, hbefore⟩) hn hpassed hmessage
  | default hroots hmessage =>
    exact .default (List.forall_mem_cons.mpr ⟨hroot, hroots⟩) hmessage

theorem filledIn_of_answer {criteria : Value} {passed : Bool} {o : Option Outcome} {j : Judgement}
    (h : answer criteria passed o = .ok j) : ∃ message,
      FilledIn criteria (messageOf o) message ∧
      j = ⟨passed, valueOr (.bool passed) (Outcome.valueOf o), message⟩ := by
  obtain ⟨message, hmessage, rfl⟩ := Except.map_eq_ok_iff.mp h
  exact ⟨message, filledIn_of_fillMessage hmessage, rfl⟩

/-- **Judging roots one after another finds the root that decides.** -/
theorem walk_of_judgeRoots : ∀ (roots : List Node) (r : Report),
    judgeRoots k default roots = .ok r → Walk k default roots r.judgement
  | [], r, h => by
    rw [judgeRoots] at h
    obtain ⟨j, hj, rfl⟩ := Except.map_eq_ok_iff.mp h
    obtain ⟨message, hmessage, rfl⟩ := filledIn_of_answer hj
    exact .default (by simp) hmessage
  | root :: rest, r, h => by
    obtain ⟨rn, hroot, ⟨hpassed, j, hj, rfl⟩ | ⟨hpassed, hmessage, rfl⟩ |
      ⟨hpassed, hmessage, later, hlater, rfl⟩⟩ := step_of_judgeRoots_ok h
    · obtain ⟨message, hmessage, rfl⟩ := filledIn_of_answer hj
      exact .passing [] rest rfl (by simp) hroot hpassed hmessage
    · exact .failing [] rest rfl (by simp) hroot hpassed hmessage
    · exact (walk_of_judgeRoots rest later hlater).cons ⟨rn, hroot, hpassed, hmessage⟩

/-- Neither a root nor the default gives the value `null`. -/
theorem value_ne_null_of_walk {roots : List Node} {j : Judgement} (h : Walk k default roots j) :
    j.value ≠ .null := by
  have hvalue : ∀ (b : Bool) (v : Value), valueOr (.bool b) v ≠ .null := by
    intro b v
    cases v <;> simp [valueOr, Value.isNull]
  cases h <;> exact hvalue _ _

/-- A rule that is not judged has a constraint that is not, or an outcome whose message is not
filled in. -/
theorem exists_of_judgeRoots_error (f : Fault) : ∀ roots : List Node,
    judgeRoots k default roots = .error f →
    (∃ c ∈ Node.constraintsOf roots, c.judge k = .error f) ∨
      ∃ o, (o = default ∨ ∃ n ∈ roots, o = n.outcome?) ∧
        fillMessage k.criteria (messageOf o) = .error f
  | [], h => by
    rw [judgeRoots] at h
    exact .inr ⟨default, .inl rfl,
      Except.map_eq_error_iff.mp (Except.map_eq_error_iff.mp h)⟩
  | root :: rest, h => by
    rcases step_of_judgeRoots_error h with hroot | hanswer | hlater
    · obtain ⟨c, hc, hf⟩ := Node.exists_constraint_of_judge_error hroot
      exact .inl ⟨c, by rw [Node.constraintsOf]; exact List.mem_append_left _ hc, hf⟩
    · exact .inr ⟨root.outcome?, .inr ⟨root, by simp, rfl⟩, Except.map_eq_error_iff.mp hanswer⟩
    · rcases exists_of_judgeRoots_error f rest hlater with ⟨c, hc, hf⟩ | ⟨o, ho, hf⟩
      · exact .inl ⟨c, by rw [Node.constraintsOf]; exact List.mem_append_right _ hc, hf⟩
      · refine .inr ⟨o, ho.imp_right ?_, hf⟩
        rintro ⟨n, hn, hno⟩
        exact ⟨n, List.mem_cons_of_mem _ hn, hno⟩

end Rule

/-! ## Silent constraints -/

/-- A constraint that never speaks: it has no message, and its operator is registered. -/
def Constraint.IsSilent (k : Setting) (c : Constraint) : Prop :=
  c.message.isTruthy = false ∧ k.registry.has c.operator = true

/-- A silent constraint reports no message. -/
theorem Constraint.message_eq_null {k : Setting} {c : Constraint} (hc : c.IsSilent k) {r : Report}
    (h : c.judge k = .ok r) : r.judgement.message = .null := by
  cases judged_of_judge h with
  | unknown _ hfind _ =>
    have hhas := hc.2
    rw [Registry.has, hfind] at hhas
    cases hhas
  | tested _ _ _ _ hmessage =>
    rw [ownMessage, hc.1] at hmessage
    cases hmessage
    rfl

/-- A silent report leaves a condition as silent as it was. -/
theorem Branch.message_onward {sofar r : Report} (b : Branch) (outcome : Option Outcome) (n : Node)
    (hsofar : sofar.judgement.message = .null) (hr : r.judgement.message = .null) :
    (b.onward outcome sofar n r).judgement.message = .null := by
  have hsilent : r.judgement.hasMessage = false := by
    rw [Judgement.hasMessage, hr]
    rfl
  cases n <;> cases b <;>
    simp [onward, messageAfterCondition, messageAfterConstraint, hsofar, hr, hsilent]

namespace Node

variable {k : Setting}

mutual

/-- A node of silent constraints is silent. -/
theorem message_eq_null : ∀ (n : Node) (r : Report), (∀ c ∈ n.constraints, c.IsSilent k) →
    n.report? k = some (.ok r) → r.judgement.message = .null
  | .condition b nodes outcome, r, hc, h => by
    have hjudge : (condition b nodes outcome).judge k = .ok r := Option.some.inj h
    rw [judge] at hjudge
    rw [constraints] at hc
    exact message_eq_null_of_judgeNodes b outcome nodes _ r hc (by cases b <;> rfl) hjudge
  | .constraint c, r, hc, h =>
    Constraint.message_eq_null (hc c (by simp [constraints])) (Option.some.inj h)
  | .invalid _, _, _, h => nomatch h

/-- Each step of the walk keeps the silence. -/
theorem message_eq_null_of_judgeNodes (b : Branch) (outcome : Option Outcome) :
    ∀ (nodes : List Node) (sofar r : Report), (∀ c ∈ constraintsOf nodes, c.IsSilent k) →
      sofar.judgement.message = .null → judgeNodes k b outcome sofar nodes = .ok r →
      r.judgement.message = .null
  | [], sofar, r, _, hsofar, h => by
    rw [judgeNodes] at h
    cases h
    exact hsofar
  | n :: rest, sofar, r, hc, hsofar, h => by
    rw [constraintsOf, List.forall_mem_append] at hc
    rcases step_of_judgeNodes_ok h with ⟨_, hrest⟩ | ⟨rn, hn, hstep⟩
    · exact message_eq_null_of_judgeNodes b outcome rest (sofar.passOver outcome) r hc.2 hsofar hrest
    · have hnext := b.message_onward outcome n hsofar (message_eq_null n rn hc.1 hn)
      rcases hstep with ⟨_, rfl⟩ | ⟨_, hrest⟩
      · exact hnext
      · exact message_eq_null_of_judgeNodes b outcome rest _ r hc.2 hnext hrest

end

end Node

namespace Rule

variable {k : Setting} {default : Option Outcome}

/-- A silent condition passes where it means true, and has no message. -/
theorem judged_of_silent {n : Node} (hcondition : n.isCondition = true)
    (hsilent : ∀ c ∈ n.constraints, c.IsSilent k) {r : Report} (hr : n.judge k = .ok r) :
    r.judgement.passed = n.meaning (Constraint.holds k) ∧ r.judgement.hasMessage = false := by
  obtain ⟨b, nodes, outcome, rfl⟩ := Node.eq_condition hcondition
  have hreport : (Node.condition b nodes outcome).report? k = some (.ok r) := congrArg some hr
  refine ⟨Node.passed_eq_meaning _ r hreport, ?_⟩
  rw [Judgement.hasMessage, Node.message_eq_null _ r hsilent hreport]
  rfl

/-- **Among silent conditions the first that means true decides.** -/
theorem passed_of_walk_silent {roots : List Node} {j : Judgement} (h : Walk k default roots j)
    (hroots : ∀ n ∈ roots, n.isCondition = true)
    (hsilent : ∀ c ∈ Node.constraintsOf roots, c.IsSilent k) :
    j.passed = roots.any (Node.meaning (Constraint.holds k)) ∧
    ∀ root, roots.find? (Node.meaning (Constraint.holds k)) = some root →
      j.value = valueOr (.bool true) (Outcome.valueOf root.outcome?) := by
  have hjudged : ∀ n ∈ roots, ∀ r, n.judge k = .ok r →
      r.judgement.passed = n.meaning (Constraint.holds k) ∧ r.judgement.hasMessage = false :=
    fun n hn r hr => judged_of_silent (hroots n hn)
      (fun c hc => hsilent c (Node.mem_constraintsOf.mpr ⟨n, hn, hc⟩)) hr
  have hgoesOn : ∀ n ∈ roots, n.GoesOn k → n.meaning (Constraint.holds k) = false := by
    rintro n hn ⟨r, hr, hpassed, _⟩
    rw [← (hjudged n hn r hr).1, hpassed]
  cases h with
  | @passing before after root r message hsplit hbefore hr hpassed hmessage =>
    have hroot : root ∈ roots := by simp [hsplit]
    have hmeaning : root.meaning (Constraint.holds k) = true := by
      rw [← (hjudged root hroot r hr).1, hpassed]
    have hfirst : roots.find? (Node.meaning (Constraint.holds k)) = some root := by
      refine List.find?_eq_some_iff_append.mpr ⟨hmeaning, before, after, hsplit, fun n hn => ?_⟩
      rw [hgoesOn n (by simp [hsplit, hn]) (hbefore n hn)]
      rfl
    refine ⟨?_, fun root' hroot' => ?_⟩
    · exact (List.any_eq_true.mpr ⟨root, hroot, hmeaning⟩).symm
    · rw [hfirst] at hroot'
      cases hroot'
      rfl
  | @failing before after root r hsplit _ hr _ hmessage =>
    rw [(hjudged root (by simp [hsplit]) r hr).2] at hmessage
    cases hmessage
  | default hall _ =>
    have hnone : ∀ n ∈ roots, n.meaning (Constraint.holds k) = false := fun n hn =>
      hgoesOn n hn (hall n hn)
    refine ⟨(List.any_eq_false.mpr fun n hn => by simp [hnone n hn]).symm, fun root hroot => ?_⟩
    have htrue : root.meaning (Constraint.holds k) = true := by
      simpa using List.find?_some hroot
    rw [hnone root (List.mem_of_find?_eq_some hroot)] at htrue
    cases htrue

/-! ## Evaluation walks -/

/-- **A rule comes to what its walk says, never to the value `null`; or a constraint or a message
meets the limit on digits.**  Among silent conditions the first that means true decides. -/
theorem walk_evaluates {registry : Registry} {rule : Rule} {criteria : Value}
    (hsingle : criteria.items? = none)
    (hdecides : ∀ c ∈ rule.constraints, c.Decides ⟨registry, criteria⟩) :
    ((∃ r, rule.evaluate registry criteria = .ok (.one r) ∧
        Walk ⟨registry, criteria⟩ rule.default rule.conditions r.judgement ∧
        r.judgement.value ≠ .null) ∨
      ∃ f, rule.evaluate registry criteria = .error f ∧ f.isDigitLimit = true ∧
        ((∃ c ∈ rule.constraints, c.judge ⟨registry, criteria⟩ = .error f) ∨
          ∃ o, (o = rule.default ∨ ∃ n ∈ rule.conditions, o = n.outcome?) ∧
            fillMessage criteria (messageOf o) = .error f)) ∧
    ((∀ n ∈ rule.conditions, n.isCondition = true) →
      (∀ c ∈ rule.constraints, c.IsSilent ⟨registry, criteria⟩) →
      ∀ r, rule.evaluate registry criteria = .ok (.one r) →
        r.judgement.passed =
          rule.conditions.any (Node.meaning (Constraint.holds ⟨registry, criteria⟩)) ∧
        ∀ root,
          rule.conditions.find? (Node.meaning (Constraint.holds ⟨registry, criteria⟩)) =
            some root →
          r.judgement.value = valueOr (.bool true) (Outcome.valueOf root.outcome?)) := by
  have hone := evaluate_eq_judge hsingle registry rule
  have hwalk : ∀ r, rule.evaluate registry criteria = .ok (.one r) →
      Walk ⟨registry, criteria⟩ rule.default rule.conditions r.judgement := by
    intro r h
    rw [hone] at h
    obtain ⟨r', hr', h⟩ := Except.map_eq_ok_iff.mp h
    cases h
    exact walk_of_judgeRoots rule.conditions r hr'
  refine ⟨?_, fun hroots hsilent r h => passed_of_walk_silent (hwalk r h) hroots hsilent⟩
  cases h : rule.judge registry criteria with
  | ok r =>
    have hr : rule.evaluate registry criteria = .ok (.one r) := by
      rw [hone, h]
      rfl
    exact .inl ⟨r, hr, hwalk r hr, value_ne_null_of_walk (hwalk r hr)⟩
  | error f =>
    refine .inr ⟨f, by rw [hone, h]; rfl, ?_⟩
    rcases exists_of_judgeRoots_error f rule.conditions h with ⟨c, hc, hf⟩ | ⟨o, ho, hf⟩
    · exact ⟨Constraint.stopsAtDigits_judge (hdecides c hc) f hf, .inl ⟨c, hc, hf⟩⟩
    · exact ⟨stopsAtDigits_fillMessage _ _ f hf, .inr ⟨o, ho, hf⟩⟩

/-- A rule with two silent conditions, of which the second means true, and the default. -/
theorem walk_evaluates_presence :
    let presence : Operator := ⟨"exists", .existence, [.any], .ofProperty fun c => !c.isMissing⟩
    let registry := Registry.empty.insert presence
    let criteria : Value := .ofFields [("age", .int 18)]
    let exists? (field : String) : Node := .constraint ⟨.str field, .str "exists", none, .null⟩
    let rule : Rule := ⟨[.condition .and [exists? "name"] (some ⟨.place [0], .int 1, .null⟩),
      .condition .or [exists? "age"] (some ⟨.place [1], .int 2, .str "$.age years"⟩)], none⟩
    (criteria.items? = none ∧ ∀ c ∈ rule.constraints, c.Decides ⟨registry, criteria⟩) ∧
    ((∃ r, rule.evaluate registry criteria = .ok (.one r) ∧
        Walk ⟨registry, criteria⟩ rule.default rule.conditions r.judgement ∧
        r.judgement.value ≠ .null) ∨
      ∃ f, rule.evaluate registry criteria = .error f ∧ f.isDigitLimit = true ∧
        ((∃ c ∈ rule.constraints, c.judge ⟨registry, criteria⟩ = .error f) ∨
          ∃ o, (o = rule.default ∨ ∃ n ∈ rule.conditions, o = n.outcome?) ∧
            fillMessage criteria (messageOf o) = .error f)) ∧
    ((∀ n ∈ rule.conditions, n.isCondition = true) →
      (∀ c ∈ rule.constraints, c.IsSilent ⟨registry, criteria⟩) →
      ∀ r, rule.evaluate registry criteria = .ok (.one r) →
        r.judgement.passed =
          rule.conditions.any (Node.meaning (Constraint.holds ⟨registry, criteria⟩)) ∧
        ∀ root,
          rule.conditions.find? (Node.meaning (Constraint.holds ⟨registry, criteria⟩)) =
            some root →
          r.judgement.value = valueOr (.bool true) (Outcome.valueOf root.outcome?)) := by
  intro presence registry criteria exists? rule
  have hdecides : ∀ c ∈ rule.constraints, c.Decides ⟨registry, criteria⟩ := fun c _ =>
    Constraint.decides_of_only (fun _ _ => ⟨_, rfl⟩) criteria c
  exact ⟨⟨rfl, hdecides⟩, walk_evaluates rfl hdecides⟩

/-- A rule whose constraint has an index of more digits than can be read comes to nothing. -/
theorem evaluate_stops_at_longIndex :
    let registry := Registry.builtIn DateTime.epoch
    let c : Constraint :=
      ⟨.str (String.ofList (Segment.longIndex 4301)), .str "exists", none, .null⟩
    let rule : Rule := ⟨[.condition .and [.constraint c] none], none⟩
    (∀ c ∈ rule.constraints, c.Decides ⟨registry, .ofFields []⟩) ∧
    ¬ ∃ r, rule.evaluate registry (.ofFields []) = .ok r := by
  intro registry c rule
  have hlong : maxIntegerDigits < 4301 := by decide
  refine ⟨fun c' hc' o criterion value _ h _ => ?_, ?_⟩
  · simp only [rule, constraints, Node.constraintsOf, Node.constraints, List.append_nil,
      List.mem_singleton] at hc'
    subst hc'
    rw [Constraint.criterion_longIndex hlong rfl rfl] at h
    cases h
  · rintro ⟨r, h⟩
    have hc : c.judge ⟨registry, .ofFields []⟩ = .error (.numeralTooLong 4301) :=
      Constraint.judge_longIndex hlong rfl rfl
    rw [evaluate_eq_judge rfl, judge, judgeRoots, Node.judge, Node.judgeNodes, hc] at h
    cases h

end Rule

end Verdict
