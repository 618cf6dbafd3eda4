import Verdict.Introspection.Alternative
import Verdict.Proofs.Evaluation.Walk

/-!
# Proofs/Evaluation/Asked — evaluation sees of criteria what the rule asks for

    criteria a ──the paths that the rule names──┐
                                                ├──▸ the same answers ──▸ the same report
    criteria b ──the paths that the rule names──┘

A rule **asks** criteria for its fields, for the references in its values and for the expressions in the
messages of its outcomes.  Where constraints have no messages of their own, nothing else is looked at: on
criteria that answer alike a rule comes to the same, or stops with the same fault
(`Rule.evaluate_eq_of_answerAlike`).
-/

namespace Verdict

/-! ## What is asked -/

/-- The paths by which a constraint looks into criteria: its field, and the references that its value
is or holds. -/
def Constraint.asked (c : Constraint) : List Value := c.field :: c.value.flat.filter Value.isReference

/-- The expressions of a message that are filled in. -/
def Template.asked : Value → List String
  | .str s => if mayHoldPath s then expressions s else []
  | _ => []

/-- Criteria that answer alike whatever a rule asks for. -/
structure Rule.AnswerAlike (rule : Rule) (a b : Value) : Prop where
  constraints : ∀ c ∈ rule.constraints, ∀ path ∈ c.asked,
    Path.resolveValue path a = Path.resolveValue path b
  messages : ∀ o, (o = rule.default ∨ ∃ n ∈ rule.conditions, o = n.outcome?) →
    ∀ expression ∈ Template.asked (Rule.messageOf o),
      Path.resolve expression a = Path.resolve expression b

variable {a b : Value}

/-! ## Messages -/

theorem Template.fill_congr {s : String}
    (h : ∀ expression ∈ expressions s, Path.resolve expression a = Path.resolve expression b) :
    fill s a = fill s b := by
  suffices hall : ∀ (es : List String) (text : String),
      (∀ e ∈ es, Path.resolve e a = Path.resolve e b) →
      es.foldlM (fillOne a) text = es.foldlM (fillOne b) text from hall _ s h
  intro es
  induction es with
  | nil => exact fun _ _ => rfl
  | cons e rest ih =>
    intro text h
    obtain ⟨he, hrest⟩ := List.forall_mem_cons.mp h
    have hone : fillOne a text e = fillOne b text e := by rw [fillOne, fillOne, he]
    rw [List.foldlM_cons, List.foldlM_cons, hone]
    exact congrArg _ (funext fun text' => ih text' hrest)

theorem fillMessage_congr {message : Value}
    (h : ∀ expression ∈ Template.asked message,
      Path.resolve expression a = Path.resolve expression b) :
    fillMessage a message = fillMessage b message := by
  unfold fillMessage
  split
  · next s =>
    split
    · next hpath =>
      rw [Template.asked, if_pos hpath] at h
      rw [Template.fill_congr h]
    · rfl
  · rfl

/-! ## Constraints -/

namespace Constraint

variable {c : Constraint}

theorem criterion_congr (h : ∀ path ∈ c.asked, Path.resolveValue path a = Path.resolveValue path b) :
    c.criterion a = c.criterion b := by
  rw [criterion, criterion, h c.field (List.mem_cons_self ..)]

theorem resolve_congr {v : Value}
    (h : v.isReference = true → Path.resolveValue v a = Path.resolveValue v b) :
    resolve a v = resolve b v := by
  unfold resolve
  split
  · next hreference => rw [h hreference]
  · rfl

theorem resolveItems_congr : ∀ {items : List Value},
    (∀ v ∈ items, v.isReference = true → Path.resolveValue v a = Path.resolveValue v b) →
    resolveItems a items = resolveItems b items
  | [], _ => rfl
  | v :: rest, h => by
    obtain ⟨hv, hrest⟩ := List.forall_mem_cons.mp h
    rw [resolveItems, resolveItems, resolve_congr hv, resolveItems_congr hrest]

theorem operand_congr {v : Value}
    (h : ∀ u ∈ v.flat, u.isReference = true → Path.resolveValue u a = Path.resolveValue u b) :
    operand a v = operand b v := by
  cases v with
  | list mark items => exact congrArg (Except.map Value.ofItems) (resolveItems_congr h)
  | _ => exact resolve_congr (h _ (List.mem_singleton_self _))

/-- **A constraint without a message sees of criteria what it asks for.** -/
theorem judge_congr {registry : Registry} (hsilent : c.message.isTruthy = false)
    (h : ∀ path ∈ c.asked, Path.resolveValue path a = Path.resolveValue path b) :
    c.judge ⟨registry, a⟩ = c.judge ⟨registry, b⟩ := by
  have hoperand : operand a c.value = operand b c.value := operand_congr fun u hu hreference =>
    h u (List.mem_cons_of_mem _ (List.mem_filter.mpr ⟨hu, hreference⟩))
  have hmessage : ∀ criterion criteria, c.ownMessage criterion criteria = .ok .null :=
    fun _ _ => if_neg (by simp [hsilent])
  rw [judge, judge]
  dsimp only
  simp only [criterion_congr h, hoperand, hmessage]

end Constraint

/-! ## Conditions -/

namespace Node

variable {registry : Registry}

mutual

/-- Nodes of such constraints see nothing else. -/
theorem report?_congr : ∀ n : Node,
    (∀ c ∈ n.constraints, c.judge ⟨registry, a⟩ = c.judge ⟨registry, b⟩) →
    n.report? ⟨registry, a⟩ = n.report? ⟨registry, b⟩
  | .condition branch nodes outcome, h => by
    rw [report?, report?, judge, judge]
    exact congrArg some (judgeNodes_congr branch outcome nodes _ h)
  | .constraint c, h => congrArg some (h c (by simp [constraints]))
  | .invalid _, _ => rfl

/-- Going through the nodes, each is judged alike, so both walks stop at the same one. -/
theorem judgeNodes_congr (branch : Branch) (outcome : Option Outcome) :
    ∀ (nodes : List Node) (sofar : Report),
    (∀ c ∈ constraintsOf nodes, c.judge ⟨registry, a⟩ = c.judge ⟨registry, b⟩) →
    judgeNodes ⟨registry, a⟩ branch outcome sofar nodes =
      judgeNodes ⟨registry, b⟩ branch outcome sofar nodes
  | [], _, _ => rfl
  | n :: rest, sofar, h => by
    rw [constraintsOf, List.forall_mem_append] at h
    rw [judgeNodes_cons, judgeNodes_cons, report?_congr n h.1]
    cases n.report? ⟨registry, b⟩ with
    | none => exact judgeNodes_congr branch outcome rest _ h.2
    | some report =>
      refine congrArg (report >>= ·) (funext fun r => ?_)
      rw [judgeNodes_congr branch outcome rest _ h.2]

end

theorem judge_congr {n : Node}
    (h : ∀ c ∈ n.constraints, c.judge ⟨registry, a⟩ = c.judge ⟨registry, b⟩) :
    n.judge ⟨registry, a⟩ = n.judge ⟨registry, b⟩ := by
  cases hn : n.isCondition with
  | true =>
    have hreport := report?_congr n h
    rw [report?_of_isCondition hn, report?_of_isCondition hn] at hreport
    exact Option.some.inj hreport
  | false => rw [judge_of_not_isCondition hn, judge_of_not_isCondition hn]

end Node

/-! ## Rules -/

namespace Rule

variable {registry : Registry}

theorem answer_congr {passed : Bool} {o : Option Outcome}
    (h : fillMessage a (messageOf o) = fillMessage b (messageOf o)) :
    answer a passed o = answer b passed o := congrArg (Except.map _) h

theorem judgeRoots_congr {default : Option Outcome}
    (hdefault : fillMessage a (messageOf default) = fillMessage b (messageOf default)) :
    ∀ roots : List Node,
    (∀ c ∈ Node.constraintsOf roots, c.judge ⟨registry, a⟩ = c.judge ⟨registry, b⟩) →
    (∀ n ∈ roots, fillMessage a (messageOf n.outcome?) = fillMessage b (messageOf n.outcome?)) →
    judgeRoots ⟨registry, a⟩ default roots = judgeRoots ⟨registry, b⟩ default roots
  | [], _, _ => by
    rw [judgeRoots, judgeRoots, answer_congr hdefault]
  | root :: rest, hconstraints, hmessages => by
    rw [Node.constraintsOf, List.forall_mem_append] at hconstraints
    obtain ⟨hroot, hrest⟩ := List.forall_mem_cons.mp hmessages
    rw [judgeRoots, judgeRoots, Node.judge_congr hconstraints.1, answer_congr hroot,
      judgeRoots_congr hdefault rest hconstraints.2 hrest]

/-- **On criteria that answer alike, a rule whose constraints have no messages comes to the same**: to
one judgement, or to one fault. -/
theorem evaluate_eq_of_answerAlike {rule : Rule} (ha : a.items? = none) (hb : b.items? = none)
    (hsilent : ∀ c ∈ rule.constraints, c.message.isTruthy = false) (h : rule.AnswerAlike a b) :
    rule.evaluate registry a = rule.evaluate registry b := by
  have hconstraints : ∀ c ∈ rule.constraints,
      c.judge ⟨registry, a⟩ = c.judge ⟨registry, b⟩ := fun c hc =>
    Constraint.judge_congr (hsilent c hc) (h.constraints c hc)
  have hmessages : ∀ o, (o = rule.default ∨ ∃ n ∈ rule.conditions, o = n.outcome?) →
      fillMessage a (messageOf o) = fillMessage b (messageOf o) := fun o ho =>
    fillMessage_congr (h.messages o ho)
  rw [evaluate_eq_judge ha, evaluate_eq_judge hb, judge, judge,
    judgeRoots_congr (hmessages _ (.inl rfl)) rule.conditions hconstraints
      fun n hn => hmessages _ (.inr ⟨n, hn, rfl⟩)]

/-- A field, a reference and a message that answer alike on criteria that differ in the rest. -/
theorem evaluate_eq_of_unasked_fields :
    let registry := Registry.builtIn DateTime.epoch
    let c : Constraint :=
      ⟨.str "age", .str "in", some (.ofItems [.str "$.limits[0]", .int 30]), .null⟩
    let rule : Rule :=
      ⟨[.condition .or [.constraint c] (some ⟨.place [0], .int 1, .str "$.name is in."⟩)], none⟩
    let a := Value.ofFields [("age", .int 18), ("limits", .ofItems [.int 18]), ("name", .str "Ann")]
    let b := Value.ofFields [("name", .str "Ann"), ("limits", .ofItems [.int 18, .int 19]),
      ("age", .int 18), ("born", .null)]
    (a.items? = none ∧ b.items? = none ∧ (∀ c ∈ rule.constraints, c.message.isTruthy = false) ∧
      rule.AnswerAlike a b) ∧
    rule.evaluate registry a = rule.evaluate registry b := by
  intro registry c rule a b
  have hrule : rule.constraints = [c] := rfl
  have hasked : c.asked = [.str "age", .str "$.limits[0]"] := by rfl
  have htold : Template.asked (.str "$.name is in.") = ["$.name"] := by rfl
  have hfield : Path.resolveValue (.str "age") a = Path.resolveValue (.str "age") b := by rfl
  have hreference :
      Path.resolveValue (.str "$.limits[0]") a = Path.resolveValue (.str "$.limits[0]") b := by rfl
  have hexpression : Path.resolve "$.name" a = Path.resolve "$.name" b := by rfl
  have hsilent : ∀ c ∈ rule.constraints, c.message.isTruthy = false := by
    rw [hrule, List.forall_mem_singleton]
    rfl
  have halike : rule.AnswerAlike a b := by
    refine ⟨?_, fun o ho => ?_⟩
    · rw [hrule, List.forall_mem_singleton, hasked, List.forall_mem_cons, List.forall_mem_singleton]
      exact ⟨hfield, hreference⟩
    · rcases ho with rfl | ⟨n, hn, rfl⟩
      · exact List.forall_mem_nil _
      · obtain rfl := List.mem_singleton.mp hn
        change ∀ expression ∈ Template.asked (.str "$.name is in."), _
        rw [htold, List.forall_mem_singleton]
        exact hexpression
  exact ⟨⟨rfl, rfl, hsilent, halike⟩, evaluate_eq_of_answerAlike rfl rfl hsilent halike⟩

end Rule

end Verdict
