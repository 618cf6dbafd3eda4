import Verdict.Introspection.Alternative
import Verdict.Proofs.Evaluation.Walk
import Verdict.Proofs.Operator.BuiltIn
import Verdict.Proofs.Operator.Decide
import Verdict.Proofs.Rule.Written

/-!
# Proofs/Evaluation/Total — every document of a rule is evaluated, up to the limits

    rule, criteria ──▸ a report, or a list of as many reports as there are criteria
                  └──▸ a limit that the rule, the criteria or an operator on both of them meets

With the built-in operators nothing else stops evaluation, whether the document is valid or not
(`Rule.evaluate_builtIn`): a text or an integer has too many digits, or an operator meets one of its
`Operator.Limits` on the value of a field and the value that its constraint gives it.
-/

namespace Verdict

namespace Rule

/-- The values of a rule that evaluation reads: those of its constraints, and the messages of its
roots and of the default. -/
def parts (rule : Rule) : List Value :=
  rule.constraints.flatMap Constraint.parts ++ messageOf rule.default ::
    rule.conditions.map fun n => messageOf n.outcome?

/-- What keeps a rule from being judged on criteria with the built-in operators. -/
inductive Limits (now : DateTime) (rule : Rule) (criteria : Value) (f : Fault) : Prop
  /-- Something in the rule has too many digits. -/
  | rule {v : Value} : v ∈ rule.parts → v.Exceeds f → Limits now rule criteria f
  /-- Something in the criteria has too many digits. -/
  | criteria : criteria.Exceeds f → Limits now rule criteria f
  /-- The operator of a constraint does not decide on what it is given. -/
  | operator {c : Constraint} {o : Operator} {criterion operand : Value} :
      c ∈ rule.constraints → o ∈ Operator.builtIns now → c.operator = .str o.name →
      c.criterion criteria = .ok criterion → Constraint.operand criteria c.value = .ok operand →
      o.Limits criterion operand f → Limits now rule criteria f

variable {now : DateTime} {rule : Rule}

/-- **Only its limits keep a rule from being judged.** -/
theorem stopsOnly_judge (now : DateTime) (rule : Rule) (criteria : Value) :
    StopsOnly (rule.Limits now criteria) (rule.judge (.builtIn now) criteria) := by
  intro f hf
  have hpart : ∀ {c v}, c ∈ rule.constraints → v ∈ c.parts → v ∈ rule.parts := fun hc hv =>
    List.mem_append_left _ (List.mem_flatMap.mpr ⟨_, hc, hv⟩)
  have hmessage : ∀ {o}, (o = rule.default ∨ ∃ n ∈ rule.conditions, o = n.outcome?) →
      messageOf o ∈ rule.parts := by
    rintro o (rfl | ⟨n, hn, rfl⟩)
    · exact List.mem_append_right _ (List.mem_cons_self ..)
    · exact List.mem_append_right _ (List.mem_cons_of_mem _ (List.mem_map_of_mem hn))
  rcases exists_of_judgeRoots_error f rule.conditions hf with ⟨c, hc, hf⟩ | ⟨o, ho, hf⟩
  · rcases Constraint.stopsOnly_judge _ c f hf with
      (⟨v, hv, hexceeds⟩ | hexceeds) | ⟨o, criterion, operand, ho, hcriterion, hoperand, htest⟩
    · exact .rule (hpart hc hv) hexceeds
    · exact .criteria hexceeds
    · obtain ⟨hmem, hname⟩ := Registry.mem_builtIns ho
      exact .operator hc hmem hname hcriterion hoperand
        (Operator.stopsOnly_test hmem criterion operand f htest)
  · rcases stopsOnly_fillMessage _ _ f hf with hexceeds | hexceeds
    · exact .rule (hmessage ho) hexceeds
    · exact .criteria hexceeds

end Rule

namespace Evaluated

/-- Evaluations that answer criteria: a list has a report for each of its items. -/
inductive Answers : Value → Evaluated → Prop
  | one {criteria : Value} {r : Report} : criteria.items? = none → Answers criteria (.one r)
  | each {mark : Mark} {items : List Value} {rs : List Report} : rs.length = items.length →
      Answers (.list mark items) (.each rs)

end Evaluated

namespace Rule

theorem answers_of_evaluate {registry : Registry} {rule : Rule} {criteria : Value} {e : Evaluated}
    (h : rule.evaluate registry criteria = .ok e)
    (hlength : criteria.flat.length = e.reports.length) : e.Answers criteria := by
  cases criteria with
  | list mark items =>
    obtain ⟨rs, _, rfl⟩ := Except.map_eq_ok_iff.mp h
    exact .each hlength.symm
  | _ =>
    rw [evaluate_eq_judge rfl] at h
    obtain ⟨r, _, rfl⟩ := Except.map_eq_ok_iff.mp h
    exact .one rfl

theorem evaluate_total (now : DateTime) (rule : Rule) (criteria : Value) :
    (∃ e, rule.evaluate (.builtIn now) criteria = .ok e ∧ e.Answers criteria) ∨
      ∃ f, rule.evaluate (.builtIn now) criteria = .error f ∧
        ∃ v ∈ criteria.flat, rule.Limits now v f := by
  rcases evaluate_cases (.builtIn now) rule criteria with ⟨e, he, hjudged⟩ | ⟨f, hf, v, hv, hjudge⟩
  · exact .inl ⟨e, he, answers_of_evaluate he hjudged.length_eq⟩
  · exact .inr ⟨f, hf, v, hv, stopsOnly_judge now rule v f hjudge⟩

/-- **Every document of a rule, valid or not, is evaluated with the built-in operators against
whatever criteria, or meets one of the limits; so does each operator on whatever values.** -/
theorem evaluate_builtIn (now : DateTime) (mark : Mark) (fields : List (String × Value))
    (criteria : Value) :
    (∃ rule, ofValue? (.object mark fields) = some rule ∧
      ((∃ e, rule.evaluate (.builtIn now) criteria = .ok e ∧ e.Answers criteria) ∨
        ∃ f, rule.evaluate (.builtIn now) criteria = .error f ∧
          ∃ v ∈ criteria.flat, rule.Limits now v f)) ∧
    ∀ o ∈ Operator.builtIns now, ∀ c v,
      (∃ b, o.test c v = .ok b) ∨ ∃ f, o.test c v = .error f ∧ o.Limits c v f := by
  refine ⟨⟨_, rfl, evaluate_total now _ criteria⟩, fun o ho c v => ?_⟩
  cases htest : o.test c v with
  | ok b => exact .inl ⟨b, rfl⟩
  | error f => exact .inr ⟨f, rfl, Operator.stopsOnly_test ho c v f htest⟩

/-- The first midnight of the calendar, an hour to the east, has no day in universal time. -/
theorem evaluate_stops_before_calendar :
    let c : Constraint := ⟨.str "day", .str "date-equals-to-now", none, .null⟩
    let rule : Rule := ⟨[.condition .and [.constraint c] none], none⟩
    let criteria := Value.ofFields [("day", .str "0001-01-01T00:00:00+01:00")]
    ofValue? rule.toValue = some rule ∧
      rule.evaluate (.builtIn DateTime.epoch) criteria = .error .instantBeyondCalendar := by
  intro c rule criteria
  have hlegible : Node.AreLegible rule.conditions := Node.areLegible_of_areProper rfl
  have item : (Operator.builtIns DateTime.epoch)[113]? = some ⟨"date-equals-to-now", _, _, _⟩ := rfl
  have hfind := Registry.find?_builtIn (List.mem_of_getElem? item)
  have htoday : Value.isToday DateTime.epoch (.str "0001-01-01T00:00:00+01:00") =
      .error .instantBeyondCalendar := by with_unfolding_all rfl
  have hcriterion : c.criterion criteria = .ok (.str "0001-01-01T00:00:00+01:00") := by
    with_unfolding_all rfl
  have hjudge : c.judge ⟨.builtIn .epoch, criteria⟩ = .error .instantBeyondCalendar := by
    rw [Constraint.judge, hcriterion]
    simp only [bind, Except.bind]
    rw [hfind]
    simp only [htoday]
    rfl
  refine ⟨Rule.ofValue?_toValue hlegible, ?_⟩
  rw [evaluate_eq_judge rfl, judge, judgeRoots, Node.judge, Node.judgeNodes, hjudge]
  rfl

end Rule

end Verdict
