import Verdict.Introspection.Satisfaction
import Verdict.Proofs.Evaluation.Meaning
import Verdict.Proofs.Operator.BuiltIn
import Verdict.Proofs.Validation.Sound
import Verdict.Proofs.Value.Scalar

/-!
# Proofs/Introspection/Literal — a requirement is met when its constraint holds

    constraint ── effective operator ──▸ requirement of its field
        │ verdict                              │ isMet
        ▾                                      ▾
       bool  ════ (the other way below NONE) ══ bool

`Constraint.isMet_entry` is this square for one constraint: the requirement that an alternative
takes from it is met exactly when the constraint holds, or below a NONE when it does not.
-/

namespace Verdict

/-- The operator that counts for a constraint: below a NONE the inverse, where one is linked. -/
def Registry.effective (r : Registry) (negated : Bool) (operator : Value) : Value :=
  if negated then (r.negation? operator).elim operator .str else operator

/-- What a constraint requires of a field without requirements: its value where the operator is left
out, else operator and value. -/
def Alternative.entry (c : Constraint) (operator : Value) : Value :=
  match operator with
  | .str name =>
    if Operator.plainOperators.contains name then c.value else requirement c (.str name)
  | operator => requirement c operator

namespace Constraint

/-- A constraint whose value is compared as it stands: there is no path in it, what is compared for
equality is a scalar, and so is what is looked for in a list. -/
structure IsLiteral (c : Constraint) : Prop where
  value : c.value.isReference = false
  items : ∀ mark items, c.value = .list mark items → ∀ v ∈ items, v.isReference = false
  equality : c.operator = .str "equals" ∨ c.operator = .str "not-equals" → c.value.isScalar = true
  membership : c.operator = .str "in" ∨ c.operator = .str "not-in" →
    ∀ mark items, c.value = .list mark items → ∀ v ∈ items, v.isScalar = true

/-- A constraint on a scalar without a path is literal. -/
theorem IsLiteral.of_isScalar {c : Constraint} (hreference : c.value.isReference = false)
    (hscalar : c.value.isScalar = true) : c.IsLiteral := by
  have hlist : ∀ mark items, c.value ≠ .list mark items := fun mark items h => by
    rw [h] at hscalar
    cases hscalar
  exact ⟨hreference, fun mark items h => absurd h (hlist mark items), fun _ => hscalar,
    fun _ mark items h => absurd h (hlist mark items)⟩

/-- So is one on a list of scalars without paths, where lists are not compared as a whole. -/
theorem IsLiteral.of_items {c : Constraint} {mark : Mark} {items : List Value}
    (hc : c.value = .list mark items)
    (hitems : ∀ v ∈ items, v.isReference = false ∧ v.isScalar = true)
    (hoperator : ¬ (c.operator = .str "equals" ∨ c.operator = .str "not-equals")) :
    c.IsLiteral := by
  have hall : ∀ mark items, c.value = .list mark items →
      ∀ v ∈ items, v.isReference = false ∧ v.isScalar = true := fun mark' items' h => by
    obtain ⟨_, rfl⟩ := Value.list.inj (hc.symm.trans h)
    exact hitems
  refine ⟨by rw [hc]; rfl, fun mark items h v hv => (hall mark items h v hv).1, ?_,
    fun _ mark items h v hv => (hall mark items h v hv).2⟩
  exact fun h => absurd h hoperator

/-- The same constraint with another operator. -/
def withOperator (c : Constraint) (operator : Value) : Constraint := { c with operator := operator }

/-! ## Operands -/

/-- What is no path stands for itself. -/
theorem resolve_of_isReference {v : Value} (h : v.isReference = false) (criteria : Value) :
    resolve criteria v = .ok v := by
  rw [resolve, h]
  rfl

theorem resolveItems_of_isReference (criteria : Value) : ∀ {items : List Value},
    (∀ v ∈ items, v.isReference = false) → resolveItems criteria items = .ok items
  | [], _ => rfl
  | v :: rest, h => by
    obtain ⟨hv, hrest⟩ := List.forall_mem_cons.mp h
    rw [resolveItems, resolve_of_isReference hv, resolveItems_of_isReference criteria hrest]
    rfl

theorem operand_of_isScalar {v : Value} (hv : v.isReference = false) (hs : v.isScalar = true)
    (criteria : Value) : operand criteria v = .ok v := by
  cases v with
  | list mark items => cases hs
  | _ => exact resolve_of_isReference hv criteria

theorem operand_of_items {items : List Value} (h : ∀ v ∈ items, v.isReference = false)
    (mark : Mark) (criteria : Value) :
    operand criteria (.list mark items) = .ok (.ofItems items) := by
  rw [operand, resolveItems_of_isReference criteria h]
  rfl

end Constraint

/-! ## Requirements -/

namespace Requirement

variable {k : Setting} {criterion : Value}

theorem get?_operator_of_isScalar {v : Value} (h : v.isScalar = true) :
    v.get? "operator" = none := by
  cases v with
  | object mark fields => cases h
  | _ => rfl

theorem entryIsMet_of_isScalar {v : Value} (h : v.isScalar = true) :
    entryIsMet k criterion v = criterion.equal v := by
  rw [entryIsMet, get?_operator_of_isScalar h]

theorem isMet_of_isScalar {v : Value} (h : v.isScalar = true) :
    isMet k criterion v = criterion.equal v := by
  cases v with
  | list mark items => cases h
  | _ => exact entryIsMet_of_isScalar (k := k) h

/-- A list of scalars is met by the values among them. -/
theorem isMet_of_items {items : List Value} (h : ∀ v ∈ items, v.isScalar = true) (mark : Mark) :
    isMet k criterion (.list mark items) = Value.contains items criterion := by
  rw [isMet, Value.contains, Bool.eq_iff_iff, List.any_eq_true, List.any_eq_true]
  refine exists_congr fun v => and_congr_right fun hv => ?_
  rw [entryIsMet_of_isScalar (h v hv), Value.equal_comm_of_isScalar (h v hv)]

theorem get?_operator_requirement (c : Constraint) (operator : Value) :
    (Alternative.requirement c operator).get? "operator" = some operator := rfl

theorem getOrNull_value_requirement (c : Constraint) (operator : Value) :
    (Alternative.requirement c operator).getOrNull "value" = c.value := by
  unfold Alternative.requirement Constraint.value
  cases c.value? <;> rfl

/-- A requirement of operator and value is met when the operator says so. -/
theorem isMet_requirement (c : Constraint) {operator : Value} {o : Operator}
    (ho : k.registry.find? operator = some o) :
    isMet k criterion (Alternative.requirement c operator) = true ↔
      ∃ value, Constraint.operand k.criteria c.value = .ok value ∧
        o.test criterion value = .ok true := by
  have hentry : isMet k criterion (Alternative.requirement c operator) =
      entryIsMet k criterion (Alternative.requirement c operator) := rfl
  rw [hentry, entryIsMet, get?_operator_requirement, getOrNull_value_requirement]
  simp only [ho]
  cases Constraint.operand k.criteria c.value with
  | error f => simp
  | ok value => cases h : o.test criterion value <;> simp [h]

end Requirement

/-! ## Constraints -/

namespace Constraint

variable {k : Setting}

/-- One field with a known value is met where its requirement is. -/
theorem isMet_singleton {c : Constraint} {requirement : Value} :
    Alternative.isMet k [(c.field, requirement)] = true ↔
      ∃ criterion, c.criterion k.criteria = .ok criterion ∧
        Requirement.isMet k criterion requirement = true := by
  rw [Alternative.isMet, List.all_cons, List.all_nil, Bool.and_true, criterion]
  cases h : Path.resolveValue c.field k.criteria <;> simp [h, Except.map]

theorem isMet_singleton_of_criterion {c : Constraint} {criterion : Value}
    (h : c.criterion k.criteria = .ok criterion) (requirement : Value) :
    Alternative.isMet k [(c.field, requirement)] = Requirement.isMet k criterion requirement := by
  rw [Bool.eq_iff_iff, isMet_singleton]
  refine ⟨fun ⟨criterion', h', hmet⟩ => ?_, fun hmet => ⟨criterion, h, hmet⟩⟩
  cases h.symm.trans h'
  exact hmet

/-- A requirement of operator and value is met when the constraint with that operator holds. -/
theorem isMet_requirement {c : Constraint} {operator : Value} {o : Operator}
    (ho : k.registry.find? operator = some o) :
    Alternative.isMet k [(c.field, Alternative.requirement c operator)] =
      (c.withOperator operator).holds k := by
  rw [Bool.eq_iff_iff, isMet_singleton, holds_iff]
  constructor
  · rintro ⟨criterion, hcriterion, hmet⟩
    obtain ⟨value, hvalue, htest⟩ := (Requirement.isMet_requirement c ho).mp hmet
    exact ⟨o, criterion, value, ho, hcriterion, hvalue, htest⟩
  · rintro ⟨o', criterion, value, ho', hcriterion, hvalue, htest⟩
    cases ho.symm.trans ho'
    exact ⟨criterion, hcriterion, (Requirement.isMet_requirement c ho).mpr ⟨value, hvalue, htest⟩⟩

/-- Where the operand is known, a constraint holds when its operator says so of the field's
value. -/
theorem holds_iff_of_operand {c : Constraint} {o : Operator} {value : Value}
    (ho : k.registry.find? c.operator = some o) (hvalue : operand k.criteria c.value = .ok value) :
    c.holds k = true ↔
      ∃ criterion, c.criterion k.criteria = .ok criterion ∧ o.test criterion value = .ok true := by
  rw [holds_iff]
  constructor
  · rintro ⟨o', criterion, value', ho', hcriterion, hvalue', htest⟩
    cases ho.symm.trans ho'
    cases hvalue.symm.trans hvalue'
    exact ⟨criterion, hcriterion, htest⟩
  · rintro ⟨criterion, hcriterion, htest⟩
    exact ⟨o, criterion, value, ho, hcriterion, hvalue, htest⟩

variable {now : DateTime} {criteria : Value}

/-- A scalar alone is met by what equals it. -/
theorem isMet_equals {c : Constraint} (hreference : c.value.isReference = false)
    (hscalar : c.value.isScalar = true) :
    Alternative.isMet ⟨.builtIn now, criteria⟩ [(c.field, c.value)] =
      (c.withOperator (.str "equals")).holds ⟨.builtIn now, criteria⟩ := by
  rw [Bool.eq_iff_iff, isMet_singleton, holds_iff_of_operand (c := c.withOperator (.str "equals"))
    (k := ⟨.builtIn now, criteria⟩) (Operator.find?_equals now)
    (operand_of_isScalar hreference hscalar criteria)]
  refine exists_congr fun criterion => and_congr_right fun _ => ?_
  rw [Requirement.isMet_of_isScalar hscalar]
  exact ⟨fun h => congrArg Except.ok h, fun h => Except.ok.inj h⟩

/-- A list of scalars alone is met by what is among them. -/
theorem isMet_in {c : Constraint} {mark : Mark} {items : List Value}
    (hc : c.value = .list mark items)
    (hreference : ∀ v ∈ items, v.isReference = false) (hscalar : ∀ v ∈ items, v.isScalar = true) :
    Alternative.isMet ⟨.builtIn now, criteria⟩ [(c.field, c.value)] =
      (c.withOperator (.str "in")).holds ⟨.builtIn now, criteria⟩ := by
  have hoperand : operand criteria (c.withOperator (.str "in")).value = .ok (.ofItems items) := by
    rw [← operand_of_items hreference mark criteria, ← hc]
    rfl
  rw [Bool.eq_iff_iff, isMet_singleton, holds_iff_of_operand (c := c.withOperator (.str "in"))
    (k := ⟨.builtIn now, criteria⟩) (Operator.find?_in now) hoperand]
  refine exists_congr fun criterion => and_congr_right fun _ => ?_
  rw [hc, Requirement.isMet_of_items hscalar mark]
  exact ⟨fun h => congrArg Except.ok h, fun h => Except.ok.inj h⟩

/-! ## Below a NONE -/

/-- A constraint whose operator has an inverse that decides against it. -/
def IsNegatable (now : DateTime) (c : Constraint) : Prop :=
  ∃ a b, Operator.IsInversePair now a b ∧ (c.operator = .str a ∨ c.operator = .str b)

theorem IsNegatable.negated {c : Constraint} (h : c.IsNegatable now) :
    ∃ operator inverse, c.operator = .str operator ∧
      Operator.Negated (.builtIn now) operator inverse := by
  obtain ⟨a, b, hpair, ha | hb⟩ := h
  · exact ⟨a, b, ha, hpair.negated.1⟩
  · exact ⟨b, a, hb, hpair.negated.2⟩

/-- A constraint that comes to a verdict holds as it says. -/
theorem holds_of_verdict {c : Constraint} {passed : Bool} (h : c.verdict k = .ok passed) :
    c.holds k = passed := by
  rw [holds, h]
  rfl

/-- The inverse holds where the operator does not, if the constraint is judged at all. -/
theorem holds_withOperator_inverse {c : Constraint} {operator inverse : String}
    (hc : c.operator = .str operator) (h : Operator.Negated k.registry operator inverse)
    (hjudge : ∃ r, c.judge k = .ok r) :
    (c.withOperator (.str inverse)).holds k = !c.holds k := by
  obtain ⟨r, hr⟩ := hjudge
  obtain ⟨o, o', ho, ho', hdecides⟩ := h.decides
  have hverdict := verdict_of_judge hr
  rw [holds_of_verdict hverdict]
  apply holds_of_verdict
  obtain ⟨criterion, hcriterion, hrest⟩ := Except.bind_eq_ok_iff.mp hverdict
  rw [hc, ho] at hrest
  obtain ⟨value, hvalue, htest⟩ := Except.bind_eq_ok_iff.mp hrest
  refine Except.bind_eq_ok_iff.mpr ⟨criterion, hcriterion, ?_⟩
  have hfind : k.registry.find? (c.withOperator (.str inverse)).operator = some o' := ho'
  rw [hfind]
  exact Except.bind_eq_ok_iff.mpr ⟨value, hvalue, hdecides criterion value _ htest⟩

/-! ## Entries -/

/-- The requirement with an operator is met where the constraint with the operator holds. -/
theorem isMet_entry_withOperator {c : Constraint} {name : String} {o : Operator}
    (ho : (Registry.builtIn now).find? (.str name) = some o)
    (hequality : name = "equals" → c.value.isReference = false ∧ c.value.isScalar = true)
    (hmembership : name = "in" → ∃ mark items, c.value = .list mark items ∧
      ∀ v ∈ items, v.isReference = false ∧ v.isScalar = true) :
    Alternative.isMet ⟨.builtIn now, criteria⟩ [(c.field, Alternative.entry c (.str name))] =
      (c.withOperator (.str name)).holds ⟨.builtIn now, criteria⟩ := by
  by_cases hplain : Operator.plainOperators.contains name = true
  · rw [Alternative.entry, if_pos hplain]
    simp only [Operator.plainOperators, List.contains_iff_mem, List.mem_cons, List.not_mem_nil,
      or_false] at hplain
    rcases hplain with rfl | rfl
    · obtain ⟨hreference, hscalar⟩ := hequality rfl
      exact isMet_equals hreference hscalar
    · obtain ⟨mark, items, hc, hitems⟩ := hmembership rfl
      exact isMet_in hc (fun v hv => (hitems v hv).1) fun v hv => (hitems v hv).2
  · rw [Alternative.entry, if_neg hplain]
    exact isMet_requirement ho

theorem withOperator_self (c : Constraint) : c.withOperator c.operator = c := rfl

/-- **The requirement taken from a constraint is met when the constraint holds, and below a NONE
when it does not.** -/
theorem isMet_entry {c : Constraint} {negated : Bool} (hsound : c.IsSound (.builtIn now))
    (hliteral : c.IsLiteral) (hnegatable : negated = true → c.IsNegatable now)
    (hjudge : ∃ r, c.judge ⟨.builtIn now, criteria⟩ = .ok r) :
    Alternative.isMet ⟨.builtIn now, criteria⟩
        [(c.field, Alternative.entry c ((Registry.builtIn now).effective negated c.operator))] =
      (c.holds ⟨.builtIn now, criteria⟩ != negated) := by
  have hitems : ∀ name, c.operator = .str name → name ∈ ["in", "not-in"] →
      ∃ mark items, c.value = .list mark items ∧
        ∀ v ∈ items, v.isReference = false ∧ v.isScalar = true := by
    intro name hname hmem
    obtain ⟨mark, items, hvalue⟩ := hsound.list name
      (by simp only [List.mem_cons, List.not_mem_nil, or_false] at hmem
          rcases hmem with rfl | rfl <;> simp [Operator.listOperators]) hname
    refine ⟨mark, items, hvalue, fun v hv => ⟨hliteral.items mark items hvalue v hv, ?_⟩⟩
    refine hliteral.membership ?_ mark items hvalue v hv
    rw [hname]
    simpa using hmem
  -- Below a NONE the requirement has the inverse operator, which holds where the operator does not.
  cases negated with
  | false =>
    obtain ⟨name, o, hname, ho⟩ := hsound.operator
    have heffective : (Registry.builtIn now).effective false c.operator = .str name := hname
    rw [heffective, Bool.bne_false]
    refine (isMet_entry_withOperator ho (fun h => ?_) fun h => ?_).trans ?_
    · exact ⟨hliteral.value, hliteral.equality (.inl (h ▸ hname))⟩
    · exact hitems name hname (by simp [h])
    · rw [← hname, withOperator_self]
  | true =>
    obtain ⟨operator, inverse, hoperator, hnegated⟩ := (hnegatable rfl).negated
    have heffective : (Registry.builtIn now).effective true c.operator = .str inverse := by
      rw [Registry.effective, if_pos rfl, hoperator, hnegated.linked]
      rfl
    obtain ⟨_, o', _, ho', _⟩ := hnegated.decides
    rw [heffective, Bool.bne_true]
    refine (isMet_entry_withOperator ho' (fun h => ?_) fun h => ?_).trans
      (holds_withOperator_inverse hoperator hnegated hjudge)
    · subst h
      rw [hnegated.eq_not_equals] at hoperator
      exact ⟨hliteral.value, hliteral.equality (.inr hoperator)⟩
    · subst h
      rw [hnegated.eq_not_in] at hoperator
      exact hitems "not-in" hoperator (by simp)

end Constraint

end Verdict
