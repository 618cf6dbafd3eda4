import Verdict.Proofs.Evaluation.Meaning
import Verdict.Proofs.Operator.BuiltIn

/-!
# Proofs/Evaluation/Presence — checks for presence follow the path

    field's path ──resolve──▸ nothing        ──┐
                         └──▸ a value v        │ criterion
                                    │          ▾
                                    └──▸ v or the text of a missing field ──check──▸ passed

A check for presence is given the criterion, a value, and not what the path leads to.  A field that
holds the text which stands for a missing one is therefore as good as missing
(`Presence.IsMissing`); otherwise each check says of what the path leads to what its name says:
`Constraint.judge_presence`.
-/

namespace Verdict

/-! ## What a path leads to -/

namespace Presence

/-- As good as missing: the path leads nowhere, or to the text that a missing field reads as. -/
def IsMissing (found : Option Value) : Prop := found = none ∨ found = some (.str "undefined")

/-- Missing or null. -/
def IsAbsent (found : Option Value) : Prop := IsMissing found ∨ found = some .null

/-- Absent, or a text, a list or an object without anything in it. -/
def IsEmpty (found : Option Value) : Prop :=
  IsAbsent found ∨ found = some (.str "") ∨
    ∃ mark, found = some (.list mark []) ∨ found = some (.object mark [])

/-- Absent, or a text of white space alone. -/
def IsBlank (found : Option Value) : Prop :=
  IsAbsent found ∨ ∃ s : String, found = some (.str s) ∧ ∀ c ∈ s.toList, isBlank c = true

/-- The value that is checked for what a path leads to. -/
def criterion (found : Option Value) : Value := found.getD .missing

variable {found : Option Value} {name : String}

theorem isMissing_iff : (criterion found).isMissing = true ↔ IsMissing found := by
  cases found with
  | none => exact ⟨fun _ => .inl rfl, fun _ => rfl⟩
  | some v => cases v <;> simp [criterion, Value.isMissing, IsMissing]

theorem isAbsent_iff : (criterion found).isAbsent = true ↔ IsAbsent found := by
  rw [Value.isAbsent, Bool.or_eq_true, isMissing_iff, IsAbsent, or_comm]
  refine or_congr_right ?_
  cases found with
  | none => simp [criterion, Value.missing, Value.isNull]
  | some v => cases v <;> simp [criterion, Value.isNull]

theorem isEmpty_iff : (criterion found).isEmpty = true ↔ IsEmpty found := by
  cases found with
  | none => exact ⟨fun _ => .inl (.inl (.inl rfl)), fun _ => rfl⟩
  | some v =>
    cases v <;> simp [criterion, Value.isEmpty, Value.isNull, IsEmpty, IsAbsent, IsMissing, or_comm]

theorem isBlankOrAbsent_iff : (criterion found).isBlankOrAbsent = true ↔ IsBlank found := by
  unfold Value.isBlankOrAbsent
  rw [Bool.or_eq_true, isAbsent_iff, IsBlank]
  cases found with
  | none => exact ⟨fun _ => .inl (.inl (.inl rfl)), fun _ => .inl (.inl (.inl rfl))⟩
  | some v =>
    refine or_congr_right ?_
    cases v <;> simp [criterion, isBlankText]

/-- The checks for presence, each with its denial and with what it asks. -/
def checks : List (String × String × (Option Value → Prop)) := [
  ("exists", "not-exists", fun found => ¬ IsMissing found),
  ("null-or-undefined", "not-null-or-undefined", IsAbsent),
  ("empty", "not-empty", IsEmpty),
  ("null-or-white-space", "not-null-or-white-space", IsBlank)]

/-- An operator that asks something of what a path leads to. -/
def Asks (registry : Registry) (name : String) (asks : Option Value → Prop) : Prop :=
  ∃ o holds, registry.find? (.str name) = some o ∧ o.test = .ofProperty holds ∧
    ∀ found, holds (criterion found) = true ↔ asks found

theorem find?_presences (now : DateTime) {o : Operator} {i : Nat}
    (h : Operator.presences[i]? = some o) (hname : o.name = name) :
    (Registry.builtIn now).find? (.str name) = some o :=
  hname ▸ Registry.find?_builtIn (Operator.mem_builtIns_of_presences now (List.mem_of_getElem? h))

/-- A check stands before its denial. -/
theorem asks_of_presences (now : DateTime) (i : Nat) {denial : String}
    {types types' : List FieldType} {holds : Value → Bool} {asks : Option Value → Prop}
    (hname : Operator.presences[i]? = some ⟨name, .existence, types, .ofProperty holds⟩)
    (hdenial : Operator.presences[i + 1]? =
      some ⟨denial, .existence, types', (Test.ofProperty holds).inverse⟩)
    (hasks : ∀ found, holds (criterion found) = true ↔ asks found) :
    Asks (.builtIn now) name asks ∧ Asks (.builtIn now) denial fun found => ¬ asks found := by
  refine ⟨⟨_, holds, find?_presences now hname rfl, rfl, hasks⟩,
    ⟨_, fun c => !holds c, find?_presences now hdenial rfl, rfl, fun found => ?_⟩⟩
  rw [Bool.not_eq_true', ← Bool.not_eq_true, hasks found]

/-- **Each check asks what it is listed with, and its denial the opposite.** -/
theorem asks_of_mem_checks (now : DateTime) : ∀ p ∈ checks,
    Asks (.builtIn now) p.1 p.2.2 ∧ Asks (.builtIn now) p.2.1 fun found => ¬ p.2.2 found := by
  have hexists : ∀ found, (!(criterion found).isMissing) = true ↔ ¬ IsMissing found := by
    intro found
    rw [Bool.not_eq_true', ← Bool.not_eq_true, isMissing_iff]
  simp only [checks, List.forall_mem_cons, List.not_mem_nil, false_implies, implies_true, and_true]
  exact ⟨asks_of_presences now 0 rfl rfl hexists,
    asks_of_presences now 2 rfl rfl fun _ => isAbsent_iff,
    asks_of_presences now 4 rfl rfl fun _ => isEmpty_iff,
    asks_of_presences now 6 rfl rfl fun _ => isBlankOrAbsent_iff⟩

end Presence

/-! ## Judging a check -/

namespace Constraint

/-- A constraint that asks something of what its field's path leads to. -/
structure FollowsPath (k : Setting) (c : Constraint) (asks : Option Value → Prop) : Prop where
  passed_iff : ∀ r, c.judge k = .ok r → ∃ found, Path.resolveValue c.field k.criteria = .ok found ∧
    (r.judgement.passed = true ↔ asks found)
  /-- Without a message it is judged once its field and its value are looked up. -/
  judged : ∀ found value, Path.resolveValue c.field k.criteria = .ok found →
    operand k.criteria c.value = .ok value → c.message.isTruthy = false → ∃ r, c.judge k = .ok r
  /-- Looking up and filling in a message are stopped by too many digits alone. -/
  stops : StopsAtDigits (c.judge k)

variable {k : Setting} {c : Constraint} {name : String} {asks : Option Value → Prop}

/-- **A check follows the path of its field.** -/
theorem followsPath_of_asks (h : Presence.Asks k.registry name asks) (hc : c.operator = .str name) :
    c.FollowsPath k asks := by
  obtain ⟨o, holds, ho, htest, hholds⟩ := h
  rw [← hc] at ho
  refine ⟨fun r hr => ?_, fun found value hfound hvalue hmessage => ?_, ?_⟩
  · cases judged_of_judge hr with
    | unknown _ hfind _ => cases ho.symm.trans hfind
    | tested hcriterion hfind _ hpassed _ =>
      obtain ⟨found, hfound, rfl⟩ := Except.map_eq_ok_iff.mp hcriterion
      obtain rfl := Option.some.inj (ho.symm.trans hfind)
      rw [htest] at hpassed
      refine ⟨found, hfound, ?_⟩
      rw [← hholds found, ← Except.ok.inj hpassed]
      rfl
  · have hcriterion : c.criterion k.criteria = .ok (Presence.criterion found) :=
      Except.map_eq_ok_iff.mpr ⟨found, hfound, rfl⟩
    have hown : c.ownMessage (Presence.criterion found) k.criteria = .ok .null := by
      rw [ownMessage, hmessage]
      rfl
    have hjudge : c.judge k = .ok ⟨⟨holds (Presence.criterion found),
        .bool (holds (Presence.criterion found)), .null⟩,
        [⟨c, Presence.criterion found, some value⟩]⟩ := by
      simp only [judge, hcriterion, ho, hvalue, htest, Test.ofProperty, hown, bind, Except.bind]
    exact ⟨_, hjudge⟩
  · refine stopsAtDigits_judge fun o' criterion value ho' _ _ => ?_
    obtain rfl := Option.some.inj (ho.symm.trans ho')
    rw [htest]
    exact ⟨_, rfl⟩

/-- **Checks for presence follow the path.**  `exists` passes unless the field's path leads nowhere
or to the text that stands for a missing field, `null-or-undefined` where it leads there or to null,
`empty` and `null-or-white-space` where it leads there or to what is empty or white space; and each
denial passes where the check does not. -/
theorem judge_presence (now : DateTime) (criteria : Value) (c : Constraint) {name denial : String}
    {asks : Option Value → Prop} (h : (name, denial, asks) ∈ Presence.checks) :
    (c.operator = .str name → c.FollowsPath ⟨.builtIn now, criteria⟩ asks) ∧
    (c.operator = .str denial →
      c.FollowsPath ⟨.builtIn now, criteria⟩ fun found => ¬ asks found) := by
  obtain ⟨hname, hdenial⟩ := Presence.asks_of_mem_checks now _ h
  exact ⟨followsPath_of_asks hname, followsPath_of_asks hdenial⟩

/-- A field that holds null is present. -/
theorem judge_presence_of_null :
    let c : Constraint := ⟨.str "a.b", .str "exists", none, .null⟩
    let criteria := Value.ofFields [("a", .ofFields [("b", .null)])]
    (("exists", "not-exists", fun found => ¬ Presence.IsMissing found) ∈ Presence.checks ∧
      c.operator = .str "exists") ∧
    ∃ r, c.judge ⟨.builtIn default, criteria⟩ = .ok r ∧ r.judgement.passed = true := by
  intro c criteria
  have hmem : ("exists", "not-exists", fun found => ¬ Presence.IsMissing found) ∈
    Presence.checks := .head _
  have hfollows := (judge_presence default criteria c hmem).1 rfl
  have hfound : Path.resolveValue c.field criteria = .ok (some .null) := by rfl
  obtain ⟨r, hr⟩ := hfollows.judged _ .null hfound rfl rfl
  obtain ⟨found, hfound', hpassed⟩ := hfollows.passed_iff r hr
  obtain rfl := Except.ok.inj (hfound.symm.trans hfound')
  exact ⟨⟨hmem, rfl⟩, r, hr, hpassed.mpr (by simp [Presence.IsMissing])⟩

/-- A field that holds the text of a missing one does not exist, though its path leads to it. -/
theorem exists_misses_text :
    let c : Constraint := ⟨.str "a", .str "exists", none, .null⟩
    let criteria := Value.ofFields [("a", .str "undefined")]
    Path.resolveValue c.field criteria = .ok (some (.str "undefined")) ∧
    ∃ r, c.judge ⟨.builtIn default, criteria⟩ = .ok r ∧ r.judgement.passed = false := by
  intro c criteria
  have hfound : Path.resolveValue c.field criteria = .ok (some (.str "undefined")) := by rfl
  have hasks := (Presence.asks_of_mem_checks default _ (.head _)).1
  have hfollows : c.FollowsPath ⟨.builtIn default, criteria⟩ _ := followsPath_of_asks hasks rfl
  obtain ⟨r, hr⟩ := hfollows.judged _ .null hfound rfl rfl
  obtain ⟨found, hfound', hpassed⟩ := hfollows.passed_iff r hr
  obtain rfl := Except.ok.inj (hfound.symm.trans hfound')
  refine ⟨hfound, r, hr, Bool.eq_false_iff.mpr fun htrue => ?_⟩
  exact hpassed.mp htrue (.inr rfl)

end Constraint

end Verdict
