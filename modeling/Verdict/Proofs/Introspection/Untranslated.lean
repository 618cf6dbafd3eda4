import Verdict.Proofs.Introspection.Complexity
import Verdict.Proofs.Introspection.Faithful
import Verdict.Proofs.Introspection.Warning

/-!
# Proofs/Introspection/Untranslated — warnings speak of the constraints that are not translated

    (below a NONE?, constraint)  ──Warns──▸  message       of the rule: `Node.polaritiesOf`
             └──── explored ────▸  findings.warnings       each message once

Exploring goes through the constraints of a condition before its conditions, and from outcome to
outcome; whatever the order, the warnings afterwards are those before and those of the constraints
that were met (`Findings.Warned`).  So the warnings of a granular rule are those of its constraints
(`RuleSource.introspect_warnings`).
-/

namespace Verdict

/-! ## What constraints add -/

/-- Some constraints, each below a NONE or not, were met between two findings: their warnings were
added, each once, and they could be written. -/
structure Findings.Warned (r : Registry) (ps : List (Bool × Constraint)) (f f' : Findings) :
    Prop where
  nodup : f.warnings.Nodup → f'.warnings.Nodup
  mem_iff : ∀ w, w ∈ f'.warnings ↔ w ∈ f.warnings ∨ ∃ p ∈ ps, p.2.Warns r p.1 w
  written : ∀ p ∈ ps, ∃ field operator, p.2.field.plain = .ok field ∧
    p.2.operator.plain = .ok operator

namespace Findings.Warned

variable {r : Registry} {ps ps' : List (Bool × Constraint)} {f f₁ f' : Findings}

theorem nil : Warned r [] f f := ⟨id, fun w => by simp, nofun⟩

/-- **Constraints met one after another** warn as all of them do. -/
theorem append (h : Warned r ps f f₁) (h' : Warned r ps' f₁ f') : Warned r (ps ++ ps') f f' where
  nodup hf := h'.nodup (h.nodup hf)
  mem_iff w := by
    rw [h'.mem_iff, h.mem_iff, or_assoc]
    simp only [List.mem_append, or_and_right, exists_or]
  written p hp := (List.mem_append.mp hp).elim (h.written p) (h'.written p)

/-- The order in which constraints are met does not matter, nor how often. -/
theorem congr (h : Warned r ps f f') (hps : ∀ p, p ∈ ps ↔ p ∈ ps') : Warned r ps' f f' where
  nodup := h.nodup
  mem_iff w := by simp only [h.mem_iff, hps]
  written p hp := h.written p ((hps p).mpr hp)

end Findings.Warned

/-! ## Exploring -/

namespace Exploration

variable {r : Registry} {f f' : Findings} {e e' : Exploration}

/-- One constraint adds the warning that it gives. -/
theorem warned_effective {negated : Bool} {c : Constraint} {operator : Value}
    (h : effective r negated c f = .ok (operator, f')) :
    Findings.Warned r [(negated, c)] f f' := by
  obtain ⟨field, shown, hfield, hshown, rfl⟩ := effective_eq_ok h
  have hwarns : ∀ w, c.Warns r negated w ↔ c.warning? r negated field shown = some w := fun _ =>
    Constraint.warns_iff hfield hshown
  refine ⟨fun hf => ?_, fun w => ?_, List.forall_mem_singleton.mpr ⟨field, shown, hfield, hshown⟩⟩
  · rw [← Findings.warnings_recordConstraint f field (r.find? c.operator)] at hf
    cases c.warning? r negated field shown with
    | none => exact hf
    | some message => exact Findings.nodup_appendOnce hf message
  · simp only [List.mem_singleton, exists_eq_left, hwarns]
    rw [← Findings.warnings_recordConstraint f field (r.find? c.operator)]
    cases c.warning? r negated field shown with
    | none => simp
    | some message =>
      rw [Option.some.injEq, eq_comm (a := message)]
      exact Findings.mem_appendOnce_iff

theorem warned_collect {b : Branch} {negated : Bool} : ∀ {nodes : List Node}
    {sofar sofar' : ByField} {f : Findings}, collect r b negated nodes sofar f = .ok (sofar', f') →
      Findings.Warned r ((Node.directs nodes).map (negated, ·)) f f'
  | [], _, _, _, h => by
    cases h
    exact .nil
  | .constraint c :: rest, _, _, _, h => by
    obtain ⟨⟨operator, f₁⟩, heffective, h⟩ := Except.bind_eq_ok_iff.mp h
    obtain ⟨a, -, hrest⟩ := Except.bind_eq_ok_iff.mp h
    exact (warned_effective heffective).append (warned_collect hrest)
  | .condition .. :: rest, sofar, sofar', f, h => by
    have hrest : collect r b negated rest sofar f = .ok (sofar', f') := h
    rw [Node.directs]
    exact warned_collect hrest
  | .invalid _ :: rest, sofar, sofar', f, h => by
    have hrest : collect r b negated rest sofar f = .ok (sofar', f') := h
    rw [Node.directs]
    exact warned_collect hrest

/-- Populating a range with a condition meets the constraints directly under it. -/
theorem warned_populate {b : Branch} {parent : Option Branch} {depth : Nat} {negated : Bool}
    {nodes : List Node} (h : populate r b parent depth negated nodes e = .ok e') :
    Findings.Warned r ((Node.directs nodes).map (negated, ·)) e.findings e'.findings := by
  obtain ⟨⟨byField, f⟩, hcollect, h⟩ := Except.bind_eq_ok_iff.mp h
  obtain ⟨growth, -, h⟩ := Except.bind_eq_ok_iff.mp h
  cases h
  have hcollected := warned_collect hcollect
  exact ⟨hcollected.nodup, hcollected.mem_iff, hcollected.written⟩

mutual

/-- **Exploring a condition meets its constraints**, below a NONE where one stands above them. -/
theorem warned_explore {parent : Option Branch} {depth : Nat} {inNone : Bool} :
    ∀ {n : Node} {e e' : Exploration}, n.isCondition = true →
      explore r parent depth inNone n e = .ok e' →
      Findings.Warned r (n.polarities inNone) e.findings e'.findings
  | .condition b nodes outcome, _, _, _, h => by
    rw [explore] at h
    rw [Node.polarities]
    obtain ⟨e₁, hpopulate, hnodes⟩ := Except.bind_eq_ok_iff.mp h
    refine ((warned_populate hpopulate).append (warned_exploreNodes hnodes)).congr fun p => ?_
    exact Node.mem_polaritiesOf_split _
  | .constraint _, _, _, hcondition, _ => nomatch hcondition
  | .invalid _, _, _, hcondition, _ => nomatch hcondition

theorem warned_exploreNodes {parent : Branch} {depth : Nat} {inNone : Bool} :
    ∀ {nodes : List Node} {e e' : Exploration},
      exploreNodes r parent depth inNone nodes e = .ok e' →
        Findings.Warned r (Node.polaritiesOf inNone (Node.nested nodes)) e.findings e'.findings
  | [], _, _, h => by
    rw [exploreNodes] at h
    cases h
    exact .nil
  | .condition b nodes outcome :: rest, _, _, h => by
    rw [exploreNodes] at h
    obtain ⟨e₁, hcondition, hrest⟩ := Except.bind_eq_ok_iff.mp h
    rw [Node.nested_condition_cons, Node.polaritiesOf]
    exact (warned_explore rfl hcondition).append (warned_exploreNodes hrest)
  | .constraint c :: rest, e, e', h => by
    rw [exploreNodes, explore] at h
    have hrest : exploreNodes r parent depth inNone rest e = .ok e' := h
    rw [Node.nested_constraint_cons]
    exact warned_exploreNodes hrest
  | .invalid raw :: rest, e, e', h => by
    rw [exploreNodes, explore] at h
    have hrest : exploreNodes r parent depth inNone rest e = .ok e' := h
    rw [Node.nested_invalid_cons]
    exact warned_exploreNodes hrest

end

theorem warned_exploreRoots : ∀ {roots : List Node} {e : Exploration},
    (∀ n ∈ roots, n.isCondition = true) → exploreRoots r roots e = .ok e' →
      Findings.Warned r (Node.polaritiesOf false roots) e.findings e'.findings
  | [], _, _, h => by
    cases h
    exact .nil
  | n :: rest, _, hroots, h => by
    obtain ⟨hn, hrest⟩ := List.forall_mem_cons.mp hroots
    obtain ⟨e₁, hroot, h⟩ := Except.bind_eq_ok_iff.mp h
    rw [Node.polaritiesOf]
    exact (warned_explore hn hroot).append (warned_exploreRoots hrest h)

end Exploration

namespace Introspection

variable {r : Registry} {roots : List Node} {f' : Findings}

theorem warned_rangesOf (hroots : ∀ n ∈ roots, n.isCondition = true) :
    ∀ {os : List Outcome} {steps : List Step} {f : Findings} {ranges : List CriteriaRange},
      rangesOf r roots os steps f = .ok (ranges, f') →
        Findings.Warned r (Node.polaritiesOf false (os.flatMap (rootsOf roots))) f f'
  | [], _, _, _, h => by
    cases h
    exact .nil
  | o :: rest, _, _, _, h => by
    obtain ⟨e, hroot, h⟩ := Except.bind_eq_ok_iff.mp h
    obtain ⟨⟨later, f₁⟩, hlater, h⟩ := Except.bind_eq_ok_iff.mp h
    cases h
    have hconditions : ∀ n ∈ rootsOf roots o, n.isCondition = true := fun n hn =>
      hroots n (mem_of_mem_rootsOf hn)
    refine ((Exploration.warned_exploreRoots hconditions hroot).append
      (warned_rangesOf hroots hlater)).congr fun p => ?_
    simp only [List.flatMap_cons, List.mem_append, Node.mem_polaritiesOf, or_and_right, exists_or]

/-- **Introspecting a granular rule meets its constraints**, whatever the roots' outcomes. -/
theorem warned_ofRule {rule : Rule} {i : Introspection} (hgranular : rule.isGranular = true)
    (h : ofRule r rule = .ok i) :
    Findings.Warned r (Node.polaritiesOf false rule.conditions) .empty i.findings := by
  obtain ⟨⟨ranges, f⟩, hranges, h⟩ := Except.bind_eq_ok_iff.mp h
  cases h
  have houtcome := List.all_eq_true.mp hgranular
  have hconditions : ∀ n ∈ rule.conditions, n.isCondition = true := fun n hn =>
    Node.isCondition_of_outcome? (houtcome n hn)
  refine (warned_rangesOf hconditions hranges).congr fun p => ?_
  simp only [Node.mem_polaritiesOf, (grouped_perm houtcome).mem_iff]

/-- The document of an introspection reports warnings, where there are some. -/
def ReportsWarnings (i : Introspection) (warnings : List String) : Prop :=
  ∀ metadata complexity, ∃ v, i.toValue metadata complexity = .ok v ∧
    v.get? "warnings" = if warnings.isEmpty then none else some (Findings.texts warnings)

/-- The warnings that were given are reported, where alternatives are on texts. -/
theorem reportsWarnings {i : Introspection}
    (h : ∀ range ∈ i.ranges, ∀ a ∈ range.alternatives, a.IsNamed) :
    i.ReportsWarnings i.findings.warnings := by
  intro metadata complexity
  obtain ⟨v, hv, -, -, hwarnings⟩ := exists_report h metadata complexity
  exact ⟨v, hv, hwarnings⟩

end Introspection

namespace RuleSource

variable {r : Registry} {s : RuleSource} {rule : Rule}

/-- **Warnings are those of the constraints that are not translated.**  Introspecting a granular
rule of constraints on texts reports, each once, the messages of its constraints with an unknown
operator and of those below a NONE, at any distance, whose operator has no inverse; none exactly if
there are no such constraints — or it stops, and then some operator is not readable. -/
theorem introspect_warnings (hread : s.rule? = some rule) (hgranular : rule.isGranular = true)
    (htexts : ∀ c ∈ rule.constraints, ∃ name, c.field = .str name) :
    (∃ i warnings, s.introspect r = .ok i ∧ i.ReportsWarnings warnings ∧ warnings.Nodup ∧
      (∀ w, w ∈ warnings ↔
        ∃ p ∈ Node.polaritiesOf false rule.conditions, p.2.Warns r p.1 w) ∧
      (warnings = [] ↔ ∀ p ∈ Node.polaritiesOf false rule.conditions, r.has p.2.operator = true ∧
        (p.1 = true → (r.negation? p.2.operator).isSome = true))) ∨
    (∃ f, s.introspect r = .error (.fault f)) ∧ ∃ c ∈ rule.constraints, ¬ c.IsReadable := by
  refine (introspect_explored hread hgranular fun c hc =>
    Constraint.follows_knownLinks r (htexts c hc)).imp_left ?_
  rintro ⟨i, hi, hranges, -⟩
  have hrule : Introspection.ofRule r rule = .ok i := by
    rw [introspect_of_isGranular hread hgranular] at hi
    cases h : Introspection.ofRule r rule with
    | ok j => rw [h] at hi; cases hi; rfl
    | error f => rw [h] at hi; cases hi
  obtain ⟨hnodup, hmem, hwritten⟩ := Introspection.warned_ofRule hgranular hrule
  have hwarnings : ∀ w, w ∈ i.findings.warnings ↔
      ∃ p ∈ Node.polaritiesOf false rule.conditions, p.2.Warns r p.1 w := fun w =>
    (hmem w).trans (or_iff_right List.not_mem_nil)
  have hreports : i.ReportsWarnings i.findings.warnings :=
    Introspection.reportsWarnings fun range hrange =>
      Introspection.isNamed_of_mem_grown htexts (hranges ▸ hrange)
  refine ⟨i, i.findings.warnings, hi, hreports, hnodup List.nodup_nil, hwarnings, ?_⟩
  -- A constraint that gives no message has an operator that is known and, below a NONE, linked.
  have hsilent : ∀ p ∈ Node.polaritiesOf false rule.conditions, (∀ w, ¬ p.2.Warns r p.1 w) ↔
      r.has p.2.operator = true ∧
        (p.1 = true → (r.negation? p.2.operator).isSome = true) := fun p hp => by
    obtain ⟨field, operator, hfield, hoperator⟩ := hwritten p hp
    exact Constraint.silent_iff hfield hoperator
  calc i.findings.warnings = []
      ↔ ∀ w, w ∉ i.findings.warnings := List.eq_nil_iff_forall_not_mem
    _ ↔ ∀ p ∈ Node.polaritiesOf false rule.conditions, ∀ w, ¬ p.2.Warns r p.1 w := by
      simp only [hwarnings, not_exists, not_and]
      exact forall_comm.trans (forall_congr' fun _ => forall_comm)
    _ ↔ _ := forall₂_congr hsilent

/-- An operator without an inverse two levels below a NONE and elsewhere, and an operator that is
not registered in two groups of roots. -/
theorem introspect_warnings_of_groups :
    let r := Registry.builtIn DateTime.epoch
    let test (field operator : String) : Constraint :=
      ⟨.str field, .str operator, some (.int 1), .null⟩
    let node (field operator : String) : Node := .constraint (test field operator)
    let rule : Rule := ⟨[
      .condition .none [.condition .or [node "b" "starts-with", node "c" "equals"] none]
        (some ⟨.shared 0, .str "first", .null⟩),
      .condition .and [node "a" "is"] (some ⟨.place [1], .str "second", .null⟩),
      .condition .or [node "a" "is", node "b" "starts-with"]
        (some ⟨.shared 0, .str "first", .null⟩)], none⟩
    (rule.isGranular = true ∧ ∀ c ∈ rule.constraints, ∃ name, c.field = .str name) ∧
    ∃ i warnings, (RuleSource.rule rule).introspect r = .ok i ∧ i.ReportsWarnings warnings ∧
      warnings.Nodup ∧ ∀ w, w ∈ warnings ↔ w = "Unknown operator 'is' on field 'a'" ∨
        w = "No negation registered for operator 'starts-with' on field 'b'; kept as is" := by
  intro r test node rule
  have hreads (field operator : String) : (∃ name, (test field operator).field = .str name) ∧
      (test field operator).IsReadable := ⟨⟨_, rfl⟩, rfl, _, rfl⟩
  have hconstraints : ∀ c ∈ rule.constraints, (∃ name, c.field = .str name) ∧ c.IsReadable := by
    have hlist : rule.constraints = [test "b" "starts-with", test "c" "equals", test "a" "is",
      test "a" "is", test "b" "starts-with"] := rfl
    simp only [hlist, List.forall_mem_cons, hreads, List.not_mem_nil, false_implies, implies_true,
      and_self]
  have htexts : ∀ c ∈ rule.constraints, ∃ name, c.field = .str name := fun c hc =>
    (hconstraints c hc).1
  obtain ⟨i, warnings, hi, hreports, hnodup, hmem, -⟩ :=
    (introspect_warnings (r := r) (s := .rule rule) rfl rfl htexts).resolve_right
      fun ⟨_, c, hc, hstop⟩ => hstop (hconstraints c hc).2
  refine ⟨⟨rfl, htexts⟩, i, warnings, hi, hreports, hnodup, fun w => (hmem w).trans ?_⟩
  have hpolarities : Node.polaritiesOf false rule.conditions =
      [(true, test "b" "starts-with"), (true, test "c" "equals"), (false, test "a" "is"),
        (false, test "a" "is"), (false, test "b" "starts-with")] := rfl
  have hwarns (inNone : Bool) (field operator : String) : (test field operator).Warns r inNone w ↔
      (test field operator).warning? r inNone field operator = some w :=
    Constraint.warns_iff rfl rfl
  obtain ⟨hinverted, hplain, hunknown, huninverted⟩ :
      (test "c" "equals").warning? r true "c" "equals" = none ∧
      (test "b" "starts-with").warning? r false "b" "starts-with" = none ∧
      (test "a" "is").warning? r false "a" "is" = some "Unknown operator 'is' on field 'a'" ∧
      (test "b" "starts-with").warning? r true "b" "starts-with" =
        some "No negation registered for operator 'starts-with' on field 'b'; kept as is" := by
    decide
  simp [hpolarities, hwarns, hinverted, hplain, hunknown, huninverted, or_comm, eq_comm (a := w)]

/-- An operator that is an object, below a NONE: introspection stops, and nothing is reported. -/
theorem introspect_gives_no_warnings :
    let rule : Rule := ⟨[.condition .none
      [.constraint ⟨.str "a", .ofFields [], some (.int 1), .null⟩]
        (some ⟨.place [0], .int 1, .null⟩)], none⟩
    (rule.isGranular = true ∧ ∀ c ∈ rule.constraints, ∃ name, c.field = .str name) ∧
    (∃ w, ∃ p ∈ Node.polaritiesOf false rule.conditions,
      p.2.Warns (.builtIn DateTime.epoch) p.1 w) ∧
    ∀ i, (RuleSource.rule rule).introspect (.builtIn DateTime.epoch) ≠ .ok i := by
  intro rule
  have hstops : (RuleSource.rule rule).introspect (.builtIn DateTime.epoch) =
      .error (.fault .wrongKind) := rfl
  refine ⟨⟨rfl, List.forall_mem_singleton.mpr ⟨_, rfl⟩⟩, ⟨_, _, List.mem_singleton_self _,
    "a", "\x7b\x7d", rfl, rfl, rfl⟩, fun i hi => ?_⟩
  rw [hstops] at hi
  cases hi

end RuleSource

end Verdict
