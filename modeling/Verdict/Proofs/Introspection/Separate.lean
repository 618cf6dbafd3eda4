import Verdict.Proofs.Introspection.Contribution
import Verdict.Proofs.Introspection.Explored
import Verdict.Proofs.Rule.Written
import Verdict.Proofs.Validation.Exact

/-!
# Proofs/Introspection/Separate — ranges and roots on their own

    roots of o₁, o₂, …        ──introspect──▸  range₁, range₂, …
    roots of oₖ alone         ──introspect──▸  rangeₖ               (contained roots)

    n₁, n₂, … of one outcome  ──introspect──▸  alternatives of n₁, of n₂, …
    nₖ alone                  ──introspect──▸  alternatives of nₖ   (roots that stand apart)

The steps of all ranges are one list, and the alternatives of an outcome's roots are another.
Nothing marks where a range or a root begins in them, unless the root adds an alternative of its
own: a copy can go without changes that were made for another outcome
(`RuleSource.introspect_reaches_back`), and a root can change the last alternative of the root
before it (`RuleSource.introspect_joins_roots`).
-/

namespace Verdict

namespace Introspection

/-- The first range grows after the steps before all ranges. -/
theorem alternatives_of_head?_grown {r : Registry} {roots : List Node} {os : List Outcome} {steps : List Step}
    {range : CriteriaRange} (h : (grown r roots os steps).head? = some range) :
    range.alternatives =
      (Node.growAll r none 0 false (rootsOf roots range.outcome) ⟨[], steps⟩).alternatives := by
  cases os with
  | nil => cases h
  | cons o rest =>
    cases h
    rfl

end Introspection

/-! ## Outcomes on their own -/

/-- The rule with the roots of one outcome alone. -/
def Rule.restrict (rule : Rule) (o : Outcome) : Rule :=
  ⟨Introspection.rootsOf rule.conditions o, rule.default⟩

/-- The rule with one root alone. -/
def Rule.alone (rule : Rule) (root : Node) : Rule := ⟨[root], rule.default⟩

namespace Rule

variable {r : Registry} {v : Value} {rule : Rule}

theorem isGranular_restrict (rule : Rule) (o : Outcome) : (rule.restrict o).isGranular = true := by
  refine List.all_eq_true.mpr fun n hn => ?_
  have hany := (List.mem_filter.mp hn).2
  cases h : n.outcome? with
  | none => rw [h] at hany; cases hany
  | some o' => rfl

/-- **Where each root is anchored, the roots of any outcome are contained.** -/
theorem areContained_restrict (h : ∀ n ∈ rule.conditions, n.isAnchored = true) (o : Outcome) :
    Node.areContained r (rule.restrict o).conditions = true := by
  cases hroots : (rule.restrict o).conditions with
  | nil => rfl
  | cons n rest =>
    have hn : n ∈ (rule.restrict o).conditions := by rw [hroots]; exact List.mem_cons_self ..
    exact Node.areContained_of_isAnchored (h n (Introspection.mem_of_mem_rootsOf hn)) rest

/-- The rule of a valid document has a root. -/
theorem conditions_ne_nil (hvalid : Validator.validate r v = .ok none)
    (hread : Rule.ofValue? v = some rule) : rule.conditions ≠ [] := by
  have hrule : Grammar.IsRule r v := (Validator.settles_validate r v).fine_iff.mp hvalid
  cases v with
  | object mark fields =>
    cases hread
    intro hnil
    obtain ⟨c, rest, hconditions⟩ := List.exists_cons_of_ne_nil hrule.nonempty
    rw [hconditions, Node.ofItems] at hnil
    cases hnil
  | _ => cases hread

end Rule

namespace RuleSource

variable {r : Registry} {v : Value} {rule : Rule}

/-- The roots of one outcome of a valid document are introspected. -/
theorem introspect_restrict_eq (hvalid : Validator.validate r v = .ok none)
    (hread : Rule.ofValue? v = some rule) (o : Outcome) :
    ∃ i, (RuleSource.rule (rule.restrict o)).introspect r = .ok i ∧
      i.ranges = Introspection.grown r (rule.restrict o).conditions
        (Introspection.outcomes (rule.restrict o).conditions) [] := by
  refine introspect_eq_of_isSound rfl (Rule.isGranular_restrict rule o) fun n hn => ?_
  exact (Rule.isSound_of_validate hvalid hread n (Introspection.mem_of_mem_rootsOf hn)).2

/-- **The range of an outcome is that of its roots alone**: that of the first outcome is, and so are
those of contained roots, whatever the other roots are. -/
theorem introspect_restrict (hvalid : Validator.validate r v = .ok none)
    (hread : Rule.ofValue? v = some rule) (hgranular : rule.isGranular = true) :
    ∃ i, (RuleSource.document v).introspect r = .ok i ∧
      i.ranges.map CriteriaRange.outcome = Introspection.outcomes rule.conditions ∧
      ∀ range ∈ i.ranges,
        (i.ranges.head? = some range ∨
          Node.areContained r (rule.restrict range.outcome).conditions = true) →
        ∃ i', (RuleSource.rule (rule.restrict range.outcome)).introspect r = .ok i' ∧
          i'.ranges = [range] := by
  obtain ⟨i, hi, hranges⟩ := introspect_eq hvalid hread hgranular
  have houtcomes : i.ranges.map CriteriaRange.outcome = Introspection.outcomes rule.conditions := by
    rw [hranges, Introspection.map_outcome_grown]
  refine ⟨i, hi, houtcomes, fun range hrange hcontained => ?_⟩
  have halone : range.alternatives = (Node.growAll r none 0 false
      (Introspection.rootsOf rule.conditions range.outcome) ⟨[], []⟩).alternatives := by
    rcases hcontained with hfirst | hcontained
    · exact Introspection.alternatives_of_head?_grown (hranges ▸ hfirst)
    · obtain ⟨steps, halternatives⟩ := Introspection.exists_steps_of_mem_grown (hranges ▸ hrange)
      exact halternatives.trans (Node.alternatives_growAll_of_areContained hcontained steps)
  have hmem : range.outcome ∈ Introspection.outcomes rule.conditions :=
    houtcomes ▸ List.mem_map_of_mem hrange
  obtain ⟨i', hi', hranges'⟩ := introspect_restrict_eq hvalid hread range.outcome
  refine ⟨i', hi', ?_⟩
  have hrestrict : (rule.restrict range.outcome).conditions =
      Introspection.rootsOf rule.conditions range.outcome := rfl
  rw [hranges', hrestrict, Introspection.outcomes_rootsOf hmem, Introspection.grown,
    Introspection.grown, Introspection.rootsOf_rootsOf, ← halone]

/-- Two outcomes, and a fork at depth 3 that goes without what its sibling at depth 2 changed. -/
theorem introspect_restrict_nested :
    let now := DateTime.epoch
    let test (field : String) (v : Value) : Node :=
      .constraint ⟨.str field, .str "equals", some v, .null⟩
    let rule : Rule := ⟨[.condition .and [test "a" (.int 1)]
        (some ⟨.place [0], .str "first", .null⟩),
      .condition .or [test "b" (.int 2), .condition .and [test "c" (.int 3),
        .condition .or [test "d" (.int 4), .condition .and [test "e" (.int 5)] none] none] none]
        (some ⟨.place [1], .str "second", .null⟩)], none⟩
    let v := rule.toValue
    (Validator.validate (.builtIn now) v = .ok none ∧ Rule.ofValue? v = some rule ∧
      rule.isGranular = true) ∧
    ∃ i, (RuleSource.document v).introspect (.builtIn now) = .ok i ∧
      i.ranges.map CriteriaRange.outcome = Introspection.outcomes rule.conditions ∧
      ∀ range ∈ i.ranges,
        ∃ i', (RuleSource.rule (rule.restrict range.outcome)).introspect (.builtIn now) = .ok i' ∧
          i'.ranges = [range] := by
  intro now test rule v
  have hchecked : ∀ c ∈ rule.constraints,
      (Validator.checkConstraint (.builtIn now) c.toValue).isFine = true := by decide +kernel
  obtain ⟨hvalid, hread⟩ : Validator.validate (.builtIn now) v = .ok none ∧
      Rule.ofValue? v = some rule :=
    Rule.valid_toValue (List.cons_ne_nil _ _)
      (List.forall_mem_cons.mpr ⟨rfl, List.forall_mem_singleton.mpr rfl⟩) rfl rfl hchecked
  have hanchored : ∀ n ∈ rule.conditions, n.isAnchored = true :=
    List.forall_mem_cons.mpr ⟨rfl, List.forall_mem_singleton.mpr rfl⟩
  obtain ⟨i, hi, houtcomes, hranges⟩ := introspect_restrict hvalid hread rfl
  refine ⟨⟨hvalid, hread, rfl⟩, i, hi, houtcomes, fun range hrange => ?_⟩
  exact hranges range hrange (.inr (Rule.areContained_restrict hanchored range.outcome))

/-- A root whose conditions alone have constraints: the last fork goes without `a`, which a
condition at the same depth changed for the outcome before. -/
theorem introspect_reaches_back :
    let now := DateTime.epoch
    let test (field : String) (v : Value) : Node :=
      .constraint ⟨.str field, .str "equals", some v, .null⟩
    let rule : Rule := ⟨[.condition .and [.condition .or [test "a" (.int 1)] none]
        (some ⟨.place [0], .str "first", .null⟩),
      .condition .or [.condition .and [test "a" (.int 1)] none,
        .condition .or [test "b" (.int 2), .condition .and [test "c" (.int 3)] none] none]
        (some ⟨.place [1], .str "second", .null⟩)], none⟩
    let v := rule.toValue
    (Validator.validate (.builtIn now) v = .ok none ∧ Rule.ofValue? v = some rule ∧
      rule.isGranular = true) ∧
    ∃ i, (RuleSource.document v).introspect (.builtIn now) = .ok i ∧ ∃ range ∈ i.ranges,
      ∃ i', (RuleSource.rule (rule.restrict range.outcome)).introspect (.builtIn now) = .ok i' ∧
        ∃ range' ∈ i'.ranges, range'.outcome.origin = range.outcome.origin ∧
          range'.alternatives ≠ range.alternatives := by
  intro now test rule v
  have hchecked : ∀ c ∈ rule.constraints,
      (Validator.checkConstraint (.builtIn now) c.toValue).isFine = true := by decide +kernel
  obtain ⟨hvalid, hread⟩ : Validator.validate (.builtIn now) v = .ok none ∧
      Rule.ofValue? v = some rule :=
    Rule.valid_toValue (List.cons_ne_nil _ _)
      (List.forall_mem_cons.mpr ⟨rfl, List.forall_mem_singleton.mpr rfl⟩) rfl rfl hchecked
  obtain ⟨i, hi, hranges⟩ := introspect_eq hvalid hread rfl
  -- The last alternative has one requirement in the rule and two without the first root.
  have hgap : ∃ range ∈ Introspection.grown (.builtIn now) rule.conditions
        (Introspection.outcomes rule.conditions) [],
      ∃ range' ∈ Introspection.grown (.builtIn now) (rule.restrict range.outcome).conditions
        (Introspection.outcomes (rule.restrict range.outcome).conditions) [],
        range'.outcome.origin = range.outcome.origin ∧
        range'.alternatives.map List.length ≠ range.alternatives.map List.length := by
    decide
  obtain ⟨range, hrange, range', hrange', horigin, hlength⟩ := hgap
  obtain ⟨i', hi', hranges'⟩ := introspect_restrict_eq hvalid hread range.outcome
  refine ⟨⟨hvalid, hread, rfl⟩, i, hi, range, hranges ▸ hrange, i', hi', range',
    hranges' ▸ hrange', horigin, fun heq => hlength (by rw [heq])⟩

/-! ## Roots on their own -/

/-- A sound root is introspected alone. -/
theorem introspect_alone {root : Node} {o : Outcome} (hsound : root.IsSound r)
    (ho : root.outcome? = some o) (rule : Rule) :
    ∃ i, (RuleSource.rule (rule.alone root)).introspect r = .ok i ∧
      i.ranges = [⟨o, (root.grow r none 0 false ⟨[], []⟩).alternatives⟩] := by
  have hgranular : (rule.alone root).isGranular = true := by
    rw [Rule.isGranular, Rule.alone, List.all_cons, ho]
    rfl
  obtain ⟨i, hi, hranges⟩ := introspect_eq_of_isSound (s := .rule (rule.alone root)) rfl hgranular
    (List.forall_mem_singleton.mpr hsound)
  obtain ⟨houtcomes, hroots⟩ := Introspection.outcomes_of_origin ho
    (List.forall_mem_singleton.mpr (by rw [ho]; rfl))
  refine ⟨i, hi, ?_⟩
  rw [hranges, Rule.alone, houtcomes, Introspection.grown, Introspection.grown, hroots,
    Node.growAll, Node.growAll]

/-- Sound roots are introspected alone, one after another. -/
theorem exists_introspect_alone (rule : Rule) : ∀ {roots : List Node},
    (∀ n ∈ roots, n.IsSound r) → (∀ n ∈ roots, n.outcome?.isSome = true) →
      ∃ alone : List Introspection,
        (roots.map fun n => (RuleSource.rule (rule.alone n)).introspect r) = alone.map .ok ∧
        (alone.flatMap fun i => i.ranges.flatMap CriteriaRange.alternatives) =
          roots.flatMap fun n => (n.grow r none 0 false ⟨[], []⟩).alternatives
  | [], _, _ => ⟨[], rfl, rfl⟩
  | n :: rest, hsound, houtcome => by
    obtain ⟨hn, hsound⟩ := List.forall_mem_cons.mp hsound
    obtain ⟨ho, houtcome⟩ := List.forall_mem_cons.mp houtcome
    obtain ⟨o, ho⟩ := Option.isSome_iff_exists.mp ho
    obtain ⟨i, hi, hranges⟩ := introspect_alone hn ho rule
    obtain ⟨alone, halone, halternatives⟩ := exists_introspect_alone rule hsound houtcome
    refine ⟨i :: alone, by rw [List.map_cons, List.map_cons, hi, halone], ?_⟩
    rw [List.flatMap_cons, List.flatMap_cons, halternatives, hranges, List.flatMap_singleton]

/-- Roots of one outcome have one range, which they grow one after another. -/
theorem introspect_shared (hvalid : Validator.validate r v = .ok none)
    (hread : Rule.ofValue? v = some rule) {origin : Origin}
    (hshared : ∀ n ∈ rule.conditions, n.outcome?.map Outcome.origin = some origin) :
    ∃ (i : Introspection) (range : CriteriaRange) (alone : List Introspection),
      (RuleSource.document v).introspect r = .ok i ∧ i.ranges = [range] ∧
      range.alternatives = (Node.growAll r none 0 false rule.conditions ⟨[], []⟩).alternatives ∧
      (rule.conditions.map fun n => (RuleSource.rule (rule.alone n)).introspect r) =
        alone.map .ok ∧
      (alone.flatMap fun i => i.ranges.flatMap CriteriaRange.alternatives) =
        rule.conditions.flatMap fun n => (n.grow r none 0 false ⟨[], []⟩).alternatives := by
  have houtcome : ∀ n ∈ rule.conditions, n.outcome?.isSome = true := fun n hn => by
    obtain ⟨o, ho, _⟩ := Option.map_eq_some_iff.mp (hshared n hn)
    rw [ho]
    rfl
  have hsound : ∀ n ∈ rule.conditions, n.IsSound r := fun n hn =>
    (Rule.isSound_of_validate hvalid hread n hn).2
  obtain ⟨i, hi, hranges⟩ := introspect_eq hvalid hread (List.all_eq_true.mpr houtcome)
  obtain ⟨alone, halone, halternatives⟩ := exists_introspect_alone rule hsound houtcome
  obtain ⟨n, rest, hconditions⟩ :=
    List.exists_cons_of_ne_nil (Rule.conditions_ne_nil hvalid hread)
  rw [hconditions] at hranges hshared
  obtain ⟨o, ho, horigin⟩ := Option.map_eq_some_iff.mp (hshared n (List.mem_cons_self ..))
  obtain ⟨houtcomes, hroots⟩ := Introspection.outcomes_of_origin ho (horigin ▸ hshared)
  rw [houtcomes, Introspection.grown, Introspection.grown, hroots, ← hconditions] at hranges
  exact ⟨i, _, alone, hi, hranges, rfl, halone, halternatives⟩

/-- **Roots of one outcome are independent alternatives**: the alternatives of the single range are
those of each root alone, one root after another, where all roots but the first stand apart. -/
theorem introspect_alternatives (hvalid : Validator.validate r v = .ok none)
    (hread : Rule.ofValue? v = some rule) {origin : Origin}
    (hshared : ∀ n ∈ rule.conditions, n.outcome?.map Outcome.origin = some origin)
    (hapart : ∀ n ∈ rule.conditions.tail, n.isApart r = true) :
    ∃ (i : Introspection) (range : CriteriaRange) (alone : List Introspection),
      (RuleSource.document v).introspect r = .ok i ∧ i.ranges = [range] ∧
      (rule.conditions.map fun n => (RuleSource.rule (rule.alone n)).introspect r) =
        alone.map .ok ∧
      range.alternatives = alone.flatMap fun i => i.ranges.flatMap CriteriaRange.alternatives := by
  obtain ⟨i, range, alone, hi, hranges, hgrown, halone, halternatives⟩ :=
    introspect_shared hvalid hread hshared
  refine ⟨i, range, alone, hi, hranges, halone, ?_⟩
  rw [hgrown, halternatives]
  cases hconditions : rule.conditions with
  | nil =>
    rw [Node.growAll]
    rfl
  | cons n rest =>
    rw [hconditions, List.tail_cons] at hapart
    rw [Node.growAll, Node.alternatives_growAll_of_isApart hapart, List.flatMap_cons]

/-- Three roots with one result object; the second begins with the first AND below it. -/
theorem introspect_alternatives_of_branches :
    let now := DateTime.epoch
    let test (field : String) (v : Value) : Node :=
      .constraint ⟨.str field, .str "equals", some v, .null⟩
    let roots : List (Branch × List Node) := [(.and, [test "a" (.int 1)]),
      (.or, [.condition .and [test "b" (.int 2)] none, .condition .and [test "c" (.int 3)] none]),
      (.none, [test "d" (.int 4), .condition .or [test "e" (.int 5)] none])]
    let rule : Rule := ⟨roots.map fun root =>
      .condition root.1 root.2 (some ⟨.shared 0, .str "yes", .null⟩), none⟩
    let v := Rule.sharing (.object (some 0) [("value", .str "yes")]) roots
    (Validator.validate (.builtIn now) v = .ok none ∧ Rule.ofValue? v = some rule ∧
      (∀ n ∈ rule.conditions, n.outcome?.map Outcome.origin = some (.shared 0)) ∧
      ∀ n ∈ rule.conditions.tail, n.isApart (.builtIn now) = true) ∧
    ∃ (i : Introspection) (range : CriteriaRange) (alone : List Introspection),
      (RuleSource.document v).introspect (.builtIn now) = .ok i ∧ i.ranges = [range] ∧
      (rule.conditions.map fun n => (RuleSource.rule (rule.alone n)).introspect (.builtIn now)) =
        alone.map .ok ∧
      range.alternatives = alone.flatMap fun i => i.ranges.flatMap CriteriaRange.alternatives := by
  intro now test roots rule v
  have hproper : ∀ root ∈ roots, Node.areProper root.2 = true := by decide
  have hchecked : ∀ root ∈ roots, ∀ c ∈ Node.constraintsOf root.2,
      (Validator.checkConstraint (.builtIn now) c.toValue).isFine = true := by decide +kernel
  have hplaced : ∀ root ∈ roots, ∀ place, Node.placedAll place 0 root.2 = root.2 :=
    List.forall_mem_cons.mpr ⟨fun _ => rfl, List.forall_mem_cons.mpr
      ⟨fun _ => rfl, List.forall_mem_singleton.mpr fun _ => rfl⟩⟩
  obtain ⟨hvalid, hread⟩ : Validator.validate (.builtIn now) v = .ok none ∧
      Rule.ofValue? v = some rule :=
    Rule.valid_sharing (List.cons_ne_nil _ _) rfl (fun _ => rfl) hproper hplaced hchecked
  have hshared : ∀ n ∈ rule.conditions, n.outcome?.map Outcome.origin = some (.shared 0) := by
    decide
  have hapart : ∀ n ∈ rule.conditions.tail, n.isApart (.builtIn now) = true :=
    List.forall_mem_cons.mpr ⟨by decide,
      List.forall_mem_singleton.mpr (Node.isApart_of_isAnchored rfl)⟩
  exact ⟨⟨hvalid, hread, hshared, hapart⟩, introspect_alternatives hvalid hread hshared hapart⟩

/-- A root whose conditions alone have constraints: its OR is merged into the alternative of the
root before it. -/
theorem introspect_joins_roots :
    let now := DateTime.epoch
    let test (field : String) (v : Value) : Node :=
      .constraint ⟨.str field, .str "equals", some v, .null⟩
    let roots : List (Branch × List Node) := [(.and, [test "a" (.int 1)]),
      (.or, [.condition .or [test "b" (.int 2)] none])]
    let rule : Rule := ⟨roots.map fun root =>
      .condition root.1 root.2 (some ⟨.shared 0, .str "yes", .null⟩), none⟩
    let v := Rule.sharing (.object (some 0) [("value", .str "yes")]) roots
    (Validator.validate (.builtIn now) v = .ok none ∧ Rule.ofValue? v = some rule ∧
      ∀ n ∈ rule.conditions, n.outcome?.map Outcome.origin = some (.shared 0)) ∧
    ∃ (i : Introspection) (range : CriteriaRange) (alone : List Introspection),
      (RuleSource.document v).introspect (.builtIn now) = .ok i ∧ i.ranges = [range] ∧
      (rule.conditions.map fun n => (RuleSource.rule (rule.alone n)).introspect (.builtIn now)) =
        alone.map .ok ∧
      range.alternatives ≠ alone.flatMap fun i => i.ranges.flatMap CriteriaRange.alternatives := by
  intro now test roots rule v
  have hproper : ∀ root ∈ roots, Node.areProper root.2 = true := by decide
  have hchecked : ∀ root ∈ roots, ∀ c ∈ Node.constraintsOf root.2,
      (Validator.checkConstraint (.builtIn now) c.toValue).isFine = true := by decide +kernel
  have hplaced : ∀ root ∈ roots, ∀ place, Node.placedAll place 0 root.2 = root.2 :=
    List.forall_mem_cons.mpr ⟨fun _ => rfl, List.forall_mem_singleton.mpr fun _ => rfl⟩
  obtain ⟨hvalid, hread⟩ : Validator.validate (.builtIn now) v = .ok none ∧
      Rule.ofValue? v = some rule :=
    Rule.valid_sharing (List.cons_ne_nil _ _) rfl (fun _ => rfl) hproper hplaced hchecked
  have hshared : ∀ n ∈ rule.conditions, n.outcome?.map Outcome.origin = some (.shared 0) := by
    decide
  obtain ⟨i, range, alone, hi, hranges, hgrown, halone, halternatives⟩ :=
    introspect_shared hvalid hread hshared
  -- One alternative together, two alone.
  have hlength :
      (Node.growAll (.builtIn now) none 0 false rule.conditions ⟨[], []⟩).alternatives.length ≠
        (rule.conditions.flatMap fun n =>
          (n.grow (.builtIn now) none 0 false ⟨[], []⟩).alternatives).length := by decide
  refine ⟨⟨hvalid, hread, hshared⟩, i, range, alone, hi, hranges, halone, fun heq => hlength ?_⟩
  rw [← hgrown, ← halternatives, heq]

end RuleSource

end Verdict
