import Verdict.Proofs.Introspection.Effective
import Verdict.Proofs.Introspection.Explored
import Verdict.Rule.Measure

/-!
# Proofs/Introspection/Complexity — each node of a rule is counted once

    roots  ──by outcome──▸  groups  ──notes──▸  findings
      └───────────── counts of the rule ───────────┘

Exploring goes from outcome to outcome, and under each condition through its constraints first.
Each note counts one (`Exploration.Noted.tally`), and the notes of all groups are those of the rule
in some order, so the complexity that introspection reports is that of the rule
(`RuleSource.introspect_complexity`).
-/

namespace Verdict

/-! ## What notes add up to -/

namespace Findings

/-- The names of the fields that are noted. -/
def namesOf (cs : List Constraint) : List String := cs.filterMap fun c => c.field.text?

/-- What some notes add to findings: one for each condition and each constraint, the depth of the
deepest condition, and the fields that are new. -/
structure Tally (notes : List Note) (f f' : Findings) : Prop where
  conditions : f'.conditions = f.conditions + (notes.filterMap Note.depth?).length
  constraints : f'.constraints = f.constraints + (notes.filterMap Note.constraint?).length
  maxDepth : f'.maxDepth =
    (notes.filterMap Note.depth?).foldl (fun deepest depth => max deepest (depth + 1)) f.maxDepth
  fields : f'.fields = (namesOf (notes.filterMap Note.constraint?)).foldl appendOnce f.fields

/-- A warning counts nothing. -/
theorem Tally.warn {notes : List Note} {f f' : Findings} (h : Tally notes f f')
    (message : String) : Tally notes f (f'.warn message) :=
  ⟨h.conditions, h.constraints, h.maxDepth, h.fields⟩

theorem tally_recordConstraint {c : Constraint} {name : String} (hname : c.field = .str name)
    (f : Findings) (o : Option Operator) :
    Tally [.constraint c] f (f.recordConstraint name o) := by
  have hnames : namesOf [c] = [name] := by
    rw [namesOf, List.filterMap_cons, hname]
    rfl
  cases o <;> exact ⟨rfl, rfl, rfl, by rw [List.filterMap_cons]; exact hnames ▸ rfl⟩

end Findings

namespace Exploration

variable {r : Registry} {f f' : Findings}

/-- Finding the operator in force counts the constraint. -/
theorem tally_effective {c : Constraint} {name : String} (hname : c.field = .str name)
    {negated : Bool} {operator : Value} (h : effective r negated c f = .ok (operator, f')) :
    Findings.Tally [.constraint c] f f' := by
  obtain ⟨field, shown, hfield, _, rfl⟩ := effective_eq_ok h
  obtain rfl : name = field := by rw [hname] at hfield; exact Except.ok.inj hfield
  have hrecorded := Findings.tally_recordConstraint hname f (r.find? c.operator)
  cases c.warning? r negated name shown with
  | none => exact hrecorded
  | some w => exact hrecorded.warn w

/-- **Notes add up**: each condition and each constraint on a text counts once. -/
theorem Noted.tally {notes : List Note} (h : Noted r notes f f')
    (hnamed : ∀ c, .constraint c ∈ notes → ∃ name, c.field = .str name) :
    Findings.Tally notes f f' := by
  induction h with
  | nil => exact ⟨rfl, rfl, rfl, rfl⟩
  | condition _ ih =>
    obtain ⟨hconditions, hconstraints, hmaxDepth, hfields⟩ :=
      ih fun c hc => hnamed c (List.mem_cons_of_mem _ hc)
    refine ⟨hconditions.trans ?_, hconstraints, hmaxDepth, hfields⟩
    exact Nat.succ_add_eq_add_succ ..
  | @constraint c rest f f₁ f' negated operator heffective _ ih =>
    obtain ⟨name, hname⟩ := hnamed c (List.mem_cons_self ..)
    have hone := tally_effective hname heffective
    obtain ⟨hconditions, hconstraints, hmaxDepth, hfields⟩ :=
      ih fun c hc => hnamed c (List.mem_cons_of_mem _ hc)
    refine ⟨?_, ?_, ?_, ?_⟩
    · rw [hconditions, hone.conditions]
      rfl
    · rw [hconstraints, hone.constraints]
      exact Nat.succ_add_eq_add_succ ..
    · rw [hmaxDepth, hone.maxDepth]
      rfl
    · have hnames : Findings.namesOf ((Note.constraint c :: rest).filterMap Note.constraint?) =
          Findings.namesOf ([.constraint c].filterMap Note.constraint?) ++
            Findings.namesOf (rest.filterMap Note.constraint?) := List.filterMap_append (l := [c])
      rw [hfields, hone.fields, hnames, List.foldl_append]

end Exploration

/-! ## The conditions that are noted -/

namespace Node

/-- The conditions under a condition are noted behind it. -/
theorem depths_notes_condition (depth : Nat) (b : Branch) (nodes : List Node)
    (outcome : Option Outcome) : (notes depth (.condition b nodes outcome)).filterMap Note.depth? =
      depth :: (notesOf (depth + 1) nodes).filterMap Note.depth? := by
  rw [notes, List.cons_append, List.filterMap_cons, List.filterMap_append,
    Note.filterMap_depth?_constraints]
  rfl

mutual

theorem length_depths_notes (depth : Nat) :
    ∀ n : Node, ((n.notes depth).filterMap Note.depth?).length = n.conditionCount
  | .condition b nodes outcome => by
    rw [depths_notes_condition, List.length_cons, length_depths_notesOf, conditionCount]
  | .constraint _ => by rw [notes, conditionCount]; rfl
  | .invalid _ => by rw [notes, conditionCount]; rfl

/-- Each condition is noted once. -/
theorem length_depths_notesOf (depth : Nat) :
    ∀ nodes : List Node, ((notesOf depth nodes).filterMap Note.depth?).length = conditionCounts nodes
  | [] => by rw [notesOf, conditionCounts]; rfl
  | n :: rest => by
    rw [notesOf, List.filterMap_append, List.length_append, length_depths_notes,
      length_depths_notesOf, conditionCounts]

end

mutual

theorem deepest_notes {depth deepest : Nat} (h : depth ≤ deepest) : ∀ n : Node,
    ((n.notes depth).filterMap Note.depth?).foldl (fun deepest depth => max deepest (depth + 1))
      deepest = max deepest (depth + n.height)
  | .condition b nodes outcome => by
    rw [depths_notes_condition, List.foldl_cons, deepest_notesOf (Nat.le_max_right ..), height]
    omega
  | .constraint _ => by
    rw [notes, height, Nat.add_zero, Nat.max_eq_left h]
    rfl
  | .invalid _ => by
    rw [notes, height, Nat.add_zero, Nat.max_eq_left h]
    rfl

/-- The deepest condition that is noted is as deep as the nodes are high. -/
theorem deepest_notesOf {depth deepest : Nat} (h : depth ≤ deepest) : ∀ nodes : List Node,
    ((notesOf depth nodes).filterMap Note.depth?).foldl
      (fun deepest depth => max deepest (depth + 1)) deepest = max deepest (depth + heights nodes)
  | [] => by
    rw [notesOf, heights, Nat.add_zero, Nat.max_eq_left h]
    rfl
  | n :: rest => by
    rw [notesOf, List.filterMap_append, List.foldl_append, deepest_notes h,
      deepest_notesOf (Nat.le_trans h (Nat.le_max_left ..)), heights]
    omega

end

/-! ## Roots in any order -/

theorem conditionCounts_perm {nodes nodes' : List Node} (h : nodes.Perm nodes') :
    conditionCounts nodes = conditionCounts nodes' := by
  induction h with
  | nil => rfl
  | cons n _ ih => rw [conditionCounts, conditionCounts, ih]
  | swap n m rest => simp only [conditionCounts]; omega
  | trans _ _ ih ih' => exact ih.trans ih'

theorem heights_perm {nodes nodes' : List Node} (h : nodes.Perm nodes') :
    heights nodes = heights nodes' := by
  induction h with
  | nil => rfl
  | cons n _ ih => rw [heights, heights, ih]
  | swap n m rest => simp only [heights]; omega
  | trans _ _ ih ih' => exact ih.trans ih'

end Node

/-! ## Complexity -/

namespace Rule

/-- The names of the fields of a rule, each once. -/
def fieldNames (rule : Rule) : List String := (Findings.namesOf rule.constraints).eraseDups

/-- Depth, counts and their sum, as they are read off a rule. -/
def complexity (rule : Rule) : Value :=
  let maxDepth := Node.heights rule.conditions
  let conditions := Node.conditionCounts rule.conditions
  let constraints := rule.constraints.length
  .ofFields [
    ("maxDepth", .int maxDepth),
    ("totalConditions", .int conditions),
    ("totalConstraints", .int constraints),
    ("uniqueFields", .int rule.fieldNames.length),
    ("score", .int (conditions + constraints + maxDepth : Nat))]

/-- **The notes of all outcomes count each node of a granular rule once.** -/
theorem complexity_of_tally {rule : Rule} (hgranular : rule.isGranular = true) {f : Findings}
    (h : Findings.Tally (Node.notesOf 0 ((Introspection.outcomes rule.conditions).flatMap
      (Introspection.rootsOf rule.conditions))) .empty f) : f.complexity = rule.complexity := by
  have houtcome := List.all_eq_true.mp hgranular
  have hgrouped := Introspection.grouped_perm houtcome
  have hnoted := Introspection.constraints_noted houtcome
  obtain ⟨hconditions, hconstraints, hmaxDepth, hfields⟩ := h
  rw [Node.length_depths_notesOf, Node.conditionCounts_perm hgrouped] at hconditions
  rw [hnoted.length_eq] at hconstraints
  rw [Node.deepest_notesOf (Nat.zero_le _), Node.heights_perm hgrouped] at hmaxDepth
  have hnames : f.fields.length = rule.fieldNames.length := by
    rw [hfields]
    refine (congrArg List.length (foldl_append_new_nil _)).trans ?_
    exact (eraseDups_perm (hnoted.filterMap _)).length_eq
  simp only [Findings.empty, Nat.zero_add, Nat.zero_max] at hconditions hconstraints hmaxDepth
  rw [Findings.complexity, complexity, hconditions, hconstraints, hmaxDepth, hnames]
  rfl

end Rule

/-! ## The report -/

/-- A list is gone through where each item has a result. -/
theorem exists_mapM_eq_ok {α β : Type} {g : α → Except Fault β} : ∀ {l : List α},
    (∀ x ∈ l, ∃ y, g x = .ok y) → ∃ ys, l.mapM g = .ok ys
  | [], _ => ⟨[], rfl⟩
  | x :: rest, h => by
    obtain ⟨hx, hrest⟩ := List.forall_mem_cons.mp h
    obtain ⟨y, hy⟩ := hx
    obtain ⟨ys, hys⟩ := exists_mapM_eq_ok hrest
    exact ⟨y :: ys, by rw [List.mapM_cons, hy, hys]; rfl⟩

/-- One result after another. -/
theorem exists_bind_eq_ok {α β : Type} {x : Except Fault α} {g : α → Except Fault β}
    (hx : ∃ a, x = .ok a) (hg : ∀ a, ∃ b, g a = .ok b) : ∃ b, x >>= g = .ok b := by
  obtain ⟨a, rfl⟩ := hx
  exact hg a

/-- An alternative on texts has a document. -/
theorem Alternative.exists_toValue {a : Alternative} (ha : a.IsNamed) :
    ∃ v, a.toValue = .ok v := by
  unfold toValue
  refine exists_bind_eq_ok (exists_mapM_eq_ok fun e he => ?_) fun fields => ⟨_, rfl⟩
  obtain ⟨field, v⟩ := e
  obtain ⟨name, rfl⟩ := ha _ he
  exact ⟨_, rfl⟩

/-- A range of alternatives on texts has a document. -/
theorem CriteriaRange.exists_toValue {range : CriteriaRange}
    (h : ∀ a ∈ range.alternatives, a.IsNamed) : ∃ v, range.toValue = .ok v :=
  exists_bind_eq_ok (exists_mapM_eq_ok fun a ha => Alternative.exists_toValue (h a ha))
    fun _ => ⟨_, rfl⟩

/-- **What introspection finds is reported**, where its alternatives are on texts: metadata and
complexity where they are wanted, warnings where there are some. -/
theorem Introspection.exists_report {i : Introspection}
    (h : ∀ range ∈ i.ranges, ∀ a ∈ range.alternatives, a.IsNamed) (metadata complexity : Bool) :
    ∃ v, i.toValue metadata complexity = .ok v ∧
      v.get? "metadata" = (if metadata then some i.findings.metadata else none) ∧
      v.get? "complexity" = (if complexity then some i.findings.complexity else none) ∧
      v.get? "warnings" = (if i.findings.warnings.isEmpty then none
        else some (Findings.texts i.findings.warnings)) := by
  obtain ⟨ranges, hranges⟩ := exists_mapM_eq_ok fun range hrange =>
    CriteriaRange.exists_toValue (h range hrange)
  refine ⟨_, Except.bind_eq_ok_iff.mpr ⟨ranges, hranges, rfl⟩, ?_⟩
  have hdefault (key : String) (hkey : "default" ≠ key) :
      Entries.find? key (Outcome.toField "default" i.default) = none := by
    cases i.default with
    | none => rfl
    | some o => exact if_neg hkey
  simp only [Value.ofFields, Value.get?, Entries.find?_append, hdefault "metadata" (by decide),
    hdefault "complexity" (by decide), hdefault "warnings" (by decide)]
  cases metadata <;> cases complexity <;> cases i.findings.warnings.isEmpty <;>
    exact ⟨rfl, rfl, rfl⟩

theorem Introspection.exists_toValue {i : Introspection}
    (h : ∀ range ∈ i.ranges, ∀ a ∈ range.alternatives, a.IsNamed) (metadata : Bool) :
    ∃ v, i.toValue metadata true = .ok v ∧ v.get? "complexity" = some i.findings.complexity := by
  obtain ⟨v, hv, _, hcomplexity, _⟩ := exists_report h metadata true
  exact ⟨v, hv, hcomplexity⟩

namespace RuleSource

variable {r : Registry} {s : RuleSource} {rule : Rule}

/-- **Complexity describes the whole rule**: a granular rule of constraints on texts is introspected
and its own complexity reported, whatever the outcomes of its roots — or introspection stops, and
then some operator is not readable. -/
theorem introspect_complexity (hread : s.rule? = some rule) (hgranular : rule.isGranular = true)
    (htexts : ∀ c ∈ rule.constraints, ∃ name, c.field = .str name) :
    (∃ i, s.introspect r = .ok i ∧ ∀ metadata, ∃ v, i.toValue metadata true = .ok v ∧
      v.get? "complexity" = some rule.complexity) ∨
    (∃ f, s.introspect r = .error (.fault f)) ∧ ∃ c ∈ rule.constraints, ¬ c.IsReadable := by
  refine (introspect_explored hread hgranular fun c hc =>
    Constraint.follows_knownLinks r (htexts c hc)).imp_left ?_
  rintro ⟨i, hi, hranges, hnoted⟩
  refine ⟨i, hi, fun metadata => ?_⟩
  have hnotes := Introspection.constraints_noted (List.all_eq_true.mp hgranular)
  have htally := hnoted.tally fun c hc =>
    htexts c (hnotes.mem_iff.mp (List.mem_filterMap.mpr ⟨_, hc, rfl⟩))
  rw [← Rule.complexity_of_tally hgranular htally]
  refine Introspection.exists_toValue (fun range hrange => ?_) metadata
  exact Introspection.isNamed_of_mem_grown htexts (hranges ▸ hrange)

/-- Two roots of one outcome with another between them, an operator that is not registered and a
field that is used twice. -/
theorem introspect_complexity_of_groups :
    let test (field operator : String) : Node :=
      .constraint ⟨.str field, .str operator, some (.int 1), .null⟩
    let rule : Rule := ⟨[
      .condition .and [test "a" "equals", .condition .or [test "b" "is"] none]
        (some ⟨.shared 0, .str "first", .null⟩),
      .condition .or [test "a" "equals"] (some ⟨.place [1], .str "second", .null⟩),
      .condition .none [] (some ⟨.shared 0, .str "first", .null⟩)], none⟩
    (rule.isGranular = true ∧ ∀ c ∈ rule.constraints, ∃ name, c.field = .str name) ∧
    ∃ i, (RuleSource.rule rule).introspect (.builtIn DateTime.epoch) = .ok i ∧
      ∀ metadata, ∃ v, i.toValue metadata true = .ok v ∧
        v.get? "complexity" = some (.ofFields [("maxDepth", .int 2), ("totalConditions", .int 4),
          ("totalConstraints", .int 3), ("uniqueFields", .int 2), ("score", .int 9)]) := by
  intro test rule
  have hconstraints : ∀ c ∈ rule.constraints, (∃ name, c.field = .str name) ∧ c.IsReadable :=
    List.forall_mem_cons.mpr ⟨⟨⟨_, rfl⟩, rfl, _, rfl⟩, List.forall_mem_cons.mpr
      ⟨⟨⟨_, rfl⟩, rfl, _, rfl⟩, List.forall_mem_singleton.mpr ⟨⟨_, rfl⟩, rfl, _, rfl⟩⟩⟩
  have htexts : ∀ c ∈ rule.constraints, ∃ name, c.field = .str name := fun c hc =>
    (hconstraints c hc).1
  have hgranular : rule.isGranular = true := rfl
  refine ⟨⟨hgranular, htexts⟩, ?_⟩
  exact (introspect_complexity (s := .rule rule) rfl hgranular htexts).resolve_right
    fun ⟨_, c, hc, hstop⟩ => hstop (hconstraints c hc).2

/-- An operator that is a list: introspection stops where it looks whether the value goes alone. -/
theorem introspect_stops_at_operator :
    let rule : Rule := ⟨[.condition .and
      [.constraint ⟨.str "a", .ofItems [], some (.int 1), .null⟩]
        (some ⟨.place [0], .int 1, .null⟩)], none⟩
    (rule.isGranular = true ∧ ∀ c ∈ rule.constraints, ∃ name, c.field = .str name) ∧
    ∀ i, (RuleSource.rule rule).introspect (.builtIn DateTime.epoch) ≠ .ok i := by
  intro rule
  have hstops : (RuleSource.rule rule).introspect (.builtIn DateTime.epoch) =
      .error (.fault .wrongKind) := rfl
  refine ⟨⟨rfl, List.forall_mem_singleton.mpr ⟨_, rfl⟩⟩, fun i hi => ?_⟩
  rw [hstops] at hi
  cases hi

end RuleSource

end Verdict
