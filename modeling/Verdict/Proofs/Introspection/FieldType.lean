import Verdict.Proofs.Introspection.Complexity

/-!
# Proofs/Introspection/FieldType — the types that operators leave to a field

    constraints on a field     c₁   c₂   c₃   …      registered operators that do not take any type
    types of the field         T₁ ∩ T₂ ∩ T₃ ∩ …      just `any` where there is no such constraint

Types are narrowed constraint by constraint, in the order in which a rule is explored
(`Exploration.Noted.narrowsBy`).  What is left does not depend on that order, so the types that
introspection reports are read off the rule (`RuleSource.introspect_fieldTypes`).
-/

namespace Verdict

/-! ## What a rule leaves to a field -/

/-- The types that an operator narrows a field to; none where it takes any. -/
def Operator.narrowing? (o : Operator) : Option (List FieldType) :=
  if o.fieldTypes.contains .any then none else some o.fieldTypes

/-- The types that a constraint on a field narrows it to: those of its operator, if registered. -/
def Constraint.narrowing? (r : Registry) (field : String) (c : Constraint) :
    Option (List FieldType) :=
  if c.field.text? = some field then (r.find? c.operator).bind Operator.narrowing? else none

/-- The names of the types that are in each of some lists, sorted; just `any` without lists. -/
def FieldType.commonNames (narrowings : List (List FieldType)) : List String :=
  if narrowings.isEmpty then [FieldType.any.name]
  else (all.filter fun t => narrowings.all fun types => types.contains t).map name

namespace Rule

/-- What the constraints of a rule narrow a field to, one after another. -/
def narrowings (r : Registry) (rule : Rule) (field : String) : List (List FieldType) :=
  rule.constraints.filterMap (Constraint.narrowing? r field)

/-- The types of a field of a rule. -/
def fieldTypes? (r : Registry) (rule : Rule) (field : String) : Option Value :=
  if field ∈ Findings.namesOf rule.constraints then
    some (Findings.texts (FieldType.commonNames (rule.narrowings r field)))
  else none

end Rule

namespace FieldType

variable {tss tss' : List (List FieldType)}

theorem sorted_commonNames (tss : List (List FieldType)) :
    (commonNames tss).Pairwise (· < ·) := by
  have hall : (all.map name).Pairwise (· < ·) := by decide
  unfold commonNames
  split
  · exact List.pairwise_singleton ..
  · exact hall.sublist (List.filter_sublist.map name)

/-- A type is common when each list has it. -/
theorem mem_commonNames_iff (h : tss ≠ []) {s : String} :
    s ∈ commonNames tss ↔ ∃ t : FieldType, t.name = s ∧ ∀ types ∈ tss, t ∈ types := by
  rw [commonNames, if_neg (by rwa [List.isEmpty_iff]), List.mem_map]
  simp only [List.mem_filter, mem_all, true_and, List.all_eq_true, List.contains_iff_mem]
  exact exists_congr fun t => and_comm

theorem commonNames_perm (h : tss.Perm tss') : commonNames tss = commonNames tss' := by
  have hempty : tss.isEmpty = tss'.isEmpty := by
    rw [Bool.eq_iff_iff, List.isEmpty_iff, List.isEmpty_iff]
    exact ⟨fun h' => (h' ▸ h).nil_eq.symm, fun h' => (h' ▸ h).eq_nil⟩
  rw [commonNames, commonNames, hempty]
  simp only [h.all_eq]

end FieldType

/-- **The order of constraints does not matter** for the types of fields. -/
theorem Rule.fieldTypes?_perm {r : Registry} {rule rule' : Rule}
    (h : rule'.constraints.Perm rule.constraints) : rule'.fieldTypes? r = rule.fieldTypes? r := by
  funext field
  have hnames : (Findings.namesOf rule'.constraints).Perm (Findings.namesOf rule.constraints) :=
    h.filterMap _
  have hnarrowings : (rule'.narrowings r field).Perm (rule.narrowings r field) := h.filterMap _
  simp only [fieldTypes?, FieldType.commonNames_perm hnarrowings, hnames.mem_iff]

/-! ## Narrowing step by step -/

namespace Findings

/-- What a field is left with by one more narrowing. -/
def narrowed (current? : Option (List FieldType)) (types : List FieldType) :
    Option (List FieldType) :=
  some (current?.elim types fun current => current.filter types.contains)

/-- After some narrowings there is what each of them has. -/
theorem foldl_narrowed_some : ∀ (tss : List (List FieldType)) (current : List FieldType),
    tss.foldl narrowed (some current) =
      some (current.filter fun t => tss.all fun types => types.contains t)
  | [], current => congrArg some (List.filter_eq_self.mpr fun _ _ => rfl).symm
  | types :: rest, current => by
    rw [List.foldl_cons, narrowed, Option.elim_some, foldl_narrowed_some, List.filter_filter]
    simp only [List.all_cons, Bool.and_comm]

/-- Findings whose types are narrowed by all constraints of a field have its common types. -/
theorem typeNames_of_foldl {f : Findings} {field : String} {tss : List (List FieldType)}
    (h : Entries.find? field f.fieldTypes = tss.foldl narrowed none) :
    f.typeNames field = FieldType.commonNames tss := by
  rw [typeNames, h]
  cases tss with
  | nil => rfl
  | cons types rest =>
    rw [List.foldl_cons, narrowed, Option.elim_none, foldl_narrowed_some]
    simp only [FieldType.sortedNames, FieldType.commonNames, List.isEmpty_cons, List.all_cons]
    congr 1
    refine List.filter_congr fun t _ => ?_
    rw [Bool.eq_iff_iff]
    simp [List.mem_filter]

/-- What an operator on a field does to the types of fields. -/
theorem find?_narrow (types : List (String × List FieldType)) (field : String) (o : Operator)
    (other : String) : Entries.find? other (narrow types field o) =
      (if field = other then o.narrowing? else none).toList.foldl narrowed
        (Entries.find? other types) := by
  unfold narrow Operator.narrowing?
  by_cases hany : o.fieldTypes.contains .any = true
  · rw [if_pos hany, if_pos hany, ite_self]
    rfl
  · rw [if_neg hany, if_neg hany]
    by_cases hfield : field = other
    · subst hfield
      cases hfind : Entries.find? field types <;> simp [narrowed]
    · rw [if_neg hfield]
      cases Entries.find? field types <;>
        exact Entries.find?_put_other (Ne.symm hfield) _ _

/-- Some constraints narrow the types of each field one after another. -/
def NarrowsBy (r : Registry) (cs : List Constraint) (f f' : Findings) : Prop :=
  ∀ field, Entries.find? field f'.fieldTypes =
    (cs.filterMap (Constraint.narrowing? r field)).foldl narrowed (Entries.find? field f.fieldTypes)

variable {r : Registry} {cs cs' : List Constraint} {f f₁ f' : Findings}

theorem NarrowsBy.append (h : NarrowsBy r cs f f₁) (h' : NarrowsBy r cs' f₁ f') :
    NarrowsBy r (cs ++ cs') f f' := fun field => by
  rw [h' field, h field, List.filterMap_append, List.foldl_append]

/-- A recorded constraint narrows the types of its field. -/
theorem narrowsBy_recordConstraint {c : Constraint} {name : String} (hname : c.field = .str name)
    (f : Findings) : NarrowsBy r [c] f (f.recordConstraint name (r.find? c.operator)) := by
  intro field
  have hnarrowing : Constraint.narrowing? r field c =
      if name = field then (r.find? c.operator).bind Operator.narrowing? else none := by
    simp [Constraint.narrowing?, hname, Value.text?]
  have hone : [c].filterMap (Constraint.narrowing? r field) =
      (Constraint.narrowing? r field c).toList := by
    rw [List.filterMap_cons]
    cases Constraint.narrowing? r field c <;> rfl
  rw [hone, hnarrowing]
  cases hfind : r.find? c.operator with
  | none => rw [Option.bind_none, ite_self]; rfl
  | some o => exact find?_narrow f.fieldTypes name o field

end Findings

namespace Exploration

variable {r : Registry} {f f' : Findings}

theorem narrowsBy_effective {c : Constraint} {name : String} (hname : c.field = .str name)
    {negated : Bool} {operator : Value} (h : effective r negated c f = .ok (operator, f')) :
    Findings.NarrowsBy r [c] f f' := by
  obtain ⟨field, shown, hfield, _, rfl⟩ := effective_eq_ok h
  obtain rfl : name = field := by rw [hname] at hfield; exact Except.ok.inj hfield
  have hrecorded := Findings.narrowsBy_recordConstraint (r := r) hname f
  cases c.warning? r negated name shown <;> exact hrecorded

/-- **Notes narrow the types of fields** by one constraint after another. -/
theorem Noted.narrowsBy {notes : List Note} (h : Noted r notes f f')
    (hnamed : ∀ c, .constraint c ∈ notes → ∃ name, c.field = .str name) :
    Findings.NarrowsBy r (notes.filterMap Note.constraint?) f f' := by
  induction h with
  | nil => exact fun _ => rfl
  | condition _ ih => exact ih fun c hc => hnamed c (List.mem_cons_of_mem _ hc)
  | @constraint c _ _ _ _ _ _ heffective _ ih =>
    obtain ⟨name, hname⟩ := hnamed c (List.mem_cons_self ..)
    exact (narrowsBy_effective hname heffective).append
      (ih fun c hc => hnamed c (List.mem_cons_of_mem _ hc))

end Exploration

/-! ## The report -/

namespace Introspection

/-- The metadata of an introspection reports types of fields: of all fields that have some. -/
def ReportsTypes (i : Introspection) (types? : String → Option Value) : Prop :=
  ∀ complexity, ∃ v metadata types, i.toValue true complexity = .ok v ∧
    v.get? "metadata" = some metadata ∧ metadata.get? "fieldTypes" = some types ∧
    ∀ field, types.get? field = types? field

/-- The types that were found are reported, where alternatives are on texts. -/
theorem reportsTypes {i : Introspection}
    (h : ∀ range ∈ i.ranges, ∀ a ∈ range.alternatives, a.IsNamed) :
    i.ReportsTypes fun field => if field ∈ i.findings.fields then
      some (Findings.texts (i.findings.typeNames field)) else none := by
  intro complexity
  obtain ⟨v, hv, hmetadata, -⟩ := exists_report h true complexity
  exact ⟨v, i.findings.metadata, _, hv, hmetadata, rfl,
    fun field => Entries.find?_map_keys field _ i.findings.fields⟩

end Introspection

namespace RuleSource

variable {r : Registry} {s : RuleSource} {rule : Rule}

/-- **The types of fields are the common ones.**  Introspecting a granular rule of constraints on
texts reports for each field, sorted, the types that all registered operators on it take, those that
take any left out, and `any` where none is left — or it stops, and then some operator is not
readable.  The types do not depend on the order of constraints, conditions and roots. -/
theorem introspect_fieldTypes (hread : s.rule? = some rule) (hgranular : rule.isGranular = true)
    (htexts : ∀ c ∈ rule.constraints, ∃ name, c.field = .str name) :
    ((∃ i, s.introspect r = .ok i ∧ i.ReportsTypes (rule.fieldTypes? r)) ∨
      (∃ f, s.introspect r = .error (.fault f)) ∧ ∃ c ∈ rule.constraints, ¬ c.IsReadable) ∧
    (∀ field, let names := FieldType.commonNames (rule.narrowings r field)
      names.Pairwise (· < ·) ∧ (rule.narrowings r field ≠ [] → ∀ s, s ∈ names ↔
        ∃ t : FieldType, t.name = s ∧ ∀ types ∈ rule.narrowings r field, t ∈ types)) ∧
    ∀ rule' : Rule, rule'.constraints.Perm rule.constraints →
      rule'.fieldTypes? r = rule.fieldTypes? r := by
  refine ⟨(introspect_explored hread hgranular fun c hc =>
    Constraint.follows_knownLinks r (htexts c hc)).imp_left ?_,
    fun _ => ⟨FieldType.sorted_commonNames _, fun h _ => FieldType.mem_commonNames_iff h⟩,
    fun _ => Rule.fieldTypes?_perm⟩
  rintro ⟨i, hi, hranges, hnoted⟩
  have hnotes := Introspection.constraints_noted (List.all_eq_true.mp hgranular)
  have hnamed : ∀ c, .constraint c ∈ Node.notesOf 0 ((Introspection.outcomes
      rule.conditions).flatMap (Introspection.rootsOf rule.conditions)) →
        ∃ name, c.field = .str name := fun c hc =>
    htexts c (hnotes.mem_iff.mp (List.mem_filterMap.mpr ⟨_, hc, rfl⟩))
  have hfields : ∀ field, field ∈ i.findings.fields ↔ field ∈ Findings.namesOf rule.constraints :=
    fun field => by
      rw [(hnoted.tally hnamed).fields]
      exact (iff_of_eq (congrArg (field ∈ ·) (foldl_append_new_nil _))).trans
        (List.mem_eraseDups.trans (hnotes.filterMap _).mem_iff)
  have htypes : ∀ field, i.findings.typeNames field =
      FieldType.commonNames (rule.narrowings r field) := fun field =>
    (Findings.typeNames_of_foldl (hnoted.narrowsBy hnamed field)).trans
      (FieldType.commonNames_perm (hnotes.filterMap _))
  have hfound : rule.fieldTypes? r = fun field => if field ∈ i.findings.fields then
      some (Findings.texts (i.findings.typeNames field)) else none := funext fun field => by
    simp only [Rule.fieldTypes?, hfields, htypes]
  refine ⟨i, hi, hfound ▸ Introspection.reportsTypes fun range hrange => ?_⟩
  exact Introspection.isNamed_of_mem_grown htexts (hranges ▸ hrange)

/-- Two narrowing operators on a field, one of them below a NONE, two with no type in common on
another, and fields that are left with any type. -/
theorem introspect_fieldTypes_of_uses :
    let r := Registry.builtIn DateTime.epoch
    let test (field operator : String) : Node :=
      .constraint ⟨.str field, .str operator, some (.int 1), .null⟩
    let first : Node := .condition .and
      [test "a" "greater-than", .condition .none [test "a" "between"] none, test "b" "equals"]
      (some ⟨.shared 0, .str "first", .null⟩)
    let second : Node := .condition .or [test "c" "like", test "c" "array-length", test "d" "is"]
      (some ⟨.place [1], .str "second", .null⟩)
    let rule : Rule := ⟨[first, second], none⟩
    let rule' : Rule := ⟨[second, first], none⟩
    (rule.isGranular = true ∧ (∀ c ∈ rule.constraints, ∃ name, c.field = .str name) ∧
      rule'.constraints.Perm rule.constraints ∧ rule.narrowings r "c" ≠ []) ∧
    (∃ i, (RuleSource.rule rule).introspect r = .ok i ∧ i.ReportsTypes (rule.fieldTypes? r)) ∧
    rule'.fieldTypes? r = rule.fieldTypes? r ∧
    (¬ ∃ t : FieldType, ∀ types ∈ rule.narrowings r "c", t ∈ types) ∧
    (["a", "b", "c", "d"].map fun field => FieldType.commonNames (rule.narrowings r field)) =
      [["number"], ["any"], [], ["any"]] := by
  intro r test first second rule rule'
  have hreads (field operator : String) : ∀ c ∈ (test field operator).constraints,
      (∃ name, c.field = .str name) ∧ c.IsReadable :=
    List.forall_mem_singleton.mpr ⟨⟨_, rfl⟩, rfl, _, rfl⟩
  have hconstraints : ∀ c ∈ rule.constraints, (∃ name, c.field = .str name) ∧ c.IsReadable := by
    simp only [Rule.constraints, rule, first, second, Node.constraintsOf, Node.constraints,
      List.forall_mem_append, List.not_mem_nil, false_implies, implies_true, and_true]
    exact ⟨⟨hreads _ _, hreads _ _, hreads _ _⟩, hreads _ _, hreads _ _, hreads _ _⟩
  have hperm : (second.constraints ++ first.constraints).Perm
      (first.constraints ++ second.constraints) := List.perm_append_comm
  have htexts : ∀ c ∈ rule.constraints, ∃ name, c.field = .str name := fun c hc =>
    (hconstraints c hc).1
  have hnames : (["a", "b", "c", "d"].map fun field =>
      FieldType.commonNames (rule.narrowings r field)) = [["number"], ["any"], [], ["any"]] := by
    decide +kernel
  have hempty : FieldType.commonNames (rule.narrowings r "c") = [] := by
    simp only [List.map_cons, List.cons.injEq] at hnames
    exact hnames.2.2.1
  have hnarrowed : rule.narrowings r "c" ≠ [] := fun h => by
    rw [h] at hempty
    cases hempty
  obtain ⟨hreport, hcommon, horder⟩ :=
    introspect_fieldTypes (r := r) (s := .rule rule) rfl rfl htexts
  refine ⟨⟨rfl, htexts, hperm, hnarrowed⟩, hreport.resolve_right fun ⟨_, c, hc, hstop⟩ =>
    hstop (hconstraints c hc).2, horder rule' hperm, fun ⟨t, ht⟩ => ?_, hnames⟩
  have hmem := ((hcommon "c").2 hnarrowed t.name).mpr ⟨t, rfl, ht⟩
  rw [hempty] at hmem
  cases hmem

/-- An operator that is a list: with another constraint on its field before it a rule is
introspected, and with the two the other way round introspection stops. -/
theorem introspect_stops_in_other_order :
    let equals : Constraint := ⟨.str "a", .str "equals", some (.int 1), .null⟩
    let unknown : Constraint := ⟨.str "a", .ofItems [], some (.int 1), .null⟩
    let rule (cs : List Constraint) : Rule :=
      ⟨[.condition .and (cs.map .constraint) (some ⟨.place [0], .int 1, .null⟩)], none⟩
    let introspect (cs : List Constraint) :=
      (RuleSource.rule (rule cs)).introspect (.builtIn DateTime.epoch)
    ((rule [unknown, equals]).isGranular = true ∧
      ∀ c ∈ (rule [unknown, equals]).constraints, ∃ name, c.field = .str name) ∧
    (∃ i, introspect [equals, unknown] = .ok i) ∧ ∀ i, introspect [unknown, equals] ≠ .ok i := by
  intro equals unknown rule introspect
  have hgoes : (introspect [equals, unknown]).isOk = true := by decide +kernel
  have hstops : introspect [unknown, equals] = .error (.fault .wrongKind) := rfl
  refine ⟨⟨rfl, List.forall_mem_cons.mpr ⟨⟨_, rfl⟩, List.forall_mem_singleton.mpr ⟨_, rfl⟩⟩⟩,
    ?_, fun i hi => ?_⟩
  · cases h : introspect [equals, unknown] with
    | ok i => exact ⟨i, rfl⟩
    | error failure =>
      rw [h] at hgoes
      cases hgoes
  · rw [hstops] at hi
    cases hi

end RuleSource

end Verdict
