import Verdict.Proofs.Introspection.Contribution
import Verdict.Proofs.Introspection.Explored
import Verdict.Proofs.Introspection.Faithful
import Verdict.Proofs.Introspection.Merge

/-!
# Proofs/Introspection/Provenance — alternatives invent nothing and lose nothing

    constraint under a root   ──contributes──▸   value, or operator and value
                                                    │ merged
    entry of an alternative   ◂─────stems from──────┘

Each constraint **contributes** its value, or its operator in force with the value.  What is gathered
of constraints stems from their contributions and covers them, up to equality, and attaching keeps
both; so the entries of a range stem from constraints of its own roots, and each of these is covered
by some alternative of the range (`RuleSource.introspect_accounts`).
-/

namespace Verdict

/-! ## Contributions of constraints -/

/-- What a constraint with an operator in force adds to a requirement: its value where the operator
can be left out, else operator and value.  Only `equals` is always left out. -/
def Constraint.Contributes (c : Constraint) (operator v : Value) : Prop :=
  (∃ name ∈ Operator.plainOperators, operator = .str name) ∧ v = c.value ∨
    operator ≠ .str "equals" ∧ v = Alternative.requirement c operator

/-- An entry for a field stems from some constraints, each with whether it stands under a NONE: it is
among what one of them on the field contributes. -/
def Requirement.Stems (r : Registry) (ps : List (Bool × Constraint)) (field entry : Value) : Prop :=
  ∃ p ∈ ps, p.2.field = field ∧
    ∃ v, p.2.Contributes (r.inForce p.1 p.2.operator) v ∧ entry ∈ v.flat

theorem Requirement.Stems.mono {r : Registry} {ps ps' : List (Bool × Constraint)}
    (h : ps ⊆ ps') {field entry : Value} (hentry : Stems r ps field entry) :
    Stems r ps' field entry := hentry.imp fun _ hp => ⟨h hp.1, hp.2⟩

namespace Alternative

variable {r r' : Registry} {negated : Bool} {c : Constraint} {operator v : Value}
  {a : Alternative} {E : Value → Value → Prop} {name : String}

theorem contributes_entry (c : Constraint) (operator : Value) :
    c.Contributes operator (entry c operator) := by
  cases operator with
  | str name =>
    rw [entry]
    split
    · next hplain => exact .inl ⟨⟨name, List.contains_iff_mem.mp hplain, rfl⟩, rfl⟩
    · next hplain =>
      refine .inr ⟨fun heq => hplain ?_, rfl⟩
      rw [Value.str.inj heq]
      rfl
  | _ => exact .inr ⟨fun heq => (by cases heq), rfl⟩

theorem contributes_addition (c : Constraint) (operator : Value) :
    c.Contributes operator (addition c operator) := by
  unfold addition
  split
  · exact .inl ⟨⟨"equals", by decide, rfl⟩, rfl⟩
  · next hother => exact .inr ⟨hother, rfl⟩

/-- **Gathering a constraint requires what it contributes.** -/
theorem exists_gatherOne_eq (r : Registry) (negated : Bool) (a : Alternative) (c : Constraint) :
    ∃ v, c.Contributes (r.effective negated c.operator) v ∧
      gatherOne r negated a c = a.require c.field v := by
  cases hfind : a.find? c.field with
  | none =>
    exact ⟨_, contributes_entry c _, by simp only [gatherOne, require, hfind]⟩
  | some known =>
    exact ⟨_, contributes_addition c _, by simp only [gatherOne, require, hfind]⟩

/-- What constraints on texts gather stems from them. -/
theorem IsFrom.gather {cs : List Constraint} (ha : a.IsFrom E)
    (hcs : ∀ c ∈ cs, (∃ name, c.field = .str name) ∧
      ∀ v, c.Contributes (r.effective negated c.operator) v → ∀ x ∈ v.flat, E c.field x) :
    (cs.foldl (gatherOne r negated) a).IsFrom E := by
  induction cs generalizing a with
  | nil => exact ha
  | cons c rest ih =>
    obtain ⟨⟨hname, hentries⟩, hrest⟩ := List.forall_mem_cons.mp hcs
    obtain ⟨v, hv, heq⟩ := exists_gatherOne_eq r negated a c
    refine ih ?_ hrest
    rw [heq]
    exact ha.require hname (hentries v hv)

theorem Covers.gather {cs : List Constraint} (h : a.Covers (.str name) v) :
    (cs.foldl (gatherOne r negated) a).Covers (.str name) v := by
  induction cs generalizing a with
  | nil => exact h
  | cons c rest ih =>
    obtain ⟨w, _, heq⟩ := exists_gatherOne_eq r negated a c
    refine ih ?_
    rw [heq]
    exact h.require w

/-- What constraints on texts gather covers what each of them contributes. -/
theorem covers_gather {cs : List Constraint} (hc : c ∈ cs) (hname : c.field = .str name)
    (a : Alternative) : ∃ v, c.Contributes (r.effective negated c.operator) v ∧
      (cs.foldl (gatherOne r negated) a).Covers (.str name) v := by
  induction cs generalizing a with
  | nil => cases hc
  | cons c' rest ih =>
    rcases List.mem_cons.mp hc with rfl | hc
    · obtain ⟨v, hv, heq⟩ := exists_gatherOne_eq r negated a c
      refine ⟨v, hv, ?_⟩
      rw [List.foldl_cons, heq, hname]
      exact (covers_require_self a name v).gather
    · exact ih hc (gatherOne r negated a c')

end Alternative

/-! ## Contributions of nodes -/

/-- A contribution that is a table and stems from some constraints. -/
structure Contribution.IsFrom (E : Value → Value → Prop) (c : Contribution) : Prop where
  table : c.alternative.IsTable
  entries : c.alternative.IsFrom E

namespace Growth

variable {g : Growth} {E : Value → Value → Prop} {name : String} {v : Value}
  {cs : List Contribution}

/-- **A range that stems from constraints takes contributions that do.** -/
theorem IsFrom.foldl_contribute (hg : g.IsFrom E) (hcs : ∀ c ∈ cs, c.IsFrom E) :
    (cs.foldl contribute g).IsFrom E := by
  induction cs generalizing g with
  | nil => exact hg
  | cons c rest ih =>
    obtain ⟨hc, hrest⟩ := List.forall_mem_cons.mp hcs
    exact ih (hg.attach hc.entries c.branch c.parent c.depth) hrest

theorem Covers.foldl_contribute (h : g.Covers (.str name) v) :
    (cs.foldl contribute g).Covers (.str name) v := by
  induction cs generalizing g with
  | nil => exact h
  | cons c rest ih => exact ih (h.attach c.branch c.parent c.depth c.alternative)

/-- **A range covers the contributions that it takes.** -/
theorem covers_foldl_contribute {c : Contribution} (hc : c ∈ cs) (htable : c.alternative.IsTable)
    {e : Value × Value} (he : e ∈ c.alternative) (g : Growth) :
    (cs.foldl contribute g).Covers e.1 e.2 := by
  obtain ⟨name, hname⟩ := htable.named e he
  induction cs generalizing g with
  | nil => cases hc
  | cons c' rest ih =>
    rcases List.mem_cons.mp hc with rfl | hc
    · have hone := covers_attach g c.branch c.parent c.depth htable he
      rw [hname] at hone ⊢
      exact hone.foldl_contribute
    · exact ih hc (g.contribute c')

end Growth

namespace Contribution

variable {E : Value → Value → Prop} {b : Branch} {parent : Option Branch} {depth : Nat}
  {a : Alternative}

/-- What a condition attaches of a table are tables of its entries. -/
theorem isFrom_of_mem_ofTable (htable : a.IsTable) (ha : a.IsFrom E) :
    ∀ c ∈ ofTable b parent depth a, c.IsFrom E := by
  unfold ofTable
  split
  · exact List.forall_mem_singleton.mpr ⟨htable, ha⟩
  · refine List.forall_mem_map.mpr fun e he => ⟨?_, ?_⟩
    · exact ⟨List.forall_mem_singleton.mpr (htable.named e he), by simp⟩
    · exact ⟨List.forall_mem_singleton.mpr (htable.named e he),
        List.forall_mem_singleton.mpr (ha.entries e he)⟩

theorem exists_mem_ofTable {e : Value × Value} (he : e ∈ a) :
    ∃ c ∈ ofTable b parent depth a, e ∈ c.alternative := by
  unfold ofTable
  split
  · exact ⟨_, List.mem_singleton_self _, he⟩
  · exact ⟨_, List.mem_map_of_mem he, List.mem_singleton_self e⟩

end Contribution

namespace Node

variable {r : Registry}

/-- What a condition gathers stems from the constraints directly under it, and is a table. -/
theorem isFrom_gather {nodes : List Node}
    (h : ∀ c ∈ constraintsOf nodes, ∃ name, c.field = .str name) (negated : Bool) :
    (Alternative.gather r.knownLinks negated nodes []).IsTable ∧
      (Alternative.gather r.knownLinks negated nodes []).IsFrom
        (Requirement.Stems r (polaritiesOf negated nodes)) := by
  have hdirects : ∀ c ∈ directs nodes, ∃ name, c.field = .str name := fun c hc =>
    h c (directs_subset nodes hc)
  refine ⟨Alternative.isTable_gather hdirects, ?_⟩
  rw [Alternative.gather_eq_foldl]
  refine Alternative.isFrom_nil.gather fun c hc => ⟨hdirects c hc, fun v hv x hx => ?_⟩
  rw [Registry.effective_knownLinks] at hv
  have hmem : (negated, c) ∈ polaritiesOf negated nodes :=
    (mem_polaritiesOf_split negated).mp (List.mem_append_left _ (List.mem_map_of_mem hc))
  exact ⟨(negated, c), hmem, rfl, v, hv, hx⟩

mutual

/-- **What a node attaches stems from its constraints.** -/
theorem isFrom_contributions (parent : Option Branch) (depth : Nat) (inNone : Bool) :
    ∀ {n : Node}, (∀ c ∈ n.constraints, ∃ name, c.field = .str name) →
      ∀ c ∈ n.contributions r.knownLinks parent depth inNone,
        c.IsFrom (Requirement.Stems r (n.polarities inNone))
  | .condition b nodes _, h, c, hc => by
    rw [constraints] at h
    rw [contributions] at hc
    rw [polarities]
    rcases List.mem_append.mp hc with hc | hc
    · obtain ⟨htable, hfrom⟩ := isFrom_gather (r := r) h (inNone || b = .none)
      exact Contribution.isFrom_of_mem_ofTable htable hfrom c hc
    · exact isFrom_contributionsOf (some b) (depth + 1) (inNone || b = .none) h c hc
  | .constraint _, _, c, hc => by
    rw [contributions] at hc
    cases hc
  | .invalid _, _, c, hc => by
    rw [contributions] at hc
    cases hc

theorem isFrom_contributionsOf (parent : Option Branch) (depth : Nat) (inNone : Bool) :
    ∀ {nodes : List Node}, (∀ c ∈ constraintsOf nodes, ∃ name, c.field = .str name) →
      ∀ c ∈ contributionsOf r.knownLinks parent depth inNone nodes,
        c.IsFrom (Requirement.Stems r (polaritiesOf inNone nodes))
  | [], _, c, hc => by
    rw [contributionsOf] at hc
    cases hc
  | n :: rest, h, c, hc => by
    rw [constraintsOf, List.forall_mem_append] at h
    rw [contributionsOf] at hc
    rw [polaritiesOf]
    rcases List.mem_append.mp hc with hc | hc
    · obtain ⟨htable, hnamed, hentries⟩ := isFrom_contributions parent depth inNone h.1 c hc
      exact ⟨htable, hnamed, fun e he x hx =>
        (hentries e he x hx).mono (List.subset_append_left _ _)⟩
    · obtain ⟨htable, hnamed, hentries⟩ := isFrom_contributionsOf parent depth inNone h.2 c hc
      exact ⟨htable, hnamed, fun e he x hx =>
        (hentries e he x hx).mono (List.subset_append_right _ _)⟩

end

/-- Some contribution has the field of a constraint, with all that it contributes. -/
def IsContributed (r : Registry) (cs : List Contribution) (p : Bool × Constraint) : Prop :=
  ∃ c ∈ cs, ∃ e ∈ c.alternative, e.1 = p.2.field ∧
    ∃ v, p.2.Contributes (r.inForce p.1 p.2.operator) v ∧ e.2.HasEntries v

theorem IsContributed.mono {cs cs' : List Contribution} {p : Bool × Constraint}
    (h : IsContributed r cs p) (hsubset : cs ⊆ cs') : IsContributed r cs' p :=
  h.imp fun _ hc => ⟨hsubset hc.1, hc.2⟩

/-- A condition attaches what the constraints directly under it contribute. -/
theorem isContributed_of_mem_directs {nodes : List Node}
    (h : ∀ c ∈ constraintsOf nodes, ∃ name, c.field = .str name) (b : Branch)
    (parent : Option Branch) (depth : Nat) (negated : Bool) {c : Constraint}
    (hc : c ∈ directs nodes) :
    IsContributed r (Contribution.ofTable b parent depth
      (Alternative.gather r.knownLinks negated nodes [])) (negated, c) := by
  obtain ⟨htable, _⟩ := isFrom_gather (r := r) h negated
  obtain ⟨name, hname⟩ := h c (directs_subset nodes hc)
  obtain ⟨v, hv, hcovers⟩ := Alternative.covers_gather hc hname []
  rw [Registry.effective_knownLinks] at hv
  rw [← Alternative.gather_eq_foldl] at hcovers
  obtain ⟨known, hfind, hknown⟩ := hcovers
  have hentry := Alternative.mem_of_find? htable.named hfind
  obtain ⟨contribution, hmem, he⟩ : ∃ contribution ∈ Contribution.ofTable b parent depth
      (Alternative.gather r.knownLinks negated nodes []), (_, known) ∈ contribution.alternative :=
    Contribution.exists_mem_ofTable hentry
  exact ⟨contribution, hmem, _, he, hname.symm, v, hv, hknown⟩

mutual

/-- **A condition attaches what each of its constraints contributes.** -/
theorem isContributed_contributions (parent : Option Branch) (depth : Nat) (inNone : Bool) :
    ∀ {n : Node}, (∀ c ∈ n.constraints, ∃ name, c.field = .str name) → n.isCondition = true →
      ∀ p ∈ n.polarities inNone,
        IsContributed r (n.contributions r.knownLinks parent depth inNone) p
  | .condition b nodes _, h, _, p, hp => by
    rw [constraints] at h
    rw [polarities] at hp
    rw [contributions]
    rcases isContributed_contributionsOf (some b) (depth + 1) (inNone || b = .none) h p hp with
      ⟨c, hc, rfl⟩ | hp
    · exact (isContributed_of_mem_directs h b parent depth (inNone || b = .none) hc).mono
        (List.subset_append_left _ _)
    · exact hp.mono (List.subset_append_right _ _)

/-- A constraint among nodes stands directly among them, or its condition attaches what it
contributes. -/
theorem isContributed_contributionsOf (parent : Option Branch) (depth : Nat) (inNone : Bool) :
    ∀ {nodes : List Node}, (∀ c ∈ constraintsOf nodes, ∃ name, c.field = .str name) →
      ∀ p ∈ polaritiesOf inNone nodes, (∃ c ∈ directs nodes, p = (inNone, c)) ∨
        IsContributed r (contributionsOf r.knownLinks parent depth inNone nodes) p
  | [], _, p, hp => by
    rw [polaritiesOf] at hp
    cases hp
  | n :: rest, h, p, hp => by
    rw [constraintsOf, List.forall_mem_append] at h
    rw [polaritiesOf] at hp
    rw [contributionsOf]
    rcases List.mem_append.mp hp with hp | hp
    · cases n with
      | constraint c =>
        rw [polarities] at hp
        exact .inl ⟨c, List.mem_cons_self .., List.mem_singleton.mp hp⟩
      | invalid raw =>
        rw [polarities] at hp
        cases hp
      | condition b nodes outcome =>
        exact .inr ((isContributed_contributions parent depth inNone h.1 rfl p hp).mono
          (List.subset_append_left _ _))
    · rcases isContributed_contributionsOf parent depth inNone h.2 p hp with ⟨c, hc, heq⟩ | hp
      · refine .inl ⟨c, ?_, heq⟩
        rw [mem_directs] at hc ⊢
        exact List.mem_cons_of_mem n hc
      · exact .inr (hp.mono (List.subset_append_right _ _))

end

end Node

/-! ## Ranges -/

namespace Introspection

variable {r : Registry} {roots : List Node} {os : List Outcome} {steps : List Step}
  {range : CriteriaRange}

/-- **The entries of a range stem from the constraints under the roots of its outcome.** -/
theorem stems_of_mem_grown (h : ∀ c ∈ Node.constraintsOf roots, ∃ name, c.field = .str name)
    (hrange : range ∈ grown r.knownLinks roots os steps) :
    ∀ a ∈ range.alternatives, ∀ e ∈ a,
      (∃ p ∈ Node.polaritiesOf false (rootsOf roots range.outcome), p.2.field = e.1) ∧
      ∀ entry ∈ e.2.flat, Requirement.Stems r
        (Node.polaritiesOf false (rootsOf roots range.outcome)) e.1 entry := by
  obtain ⟨steps', halternatives⟩ := exists_steps_of_mem_grown hrange
  have htexts : ∀ c ∈ Node.constraintsOf (rootsOf roots range.outcome),
      ∃ name, c.field = .str name := fun c hc => h c (constraintsOf_rootsOf_subset roots _ hc)
  generalize rootsOf roots range.outcome = mine at halternatives htexts
  have hfields : ∀ c ∈ Node.constraintsOf mine,
      ∃ p ∈ Node.polaritiesOf false mine, p.2.field = c.field := fun c hc => by
    rw [← Node.polaritiesOf_snd false mine] at hc
    obtain ⟨p, hp, rfl⟩ := List.mem_map.mp hc
    exact ⟨p, hp, rfl⟩
  have hwithin : Growth.Within (fun f => ∃ p ∈ Node.polaritiesOf false mine, p.2.field = f)
      (Node.growAll r.knownLinks none 0 false mine ⟨[], steps'⟩) :=
    Node.within_growAll none 0 false hfields fun a ha => by cases ha
  have hfrom : Growth.IsFrom (Requirement.Stems r (Node.polaritiesOf false mine))
      (Node.growAll r.knownLinks none 0 false mine ⟨[], steps'⟩) := by
    rw [Node.growAll_eq_foldl]
    exact Growth.IsFrom.foldl_contribute (fun a ha => by cases ha)
      (Node.isFrom_contributionsOf none 0 false htexts)
  rw [halternatives]
  exact fun a ha e he => ⟨hwithin a ha e he, (hfrom a ha).entries e he⟩

/-- **Each constraint under the roots of an outcome is covered by an alternative of its range.** -/
theorem covers_of_mem_grown (h : ∀ c ∈ Node.constraintsOf roots, ∃ name, c.field = .str name)
    (houtcome : ∀ n ∈ roots, n.outcome?.isSome = true)
    (hrange : range ∈ grown r.knownLinks roots os steps) :
    ∀ p ∈ Node.polaritiesOf false (rootsOf roots range.outcome),
      ∃ v, p.2.Contributes (r.inForce p.1 p.2.operator) v ∧
        ∃ a ∈ range.alternatives, a.Covers p.2.field v := by
  obtain ⟨steps', halternatives⟩ := exists_steps_of_mem_grown hrange
  have htexts : ∀ c ∈ Node.constraintsOf (rootsOf roots range.outcome),
      ∃ name, c.field = .str name := fun c hc => h c (constraintsOf_rootsOf_subset roots _ hc)
  have hconditions : ∀ c, .constraint c ∉ rootsOf roots range.outcome := fun c hc => by
    cases houtcome _ (mem_of_mem_rootsOf hc)
  rw [halternatives, Node.growAll_eq_foldl]
  intro p hp
  obtain ⟨c, hc, e, he, hfield, v, hv, hentries⟩ :=
    (Node.isContributed_contributionsOf none 0 false htexts p hp).resolve_left
      fun ⟨c, hc, _⟩ => hconditions c (Node.mem_directs.mp hc)
  obtain ⟨htable, _⟩ := Node.isFrom_contributionsOf (r := r) none 0 false htexts c hc
  obtain ⟨a, ha, hcovers⟩ := Growth.covers_foldl_contribute hc htable he ⟨[], steps'⟩
  exact ⟨v, hv, a, ha, hfield ▸ hcovers.trans hentries⟩

end Introspection

namespace RuleSource

variable {r : Registry} {s : RuleSource} {rule : Rule}

/-- **Introspection invents and loses nothing**: for a granular rule of constraints on texts, each
entry of a range stems from a constraint on its field under a root of the outcome, and each of these
constraints is covered by an alternative of the range — or introspection stops, and then some
operator is not readable. -/
theorem introspect_accounts (hread : s.rule? = some rule) (hgranular : rule.isGranular = true)
    (htexts : ∀ c ∈ rule.constraints, ∃ name, c.field = .str name) :
    (∃ i, s.introspect r = .ok i ∧
      i.ranges.map CriteriaRange.outcome = Introspection.outcomes rule.conditions ∧
      ∀ range ∈ i.ranges, ∀ ps, ps = Node.polaritiesOf false
          (Introspection.rootsOf rule.conditions range.outcome) →
        (∀ a ∈ range.alternatives, ∀ e ∈ a, (∃ p ∈ ps, p.2.field = e.1) ∧
          ∀ entry ∈ e.2.flat, Requirement.Stems r ps e.1 entry) ∧
        ∀ p ∈ ps, ∃ v, p.2.Contributes (r.inForce p.1 p.2.operator) v ∧
          ∃ a ∈ range.alternatives, a.Covers p.2.field v) ∨
    (∃ f, s.introspect r = .error (.fault f)) ∧ ∃ c ∈ rule.constraints, ¬ c.IsReadable := by
  refine (introspect_explored hread hgranular fun c hc =>
    Constraint.follows_knownLinks r (htexts c hc)).imp_left ?_
  rintro ⟨i, hi, hranges, _⟩
  refine ⟨i, hi, by rw [hranges, Introspection.map_outcome_grown], ?_⟩
  rintro range hrange ps rfl
  rw [hranges] at hrange
  exact ⟨Introspection.stems_of_mem_grown htexts hrange,
    Introspection.covers_of_mem_grown htexts (List.all_eq_true.mp hgranular) hrange⟩

/-- Two roots of one outcome: constraints on one field under an AND, a fork that starts from a copy,
and an operator under a NONE. -/
theorem introspect_accounts_of_fork :
    let test (field operator : String) (i : Int) : Node :=
      .constraint ⟨.str field, .str operator, some (.int i), .null⟩
    let rule : Rule := ⟨[
      .condition .and [test "a" "equals" 1, test "a" "greater-than" 2,
        .condition .or [test "b" "equals" 3, .condition .and [test "c" "is" 4] none] none]
        (some ⟨.shared 0, .str "yes", .null⟩),
      .condition .none [test "a" "equals" 1] (some ⟨.shared 0, .str "yes", .null⟩)], none⟩
    (rule.isGranular = true ∧ ∀ c ∈ rule.constraints, ∃ name, c.field = .str name) ∧
    ∃ i, (RuleSource.rule rule).introspect (.builtIn DateTime.epoch) = .ok i ∧
      i.ranges.map CriteriaRange.outcome = Introspection.outcomes rule.conditions ∧
      ∀ range ∈ i.ranges, ∀ ps, ps = Node.polaritiesOf false
          (Introspection.rootsOf rule.conditions range.outcome) →
        (∀ a ∈ range.alternatives, ∀ e ∈ a, (∃ p ∈ ps, p.2.field = e.1) ∧
          ∀ entry ∈ e.2.flat, Requirement.Stems (.builtIn DateTime.epoch) ps e.1 entry) ∧
        ∀ p ∈ ps, ∃ v,
          p.2.Contributes ((Registry.builtIn DateTime.epoch).inForce p.1 p.2.operator) v ∧
            ∃ a ∈ range.alternatives, a.Covers p.2.field v := by
  intro test rule
  have htest : ∀ c : Constraint, (∃ name, c.field = .str name) ∧ (∃ name, c.operator = .str name) →
      (∃ name, c.field = .str name) ∧ c.IsReadable := fun c ⟨hfield, name, hname⟩ =>
    ⟨hfield, by rw [hname]; rfl, name, by rw [hname]; rfl⟩
  have hconstraints : ∀ c ∈ rule.constraints, (∃ name, c.field = .str name) ∧ c.IsReadable :=
    List.forall_mem_cons.mpr ⟨htest _ ⟨⟨_, rfl⟩, _, rfl⟩, List.forall_mem_cons.mpr
      ⟨htest _ ⟨⟨_, rfl⟩, _, rfl⟩, List.forall_mem_cons.mpr ⟨htest _ ⟨⟨_, rfl⟩, _, rfl⟩,
        List.forall_mem_cons.mpr ⟨htest _ ⟨⟨_, rfl⟩, _, rfl⟩, List.forall_mem_singleton.mpr
          (htest _ ⟨⟨_, rfl⟩, _, rfl⟩)⟩⟩⟩⟩
  have htexts : ∀ c ∈ rule.constraints, ∃ name, c.field = .str name := fun c hc =>
    (hconstraints c hc).1
  have hgranular : rule.isGranular = true := rfl
  refine ⟨⟨hgranular, htexts⟩, ?_⟩
  exact (introspect_accounts (s := .rule rule) rfl hgranular htexts).resolve_right
    fun ⟨_, c, hc, hstop⟩ => hstop (hconstraints c hc).2

/-- An operator that is linked but not registered: it stands as it is under a NONE, although there is
an inverse. -/
theorem introspect_keeps_linked_operator :
    let rule : Rule := ⟨[.condition .none
      [.constraint ⟨.str "a", .str "common", some (.int 1), .null⟩]
        (some ⟨.place [0], .str "yes", .null⟩)], none⟩
    let rare : Declaration := ⟨"rare", .custom, ["any"], .ofRelation fun _ _ => true, some "common"⟩
    ∃ r, Registry.empty.register rare = .ok r ∧
      r.negation? (.str "common") = some "rare" ∧ rule.isGranular = true ∧
      ∃ i, (RuleSource.rule rule).introspect r = .ok i ∧
        i.ranges.map CriteriaRange.alternatives =
          [[[(.str "a", .ofFields [("operator", .str "common"), ("value", .int 1)])]]] := by
  intro rule rare
  have hdeclared : rare.operator? =
      .ok ⟨"rare", .custom, ["any"].filterMap FieldType.ofName?, .ofRelation fun _ _ => true⟩ := by
    rw [Declaration.operator?, if_neg (by decide), if_pos (by decide +kernel)]
  refine ⟨_, by rw [Registry.register, hdeclared]; rfl, ?_, rfl, ?_⟩
  · decide
  · refine ⟨_, rfl, ?_⟩
    rfl

end RuleSource

end Verdict
