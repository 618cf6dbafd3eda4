import Verdict.Proofs.Introspection.Explored
import Verdict.Proofs.Introspection.Traceable
import Verdict.Proofs.Rule.Written

/-!
# Proofs/Introspection/RoundTrip — criteria that meet an alternative reach its outcome

    rule ── introspect ──▸ alternatives of an outcome
      ▲                         │ isMet
      └──── some root passes ◂── criteria

Whatever grows from a root goes back to an alternative of an earlier root, or **leads** to the root
(`Node.leads_grow`).  So criteria that meet an alternative of an outcome make one of its roots pass
(`RuleSource.introspect_leads_back`).
-/

namespace Verdict

namespace Growth

/-- Each alternative has all the entries of an earlier one, or reaches a goal where it is met. -/
def Leads (k : Setting) (g g' : Growth) (goal : Prop) : Prop :=
  ∀ o ∈ g'.alternatives, (∃ old ∈ g.alternatives, old ⊆ o) ∨ (o.isMet k = true → goal)

variable {k : Setting} {g g₁ g₂ : Growth} {goal : Prop}

theorem Leads.refl (g : Growth) : g.Leads k g goal := fun o ho => .inl ⟨o, ho, fun _ h => h⟩

theorem Leads.trans (h : g.Leads k g₁ goal) (h' : g₁.Leads k g₂ goal) : g.Leads k g₂ goal := by
  intro o ho
  rcases h' o ho with ⟨o₁, ho₁, hsubset⟩ | hgoal
  · rcases h o₁ ho₁ with ⟨old, hold, hsubset'⟩ | hgoal
    · exact .inl ⟨old, hold, fun e he => hsubset (hsubset' he)⟩
    · exact .inr fun hmet => hgoal (Alternative.isMet_of_subset hsubset hmet)
  · exact .inr hgoal

theorem Leads.mono {goal' : Prop} (h : g.Leads k g₁ goal) (hgoal : goal → goal') :
    g.Leads k g₁ goal' := fun o ho => (h o ho).imp_right fun h hmet => hgoal (h hmet)

/-- Entries put behind the last alternative go back to it, or lead on where there is none. -/
theorem Extends.leads {es : Alternative} (h : g.Extends g₁ es) (hgoal : es.isMet k = true → goal) :
    g.Leads k g₁ goal := by
  rcases h with h | ⟨rfl, h⟩
  · intro o ho
    rw [h, Alternative.extendLast] at ho
    rcases List.mem_append.mp ho with ho | ho
    · exact .inl ⟨o, List.dropLast_subset _ ho, fun _ h => h⟩
    · rw [List.mem_singleton.mp ho]
      cases hlast : g.alternatives.getLast? with
      | none => exact .inr hgoal
      | some last =>
        exact .inl ⟨last, List.mem_of_getLast? hlast, List.subset_append_left _ _⟩
  · intro o ho
    exact .inl ⟨o, h ▸ ho, fun _ h => h⟩

end Growth

namespace Node

variable {k : Setting}

/-- A node whose alternatives, at the root or below ORs only, go back to earlier ones or to it. -/
def LeadsBack (k : Setting) (n : Node) : Prop :=
  ∀ ⦃parent : Option Branch⦄ ⦃depth : Nat⦄ ⦃g : Growth⦄, n.IsTraceable false parent →
    Growth.isFork .and parent = true → g.Within (Apart n.fields) →
      g.Leads k (n.grow k.registry parent depth false g) (n.meaning (Constraint.holds k) = true)

/-- Nodes that lead back do so one after another. -/
theorem leads_growAll {goal : Prop} {parent : Option Branch} {depth : Nat}
    (hparent : Growth.isFork .and parent = true) {ns : List Node}
    (hsound : ∀ n ∈ ns, n.IsSound k.registry) (hnodup : (fieldsOf ns).Nodup)
    (hleads : ∀ n ∈ ns, n.LeadsBack k) (htrace : ∀ n ∈ ns, n.IsTraceable false parent)
    (hgoal : ∀ n ∈ ns, n.meaning (Constraint.holds k) = true → goal) {g : Growth}
    (hwithin : g.Within (Apart (fieldsOf ns))) :
    g.Leads k (growAll k.registry parent depth false ns g) goal := by
  induction ns generalizing g with
  | nil =>
    rw [growAll]
    exact .refl g
  | cons n rest ih =>
    have hnew : g.Within (Apart n.fields) := fun a ha =>
      within_apart_mono (fieldsOf_cons n rest ▸ List.subset_append_left _ _) (hwithin a ha)
    have hone : g.Leads k (n.grow k.registry parent depth false g) goal :=
      (hleads n (List.mem_cons_self ..) (htrace n (List.mem_cons_self ..)) hparent hnew).mono
        (hgoal n (List.mem_cons_self ..))
    have hrest := within_grow_of_nodup (hsound n (List.mem_cons_self ..)) hnodup hwithin parent
      depth false
    rw [fieldsOf_cons] at hnodup
    rw [growAll]
    exact hone.trans (ih (List.forall_mem_cons.mp hsound).2 (List.nodup_append.mp hnodup).2.1
      (List.forall_mem_cons.mp hleads).2 (List.forall_mem_cons.mp htrace).2
      (List.forall_mem_cons.mp hgoal).2 hrest)

/-- An AND that forks leads back: what grows below it settles. -/
theorem leadsBack_and {nodes : List Node} {outcome : Option Outcome}
    (hsound : ∀ n ∈ nodes, n.IsSound k.registry) (hnodup : (fieldsOf nodes).Nodup)
    (hfaithful : (condition .and nodes outcome).IsFaithful k false) :
    (condition .and nodes outcome).LeadsBack k := by
  intro parent depth g htrace hparent hwithin
  obtain ⟨hforks, htraces⟩ : (haveFork nodes = true → (nested nodes).length ≤ 1) ∧
      ∀ n ∈ nodes, n.IsTraceable true (some .and) := by
    cases htrace with | and hforks htraces => exact ⟨hforks, htraces⟩
  have hnested := (nodup_fieldsOf_iff.mp hnodup).2.1
  have hbase : (g.forkBase parent depth).Within (Apart (fieldsOf nodes)) :=
    Growth.Within.forkBase hwithin parent depth
  have hattach := attachTable_and_of_isFork hsound hnodup hparent hbase false
  have hwithin' : (g.attachTable .and parent depth
      (Alternative.gather k.registry false nodes [])).Within (Apart (fieldsOf (nested nodes))) :=
    gather_nil_eq hsound hnodup false ▸
      within_attachTable_directs hsound hnodup hwithin .and parent depth false
  have hkeeps : (g.attachTable .and parent depth
      (Alternative.gather k.registry false nodes [])).Keeps
      ((directs nodes).map (literal k.registry false)) (depth + 1) g.alternatives
      (g.forkBase parent depth ++ (directs nodes).map (literal k.registry false)) := by
    refine ⟨?_, List.subset_append_right _ _, Growth.shielded_attachTable_and ..⟩
    rw [hattach]
    rfl
  obtain ⟨os, hos, _, hall⟩ := settled_growAll_and hsound hnested
    (fun n hn => hfaithful.of_mem hn) (settles_nested hsound hnodup hfaithful) htraces hforks hkeeps
    (Nat.succ_pos depth) hwithin'
  intro o ho
  rw [grow] at ho
  rcases List.mem_append.mp (hos ▸ ho) with ho | ho
  · exact .inl ⟨o, ho, fun _ h => h⟩
  · refine .inr fun hmet => meaning_and_of_isMet hfaithful (hall o ho).1 hmet ?_
    exact (hall o ho).2.resolve_left id hmet

/-- A NONE that forks leads back by its own meaning. -/
theorem leadsBack_none {nodes : List Node} {outcome : Option Outcome}
    (hsound : ∀ n ∈ nodes, n.IsSound k.registry) (hnodup : (fieldsOf nodes).Nodup)
    (hfaithful : (condition .none nodes outcome).IsFaithful k false) :
    (condition .none nodes outcome).LeadsBack k := by
  intro parent depth g htrace hparent hwithin
  obtain ⟨hfew, hforks, hown⟩ : (parent = some Branch.and ∨ (directs nodes).length ≤ 1) ∧
      haveFork nodes = false ∧ (condition .none nodes outcome).ownMeaning false = true := by
    cases htrace with | none hfew hforks hown => exact ⟨hfew, hforks, hown⟩
  have hfork : Growth.isFork .none parent = true := by
    rcases parent with _ | _ | _ | _ <;> first | rfl | cases hparent
  have hfew' := hfew.resolve_left fun h => by
    rw [h] at hparent
    cases hparent
  have hmeaning : ∀ {o : Alternative},
      (condition .none nodes outcome).literals k.registry false ⊆ o → o.isMet k = true →
        (condition .none nodes outcome).meaning (Constraint.holds k) = true := fun hsubset hmet =>
    (meaning_eq_ownMeaning rfl hfaithful (Alternative.isMet_of_subset hsubset hmet)).trans hown
  rcases alternatives_grow_none hsound hnodup hforks hfew' hfork hwithin depth with h | h
  · exact h.leads (hmeaning fun _ h => h)
  · intro o ho
    rcases List.mem_append.mp (h ▸ ho) with ho | ho
    · exact .inl ⟨o, ho, fun _ h => h⟩
    · rw [List.mem_singleton.mp ho]
      exact .inr (hmeaning (List.subset_append_right _ _))

/-- The constraints of an OR lead back to it. -/
theorem leads_attachTable_or {nodes : List Node} {outcome : Option Outcome}
    (hsound : ∀ n ∈ nodes, n.IsSound k.registry) (hnodup : (fieldsOf nodes).Nodup)
    (hfaithful : (condition .or nodes outcome).IsFaithful k false) {g : Growth}
    (hwithin : g.Within (Apart (fieldsOf nodes))) (parent : Option Branch) (depth : Nat) :
    g.Leads k (g.attachTable .or parent depth ((directs nodes).map (literal k.registry false)))
      ((condition .or nodes outcome).meaning (Constraint.holds k) = true) := by
  have hmeaning : ∀ c ∈ directs nodes, ∀ {o : Alternative}, literal k.registry false c ∈ o →
      o.isMet k = true → (condition .or nodes outcome).meaning (Constraint.holds k) = true :=
    fun c hc _ hmem hmet => meaning_or_of_isMet hfaithful hc hmem hmet
  cases parent with
  | none =>
    intro o ho
    rw [Growth.alternatives_attachTable_root] at ho
    rcases List.mem_append.mp ho with ho | ho
    · exact .inl ⟨o, ho, fun _ h => h⟩
    · obtain ⟨e, he, rfl⟩ := List.mem_map.mp ho
      obtain ⟨c, hc, rfl⟩ := List.mem_map.mp he
      exact .inr (hmeaning c hc (List.mem_singleton.mpr rfl))
  | some parent =>
    have hfork : Growth.isFork .or (some parent) = false := by cases parent <;> rfl
    have hextends := extends_attachTable_directs hsound hnodup hfork (Growth.Within.last hwithin)
      depth false
    cases hd : directs nodes with
    | nil => exact .refl g
    | cons c rest =>
      rw [← hd]
      have hc : c ∈ directs nodes := hd ▸ List.mem_cons_self ..
      exact hextends.leads (hmeaning c hc (List.mem_map.mpr ⟨c, hc, rfl⟩))

/-- An OR leads back by any of its constraints, and by what leads back below it. -/
theorem leadsBack_or {nodes : List Node} {outcome : Option Outcome}
    (hsound : ∀ n ∈ nodes, n.IsSound k.registry) (hnodup : (fieldsOf nodes).Nodup)
    (hfaithful : (condition .or nodes outcome).IsFaithful k false)
    (hleads : ∀ n ∈ nested nodes, n.LeadsBack k) : (condition .or nodes outcome).LeadsBack k := by
  intro parent depth g htrace hparent hwithin
  have htraces : ∀ n ∈ nodes, n.IsTraceable false (some .or) := by
    cases htrace with | or htraces => exact htraces
  rw [grow, gather_nil_eq hsound hnodup, ← growAll_nested]
  refine (leads_attachTable_or hsound hnodup hfaithful hwithin parent depth).trans ?_
  exact leads_growAll rfl (fun n hn => hsound n (List.mem_filter.mp hn).1)
    (nodup_fieldsOf_iff.mp hnodup).2.1 hleads (isTraceable_of_nested htraces)
    (fun n hn => meaning_or_of_nested outcome hn)
    (within_attachTable_directs hsound hnodup hwithin .or parent depth false)

/-- **What grows from a traceable root leads back to it.** -/
theorem leadsBack {n : Node} (hcondition : n.isCondition = true) (hsound : n.IsSound k.registry)
    (hnodup : n.fields.Nodup) (hfaithful : n.IsFaithful k false) : n.LeadsBack k := by
  induction n, hcondition using condition_induction with
  | condition b nodes outcome ih =>
    have hnodes : ∀ n ∈ nodes, n.IsSound k.registry := by cases hsound with | condition h => exact h
    cases b with
    | and => exact leadsBack_and hnodes hnodup hfaithful
    | or =>
      refine leadsBack_or hnodes hnodup hfaithful fun n hn => ?_
      have hmem : n ∈ nodes := (List.mem_filter.mp hn).1
      exact ih n hn (hnodes n hmem)
        (nodup_fields_of_mem (nodup_fieldsOf_iff.mp hnodup).2.1 hn) (hfaithful.of_mem hmem)
    | none => exact leadsBack_none hnodes hnodup hfaithful

end Node

/-! ## Rules of equalities -/

/-- A constraint that a field equals a scalar, or that it does not. -/
structure Constraint.IsEquality (c : Constraint) : Prop where
  operator : c.operator = .str "equals" ∨ c.operator = .str "not-equals"
  isScalar : c.value.isScalar = true
  isReference : c.value.isReference = false

theorem Constraint.IsEquality.of_int (field message : Value) (i : Int) :
    IsEquality ⟨field, .str "equals", some (.int i), message⟩ := ⟨.inl rfl, rfl, rfl⟩

theorem Constraint.IsEquality.isLiteral {c : Constraint} (h : c.IsEquality) : c.IsLiteral :=
  .of_isScalar h.isReference h.isScalar

theorem Constraint.IsEquality.isNegatable {c : Constraint} (h : c.IsEquality) (now : DateTime) :
    c.IsNegatable now :=
  ⟨"equals", "not-equals", Operator.isInversePair_equals now, h.operator⟩

/-- Equality decides on any two values. -/
theorem Constraint.IsEquality.decides {c : Constraint} (h : c.IsEquality) (now : DateTime)
    (criteria : Value) : c.Decides ⟨.builtIn now, criteria⟩ := by
  intro o criterion value ho _ _
  obtain ⟨p, n, hp, hn, hdecides⟩ := (Operator.isInversePair_equals now).negated.1.decides
  have hequal : p.test criterion value = .ok (criterion.equal value) := by
    rw [← Option.some.inj ((Operator.find?_equals now).symm.trans hp)]
    rfl
  rcases h.operator with hoperator | hoperator
  · rw [Option.some.inj (ho.symm.trans (hoperator ▸ hp))]
    exact ⟨_, hequal⟩
  · rw [Option.some.inj (ho.symm.trans (hoperator ▸ hn))]
    exact ⟨_, hdecides _ _ _ hequal⟩

/-- A condition of equalities on distinct fields, all of them judged, leads back. -/
theorem Node.leadsBack_of_isEquality {now : DateTime} {criteria : Value} {n : Node}
    (hcondition : n.isCondition = true) (hsound : n.IsSound (.builtIn now)) (hnodup : n.fields.Nodup)
    (hequality : ∀ c ∈ n.constraints, c.IsEquality)
    (hjudged : ∀ c ∈ n.constraints, ∃ r, c.judge ⟨.builtIn now, criteria⟩ = .ok r) :
    n.LeadsBack ⟨.builtIn now, criteria⟩ := by
  have hnegatable : ∀ p ∈ n.polarities false, p.1 = true → p.2.IsNegatable now := fun p hp _ =>
    (hequality p.2 (polarities_snd false n ▸ List.mem_map_of_mem hp)).isNegatable now
  exact leadsBack hcondition hsound hnodup
    (isFaithful_of_isSound hsound (fun c hc => (hequality c hc).isLiteral) hnegatable hjudged)

namespace RuleSource

variable {now : DateTime}

/-- **Criteria that meet an alternative of an outcome make one of its roots pass**, for valid
granular rules of equalities on distinct fields whose roots are traceable — or a constraint meets
the limit on digits. -/
theorem introspect_leads_back {v : Value} {rule : Rule}
    (hvalid : Validator.validate (.builtIn now) v = .ok none)
    (hread : Rule.ofValue? v = some rule) (hgranular : rule.isGranular = true)
    (hequality : ∀ c ∈ rule.constraints, c.IsEquality)
    (hnodup : (rule.constraints.map Constraint.field).Nodup)
    (htrace : ∀ n ∈ rule.conditions, n.IsTraceable false none) :
    ∃ i, (RuleSource.document v).introspect (.builtIn now) = .ok i ∧
      i.ranges.map CriteriaRange.outcome = Introspection.outcomes rule.conditions ∧
      ∀ range ∈ i.ranges, ∀ a ∈ range.alternatives, ∀ criteria : Value,
        a.isMet ⟨.builtIn now, criteria⟩ = true →
        (∃ n ∈ Introspection.rootsOf rule.conditions range.outcome,
          ∃ r, n.judge ⟨.builtIn now, criteria⟩ = .ok r ∧ r.judgement.passed = true) ∨
        ∃ c ∈ rule.constraints, ∃ f, c.judge ⟨.builtIn now, criteria⟩ = .error f ∧
          f.isDigitLimit = true := by
  obtain ⟨i, hi, houtcomes, hranges⟩ := introspect_grown hvalid hread hgranular
  refine ⟨i, hi, houtcomes, fun range hrange a ha criteria hmet => ?_⟩
  have hdecides : ∀ c ∈ rule.constraints, c.Decides ⟨.builtIn now, criteria⟩ := fun c hc =>
    (hequality c hc).decides now criteria
  -- Unless the limit on digits is met every constraint is judged, and passing is meaning.
  refine (Constraint.judged_or_stopsAtDigits hdecides).imp_left fun hjudged => ?_
  obtain ⟨⟨steps, halternatives⟩, hsound⟩ := hranges range hrange
  have hconstraints : ∀ n ∈ Introspection.rootsOf rule.conditions range.outcome,
      ∀ c ∈ n.constraints, c ∈ rule.constraints := fun n hn c hc =>
    Node.mem_constraintsOf.mpr ⟨n, (hsound n hn).1, hc⟩
  have hfields : (Node.fieldsOf (Introspection.rootsOf rule.conditions range.outcome)).Nodup :=
    hnodup.sublist (Node.fieldsOf_sublist List.filter_sublist)
  have hleads : ∀ n ∈ Introspection.rootsOf rule.conditions range.outcome,
      n.LeadsBack ⟨.builtIn now, criteria⟩ := fun n hn =>
    Node.leadsBack_of_isEquality (hsound n hn).2.1 (hsound n hn).2.2
      (Node.nodup_fields_of_mem hfields hn) (fun c hc => hequality c (hconstraints n hn c hc))
      fun c hc => hjudged c (hconstraints n hn c hc)
  have hgoal : ∀ n ∈ Introspection.rootsOf rule.conditions range.outcome,
      n.meaning (Constraint.holds ⟨.builtIn now, criteria⟩) = true →
      ∃ n ∈ Introspection.rootsOf rule.conditions range.outcome,
        ∃ r, n.judge ⟨.builtIn now, criteria⟩ = .ok r ∧ r.judgement.passed = true :=
    fun n hn hmeaning => ⟨n, hn, (Node.exists_passed_iff_meaning (hsound n hn).2.1
      fun c hc => hjudged c (hconstraints n hn c hc)).mpr hmeaning⟩
  rcases Node.leads_growAll (k := ⟨.builtIn now, criteria⟩) (g := ⟨[], steps⟩) rfl
    (fun n hn => (hsound n hn).2.2) hfields hleads (fun n hn => htrace n (hsound n hn).1) hgoal
    nofun a (halternatives ▸ ha) with ⟨old, hold, _⟩ | hpassed
  · -- the range was empty before the first root
    cases hold
  · exact hpassed hmet

/-- An OR of a constraint, a NONE, and an AND above an OR in which two conditions fork, and criteria
that meet the alternative of the last one. -/
theorem introspect_leads_back_of_forks :
    let now := DateTime.epoch
    let is (field : String) (i : Int) : Node :=
      .constraint ⟨.str field, .str "equals", some (.int i), .null⟩
    let join (b : Branch) (nodes : List Node) : Node := .condition b nodes none
    let rule : Rule := ⟨[.condition .or [is "a" 1, join .none [is "b" 2],
      join .and [is "c" 3, join .or [is "d" 4, join .and [is "e" 5], join .and [is "f" 6]]]]
      (some ⟨.place [0], .str "yes", .null⟩)], none⟩
    let v := rule.toValue
    let k : Setting := ⟨.builtIn now, .ofFields [("c", .int 3), ("e", .int 5), ("b", .int 2)]⟩
    (Validator.validate (.builtIn now) v = .ok none ∧ Rule.ofValue? v = some rule ∧
      rule.isGranular = true ∧ (∀ c ∈ rule.constraints, c.IsEquality) ∧
      (rule.constraints.map Constraint.field).Nodup ∧
      ∀ n ∈ rule.conditions, n.IsTraceable false none) ∧
    ∃ i, (RuleSource.document v).introspect (.builtIn now) = .ok i ∧ ∃ range ∈ i.ranges,
      (∃ a ∈ range.alternatives, a.isMet k = true) ∧
      ∃ n ∈ Introspection.rootsOf rule.conditions range.outcome,
        ∃ r, n.judge k = .ok r ∧ r.judgement.passed = true := by
  intro now is join rule v k
  have hchecked : ∀ c ∈ rule.constraints,
      (Validator.checkConstraint (.builtIn now) c.toValue).isFine = true ∧
        (c.judge k).toOption.isSome = true := by decide +kernel
  obtain ⟨hvalid, hread⟩ : Validator.validate (.builtIn now) v = .ok none ∧
      Rule.ofValue? v = some rule :=
    Rule.valid_toValue (List.cons_ne_nil _ _) (List.forall_mem_singleton.mpr rfl) rfl rfl
      fun c hc => (hchecked c hc).1
  have hequality : ∀ c ∈ rule.constraints, c.IsEquality := by
    simp [rule, is, join, Rule.constraints, Node.constraintsOf, Node.constraints,
      Constraint.IsEquality.of_int]
  have hnodup : (rule.constraints.map Constraint.field).Nodup := by
    simp [rule, is, join, Rule.constraints, Node.constraintsOf, Node.constraints]
  have htrace : ∀ n ∈ rule.conditions, n.IsTraceable false none := by
    refine List.forall_mem_singleton.mpr (.or ?_)
    refine List.forall_mem_cons.mpr ⟨.constraint _, List.forall_mem_cons.mpr ⟨?_,
      List.forall_mem_singleton.mpr ?_⟩⟩
    · exact .none (.inr (Nat.le_refl 1)) rfl rfl
    · refine .and (fun _ => Nat.le_refl 1) (List.forall_mem_cons.mpr ⟨.constraint _,
        List.forall_mem_singleton.mpr (.forks (List.cons_ne_nil _ _) ?_)⟩)
      have hleaf : ∀ field i, (join .and [is field i]).IsTraceable true (some .or) := fun _ _ =>
        .and nofun (List.forall_mem_singleton.mpr (.constraint _))
      exact List.forall_mem_cons.mpr ⟨.constraint _, List.forall_mem_cons.mpr ⟨hleaf _ _,
        List.forall_mem_singleton.mpr (hleaf _ _)⟩⟩
  have hjudged : ∀ c ∈ rule.constraints, ∃ r, c.judge k = .ok r := fun c hc =>
    Except.exists_eq_ok_of_isSome (hchecked c hc).2
  obtain ⟨i, hi, _, hranges⟩ := introspect_leads_back hvalid hread rfl hequality hnodup htrace
  have hmet : ∃ range ∈ Introspection.grown (.builtIn now) rule.conditions
      (Introspection.outcomes rule.conditions) [], ∃ a ∈ range.alternatives,
        a.isMet k = true := by decide
  obtain ⟨range, hrange, a, ha, hmet⟩ := hmet
  obtain ⟨i', hi', hgrown⟩ := introspect_eq hvalid hread rfl
  obtain rfl : i = i' := Except.ok.inj (hi.symm.trans hi')
  have hrange := hgrown ▸ hrange
  exact ⟨⟨hvalid, hread, rfl, hequality, hnodup, htrace⟩, i, hi, range, hrange, ⟨a, ha, hmet⟩,
    (hranges range hrange a ha _ hmet).resolve_right (Constraint.not_stops_of_judged hjudged)⟩

/-- **None of the restrictions on traceable roots can be dropped**: two constraints under a NONE, a
fork below a NONE, a NONE whose own meaning is false, two conditions under an AND of which one
forks, an OR below an AND that forks without a constraint, and one whose own meaning is false. -/
theorem introspect_misleads :
    let now := DateTime.epoch
    let is (field : String) (i : Int) : Node :=
      .constraint ⟨.str field, .str "equals", some (.int i), .null⟩
    let join (b : Branch) (nodes : List Node) : Node := .condition b nodes none
    let rule (b : Branch) (nodes : List Node) : Rule :=
      ⟨[.condition b nodes (some ⟨.place [0], .str "yes", .null⟩)], none⟩
    ∀ p ∈ [
      (rule .none [is "a" 1, is "b" 2], [("a", .int 0), ("b", .int 2)]),
      (rule .none [join .or [is "a" 1, join .and [is "b" 2]]], [("a", .int 0), ("b", .int 2)]),
      (rule .none [join .none [is "a" 1]], [("a", .int 0)]),
      (rule .and [join .or [is "a" 1, join .and [is "b" 2]], join .or [is "c" 3]],
        [("a", .int 1)]),
      (rule .and [is "a" 1, join .or [join .and [is "b" 2], join .and [is "c" 3]]],
        [("a", .int 1)]),
      (rule .and [is "a" 1, join .or []], [("a", .int 1)])],
    ∃ v k, k = Setting.mk (.builtIn now) (.ofFields p.2) ∧
      Validator.validate (.builtIn now) v = .ok none ∧ Rule.ofValue? v = some p.1 ∧
      p.1.isGranular = true ∧ (∀ c ∈ p.1.constraints, c.IsEquality) ∧
      (p.1.constraints.map Constraint.field).Nodup ∧
      (∀ c ∈ p.1.constraints, ∃ r, c.judge k = .ok r) ∧
      ∃ i, (RuleSource.document v).introspect (.builtIn now) = .ok i ∧ ∃ range ∈ i.ranges,
        ∃ a ∈ range.alternatives, a.isMet k = true ∧
          ¬ ∃ n ∈ Introspection.rootsOf p.1.conditions range.outcome,
            ∃ r, n.judge k = .ok r ∧ r.judgement.passed = true := by
  intro now is join rule p hp
  have hgap : ∃ range ∈ Introspection.grown (.builtIn now) p.1.conditions
      (Introspection.outcomes p.1.conditions) [], ∃ a ∈ range.alternatives,
      a.isMet ⟨.builtIn now, .ofFields p.2⟩ = true ∧
      ∀ n ∈ Introspection.rootsOf p.1.conditions range.outcome, n.isCondition = true ∧
        n.meaning (Constraint.holds ⟨.builtIn now, .ofFields p.2⟩) = false := by
    revert p
    decide
  have hchecked : ∀ c ∈ p.1.constraints,
      (Validator.checkConstraint (.builtIn now) c.toValue).isFine = true ∧
        (c.judge ⟨.builtIn now, .ofFields p.2⟩).toOption.isSome = true := by
    revert p
    decide
  have hshape : (p.1.conditions ≠ [] ∧ (∀ n ∈ p.1.conditions, n.isCondition = true) ∧
      Node.areProper p.1.conditions = true ∧ p.1.placed = p.1 ∧ p.1.isGranular = true) ∧
      (∀ c ∈ p.1.constraints, c.IsEquality) ∧ (p.1.constraints.map Constraint.field).Nodup := by
    simp only [List.mem_cons, List.not_mem_nil, or_false] at hp
    rcases hp with rfl | rfl | rfl | rfl | rfl | rfl <;>
      refine ⟨⟨List.cons_ne_nil _ _, List.forall_mem_singleton.mpr rfl, rfl, rfl, rfl⟩, ?_, ?_⟩ <;>
      simp [rule, is, join, Rule.constraints, Node.constraintsOf, Node.constraints,
        Constraint.IsEquality.of_int]
  obtain ⟨⟨hsome, hconditions, hproper, hplaced, hgranular⟩, hequality, hnodup⟩ := hshape
  obtain ⟨hvalid, hread⟩ : Validator.validate (.builtIn now) p.1.toValue = .ok none ∧
      Rule.ofValue? p.1.toValue = some p.1 :=
    Rule.valid_toValue hsome hconditions hproper hplaced fun c hc => (hchecked c hc).1
  have hjudged : ∀ c ∈ p.1.constraints, ∃ r, c.judge ⟨.builtIn now, .ofFields p.2⟩ = .ok r :=
    fun c hc => Except.exists_eq_ok_of_isSome (hchecked c hc).2
  obtain ⟨i, hi, hranges⟩ := introspect_eq hvalid hread hgranular
  obtain ⟨range, hrange, a, ha, hmet, hfails⟩ := hgap
  refine ⟨_, _, rfl, hvalid, hread, hgranular, hequality, hnodup, hjudged, i, hi, range,
    hranges ▸ hrange, a, ha, hmet, ?_⟩
  rintro ⟨n, hn, hpassed⟩
  obtain ⟨hcondition, hmeaning⟩ := hfails n hn
  rw [Node.exists_passed_iff_meaning hcondition fun c hc => hjudged c
    (Node.mem_constraintsOf.mpr ⟨n, Introspection.mem_of_mem_rootsOf hn, hc⟩), hmeaning] at hpassed
  cases hpassed

end RuleSource

end Verdict
