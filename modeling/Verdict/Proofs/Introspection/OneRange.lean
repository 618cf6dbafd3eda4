import Verdict.Proofs.Introspection.Explored
import Verdict.Proofs.Rule.Identity

/-!
# Proofs/Introspection/OneRange — one range for each outcome

    roots   n₁ : o   n₂ : o'   n₃ : o   …        told apart by origin
    ranges  o : n₁, n₃, …      o' : n₂, …        in order of the first root

Introspection gives one range for each origin of a root's outcome, explored from nothing by the roots
of this outcome and by no others (`Introspection.exists_explored_of_mem`), so all its fields are
theirs (`Exploration.within_exploreRoots`); the origins are those of the result objects in the
document (`RuleSource.introspect_by_identity`).
-/

namespace Verdict

/-! ## Fields of any kind -/

namespace Alternative

variable {F : Value → Prop}

theorem Within.withConstraint {a a' : Alternative} {c : Constraint} {operator : Value} {b : Branch}
    (h : a.withConstraint c operator b = .ok a') (ha : a.Within F) (hc : F c.field) :
    a'.Within F := by
  have hone : ∀ v, Within F [(c.field, v)] := fun v => List.forall_mem_singleton.mpr hc
  unfold Alternative.withConstraint at h
  split at h
  · cases h
  · split at h
    · cases h
      exact ha.put hc _
    · obtain ⟨plain, _, rfl⟩ := Except.map_eq_ok_iff.mp h
      dsimp only
      split
      · exact hone _
      · exact List.forall_mem_append.mpr ⟨ha, hone _⟩

theorem Within.merge {as : List Alternative} (h : ∀ a ∈ as, a.Within F) :
    (Alternative.merge as).Within F := by
  have hfold : ∀ {as : List Alternative} {target : Alternative}, target.Within F →
      (∀ a ∈ as, a.Within F) → (as.foldl Alternative.mergeInto target).Within F := fun {as} => by
    induction as with
    | nil => exact fun ht _ => ht
    | cons a rest ih =>
      intro target ht h
      obtain ⟨ha, hrest⟩ := List.forall_mem_cons.mp h
      exact ih (ht.mergeInto ha) hrest
  exact hfold (fun e he => by cases he) h

end Alternative

namespace Exploration

variable {r : Registry} {F : Value → Prop}

/-- All fields of all alternatives that are collected have a property. -/
def ByField.Within (F : Value → Prop) (sofar : ByField) : Prop := ∀ e ∈ sofar, e.2.Within F

theorem ByField.Within.find? {field : Value} : ∀ {sofar : ByField}, sofar.Within F →
    ((ByField.find? field sofar).getD []).Within F
  | [], _ => fun e he => by cases he
  | (f, a) :: rest, h => by
    obtain ⟨ha, hrest⟩ := List.forall_mem_cons.mp h
    rw [ByField.find?]
    split
    · exact ha
    · exact ByField.Within.find? hrest

theorem ByField.Within.put {field : Value} {a : Alternative} (ha : a.Within F) :
    ∀ {sofar : ByField}, sofar.Within F → (sofar.put field a).Within F
  | [], _ => List.forall_mem_singleton.mpr ha
  | (f, b) :: rest, h => by
    obtain ⟨hb, hrest⟩ := List.forall_mem_cons.mp h
    rw [ByField.put]
    split
    · exact List.forall_mem_cons.mpr ⟨ha, hrest⟩
    · exact List.forall_mem_cons.mpr ⟨hb, ByField.Within.put ha hrest⟩

/-- Collecting brings in no field but those of the constraints. -/
theorem within_collect {b : Branch} {negated : Bool} : ∀ {nodes : List Node},
    (∀ c ∈ Node.directs nodes, F c.field) → ∀ {sofar sofar' : ByField} {f f' : Findings},
      collect r b negated nodes sofar f = .ok (sofar', f') → sofar.Within F → sofar'.Within F
  | [], _, _, _, _, _, h, hsofar => by
    cases h
    exact hsofar
  | .constraint c :: rest, hfields, sofar, _, f, _, h, hsofar => by
    obtain ⟨hc, hrest⟩ := List.forall_mem_cons.mp hfields
    obtain ⟨⟨operator, f₁⟩, _, h⟩ := Except.bind_eq_ok_iff.mp h
    obtain ⟨a, ha, h⟩ := Except.bind_eq_ok_iff.mp h
    exact within_collect hrest h (hsofar.put (.withConstraint ha hsofar.find? hc))
  | .condition .. :: rest, hfields, _, _, _, _, h, hsofar =>
    have hrest : ∀ c ∈ Node.directs rest, F c.field := hfields
    within_collect hrest h hsofar
  | .invalid _ :: rest, hfields, _, _, _, _, h, hsofar =>
    have hrest : ∀ c ∈ Node.directs rest, F c.field := hfields
    within_collect hrest h hsofar

theorem attach_eq_of_ok {g g' : Growth} {b : Branch} {parent : Option Branch} {depth : Nat}
    {a : Alternative} (h : attach g b parent depth a = .ok g') : g' = g.attach b parent depth a := by
  unfold attach at h
  dsimp only at h
  split at h
  · obtain ⟨_, _, rfl⟩ := Except.map_eq_ok_iff.mp h
    rfl
  · cases h
    rfl

theorem within_attachAll {b : Branch} {parent : Option Branch} {depth : Nat} :
    ∀ {as : List Alternative} {g g' : Growth}, attachAll b parent depth as g = .ok g' →
      (∀ a ∈ as, a.Within F) → g.Within F → g'.Within F
  | [], _, _, h, _, hg => by
    cases h
    exact hg
  | a :: rest, g, _, h, has, hg => by
    obtain ⟨ha, hrest⟩ := List.forall_mem_cons.mp has
    obtain ⟨g₁, hattach, h⟩ := Except.bind_eq_ok_iff.mp h
    obtain rfl := attach_eq_of_ok hattach
    exact within_attachAll h hrest (hg.attach ha b parent depth)

theorem within_populate {b : Branch} {parent : Option Branch} {depth : Nat} {negated : Bool}
    {nodes : List Node} {e e' : Exploration}
    (h : populate r b parent depth negated nodes e = .ok e')
    (hfields : ∀ c ∈ Node.directs nodes, F c.field) (he : e.growth.Within F) :
    e'.growth.Within F := by
  obtain ⟨⟨byField, f⟩, hcollect, h⟩ := Except.bind_eq_ok_iff.mp h
  obtain ⟨g, hattach, h⟩ := Except.bind_eq_ok_iff.mp h
  cases h
  have hnone : ByField.Within F [] := fun e he => by cases he
  have hcollected : ∀ a ∈ byField.map Prod.snd, a.Within F :=
    List.forall_mem_map.mpr (within_collect hfields hcollect hnone)
  refine within_attachAll hattach ?_ he
  split
  · exact List.forall_mem_singleton.mpr (.merge hcollected)
  · exact hcollected

mutual

theorem within_explore {parent : Option Branch} {depth : Nat} {inNone : Bool} : ∀ {n : Node}
    {e e' : Exploration}, explore r parent depth inNone n e = .ok e' →
      (∀ c ∈ n.constraints, F c.field) → e.growth.Within F → e'.growth.Within F
  | .condition b nodes _, e, e', h, hfields, he => by
    rw [Node.constraints] at hfields
    rw [explore] at h
    obtain ⟨e₁, hpopulate, h⟩ := Except.bind_eq_ok_iff.mp h
    have hdirects : ∀ c ∈ Node.directs nodes, F c.field := fun c hc =>
      hfields c (Node.directs_subset nodes hc)
    exact within_exploreNodes h hfields (within_populate hpopulate hdirects he)
  | .constraint _, e, e', h, _, he => by
    rw [explore] at h
    cases h
    exact he
  | .invalid _, e, e', h, _, he => by
    rw [explore] at h
    cases h
    exact he

theorem within_exploreNodes {parent : Branch} {depth : Nat} {inNone : Bool} :
    ∀ {nodes : List Node} {e e' : Exploration},
      exploreNodes r parent depth inNone nodes e = .ok e' →
      (∀ c ∈ Node.constraintsOf nodes, F c.field) → e.growth.Within F → e'.growth.Within F
  | [], e, e', h, _, he => by
    rw [exploreNodes] at h
    cases h
    exact he
  | n :: rest, e, e', h, hfields, he => by
    rw [Node.constraintsOf, List.forall_mem_append] at hfields
    rw [exploreNodes] at h
    obtain ⟨e₁, hn, h⟩ := Except.bind_eq_ok_iff.mp h
    exact within_exploreNodes h hfields.2 (within_explore hn hfields.1 he)

end

/-- **Exploring roots brings in no field but theirs**, whatever kind of value it is. -/
theorem within_exploreRoots : ∀ {roots : List Node} {e e' : Exploration},
    exploreRoots r roots e = .ok e' → (∀ c ∈ Node.constraintsOf roots, F c.field) →
      e.growth.Within F → e'.growth.Within F
  | [], _, _, h, _, he => by
    cases h
    exact he
  | n :: rest, _, _, h, hfields, he => by
    rw [Node.constraintsOf, List.forall_mem_append] at hfields
    obtain ⟨e₁, hn, h⟩ := Except.bind_eq_ok_iff.mp h
    exact within_exploreRoots h hfields.2 (within_explore hn hfields.1 he)

end Exploration

/-! ## Ranges -/

namespace Introspection

variable {r : Registry} {roots : List Node}

/-- A range is explored from nothing by some roots, after whatever was explored before. -/
def IsExplored (r : Registry) (roots : List Node) (range : CriteriaRange) : Prop :=
  ∃ steps f e, Exploration.exploreRoots r roots ⟨⟨[], steps⟩, f⟩ = .ok e ∧
    range.alternatives = e.growth.alternatives

/-- Ranges are on the fields of the roots that explore them. -/
theorem IsExplored.exists_field {range : CriteriaRange} (h : IsExplored r roots range) :
    ∀ a ∈ range.alternatives, ∀ e ∈ a, ∃ c ∈ Node.constraintsOf roots, c.field = e.1 := by
  obtain ⟨steps, f, explored, hexplore, halternatives⟩ := h
  have hwithin : explored.growth.Within fun field =>
      ∃ c ∈ Node.constraintsOf roots, c.field = field :=
    Exploration.within_exploreRoots hexplore (fun c hc => ⟨c, hc, rfl⟩) fun a ha => by cases ha
  rw [halternatives]
  exact hwithin

/-- **Each outcome has a range, explored by its own roots.** -/
theorem explored_rangesOf : ∀ {os : List Outcome} {steps : List Step} {f f' : Findings}
    {ranges : List CriteriaRange}, rangesOf r roots os steps f = .ok (ranges, f') →
      ranges.map CriteriaRange.outcome = os ∧
        ∀ range ∈ ranges, IsExplored r (rootsOf roots range.outcome) range
  | [], _, _, _, _, h => by
    cases h
    exact ⟨rfl, fun range hrange => by cases hrange⟩
  | o :: rest, steps, f, _, _, h => by
    obtain ⟨e, hexplore, h⟩ := Except.bind_eq_ok_iff.mp h
    obtain ⟨⟨later, f₁⟩, hlater, h⟩ := Except.bind_eq_ok_iff.mp h
    cases h
    obtain ⟨houtcomes, hexplored⟩ := explored_rangesOf hlater
    exact ⟨congrArg (o :: ·) houtcomes,
      List.forall_mem_cons.mpr ⟨⟨steps, f, e, hexplore, rfl⟩, hexplored⟩⟩

end Introspection

/-- A constraint on a text with an operator that can be read. -/
def Constraint.IsExplorable (c : Constraint) : Prop :=
  (∃ name, c.field = .str name) ∧ c.IsReadable

namespace RuleSource

variable {r : Registry} {s : RuleSource} {rule : Rule}

/-- A granular rule of constraints that can be explored is introspected. -/
theorem exists_introspect_of_isExplorable (hread : s.rule? = some rule)
    (hgranular : rule.isGranular = true) (h : ∀ c ∈ rule.constraints, c.IsExplorable) :
    ∃ i, s.introspect r = .ok i := by
  obtain ⟨i, hi, _⟩ := (introspect_explored (r := r) hread hgranular fun c hc =>
    Constraint.follows_knownLinks r (h c hc).1).resolve_right
      fun ⟨_, c, hc, hstop⟩ => hstop (h c hc).2
  exact ⟨i, hi⟩

/-- **A granular rule has one range for each outcome of a root**, in the order of the first roots,
explored by the roots of this outcome — or introspection stops, and then some constraint cannot be
explored. -/
theorem introspect_ranges (hread : s.rule? = some rule) (hgranular : rule.isGranular = true) :
    (∃ i, s.introspect r = .ok i ∧
      i.ranges.map (fun range => range.outcome.origin) =
        ((rule.conditions.filterMap Node.outcome?).map Outcome.origin).eraseDups ∧
      ∀ range ∈ i.ranges, ∀ roots, roots = Introspection.rootsOf rule.conditions range.outcome →
        Introspection.IsExplored r roots range ∧
        ∀ a ∈ range.alternatives, ∀ e ∈ a, ∃ c ∈ Node.constraintsOf roots, c.field = e.1) ∨
    (∃ f, s.introspect r = .error (.fault f)) ∧ ∃ c ∈ rule.constraints, ¬ c.IsExplorable := by
  have hrun := introspect_of_isGranular hread hgranular r
  cases h : Introspection.ofRule r rule with
  | ok i =>
    obtain ⟨⟨ranges, f⟩, hranges, hi⟩ := Except.bind_eq_ok_iff.mp h
    cases hi
    obtain ⟨houtcomes, hexplored⟩ := Introspection.explored_rangesOf hranges
    refine .inl ⟨_, by rw [hrun, h]; rfl, ?_, ?_⟩
    · rw [← Introspection.origins_outcomes, ← houtcomes, List.map_map]
      rfl
    · rintro range hrange roots rfl
      exact ⟨hexplored range hrange, (hexplored range hrange).exists_field⟩
  | error f =>
    rw [h] at hrun
    refine .inr ⟨⟨f, hrun⟩, ?_⟩
    by_contra hall
    have hexplorable : ∀ c ∈ rule.constraints, c.IsExplorable := fun c hc => by
      by_contra hc'
      exact hall ⟨c, hc, hc'⟩
    obtain ⟨i, hi⟩ := exists_introspect_of_isExplorable (r := r) hread hgranular hexplorable
    cases hrun.symm.trans hi

/-- **Results are told apart by identity**: two results in a document are read as one outcome exactly
where they are one object, however equal their contents; and a granular rule has one range for each
outcome of a root, in the order of the first roots, explored by the roots of this outcome and on
their fields only — or introspection stops, and then some constraint cannot be explored. -/
theorem introspect_by_identity (r : Registry) :
    (∀ v rule, Rule.ofValue? v = some rule → ∀ s t : Rule.Slot, v.HasResult s → v.HasResult t →
      ∃ o o', rule.outcomeAt? s = some o ∧ rule.outcomeAt? t = some o' ∧
        (o.origin = o'.origin ↔ v.SameResult s t)) ∧
    ∀ (s : RuleSource) (rule : Rule), s.rule? = some rule → rule.isGranular = true →
      (∃ i, s.introspect r = .ok i ∧
        i.ranges.map (fun range => range.outcome.origin) =
          ((rule.conditions.filterMap Node.outcome?).map Outcome.origin).eraseDups ∧
        ∀ range ∈ i.ranges, ∀ roots, roots = Introspection.rootsOf rule.conditions range.outcome →
          Introspection.IsExplored r roots range ∧
          ∀ a ∈ range.alternatives, ∀ e ∈ a, ∃ c ∈ Node.constraintsOf roots, c.field = e.1) ∨
      (∃ f, s.introspect r = .error (.fault f)) ∧ ∃ c ∈ rule.constraints, ¬ c.IsExplorable := by
  refine ⟨fun v rule hread s t hs ht => ?_, fun s rule => introspect_ranges⟩
  obtain ⟨o, ho⟩ := Option.isSome_iff_exists.mp ((Rule.isSome_outcomeAt? hread s).mpr hs)
  obtain ⟨o', ho'⟩ := Option.isSome_iff_exists.mp ((Rule.isSome_outcomeAt? hread t).mpr ht)
  exact ⟨o, o', ho, ho', Rule.origin_eq_iff hread ho ho'⟩

/-- One object is the result of two roots, of the condition below another, and the default; the root
between them has an object of its own that holds the same. -/
theorem introspect_by_identity_of_shared :
    let result (mark : Mark) : Value := .object mark [("value", .str "yes")]
    let test (field : String) : Value := .ofFields [("field", .str field),
      ("operator", .str "equals"), ("value", .int 1)]
    let join (b : Branch) (items : List Value) (mark : Mark) : Value :=
      .ofFields [(b.name, .ofItems items), ("result", result mark)]
    let v : Value := .ofFields [
      ("conditions", .ofItems [join .and [test "a"] (some 0),
        join .or [test "b", join .and [test "c"] (some 0)] none, join .and [test "d"] (some 0)]),
      ("default", result (some 0))]
    ∃ rule, Rule.ofValue? v = some rule ∧ rule.isGranular = true ∧
      (∃ o o', rule.outcomeAt? (.condition [1, 1]) = some o ∧ rule.outcomeAt? .default = some o' ∧
        o.origin = o'.origin) ∧
      (∃ o o', rule.outcomeAt? (.condition [0]) = some o ∧
        rule.outcomeAt? (.condition [1]) = some o' ∧ o.origin ≠ o'.origin) ∧
      ∃ i, (RuleSource.document v).introspect (.builtIn DateTime.epoch) = .ok i ∧
        i.ranges.map (fun range => range.outcome.origin) = [.shared 0, .place [1]] := by
  intro result test join v
  obtain ⟨hresults, hranges⟩ := introspect_by_identity (.builtIn DateTime.epoch)
  have htest : ∀ place field, Node.ofValue place (test field) =
      .constraint ⟨.str field, .str "equals", some (.int 1), .null⟩ := fun place field => by
    rw [Node.ofValue_eq]
    rfl
  have hjoin : ∀ place b items mark, Node.ofValue place (join b items mark) =
      .condition b (Node.ofItems place 0 items)
        (some ⟨mark.elim (.place place) .shared, .str "yes", .null⟩) := fun place b items mark => by
    rw [Node.ofValue_eq]
    cases b <;> rfl
  obtain ⟨rule, hread⟩ : ∃ rule, Rule.ofValue? v = some rule := ⟨_, rfl⟩
  have hconditions : rule.conditions = Node.ofItems [] 0 v.conditions := by
    cases hread
    rfl
  simp only [show v.conditions = [join .and [test "a"] (some 0),
    join .or [test "b", join .and [test "c"] (some 0)] none, join .and [test "d"] (some 0)] from rfl,
    Node.ofItems, htest, hjoin] at hconditions
  have hgranular : rule.isGranular = true := by
    rw [Rule.isGranular, hconditions]
    rfl
  have hexplorable : ∀ c ∈ rule.constraints, c.IsExplorable := by
    have hleaf : ∀ field : String, Constraint.IsExplorable
        ⟨.str field, .str "equals", some (.int 1), .null⟩ := fun field =>
      ⟨⟨field, rfl⟩, rfl, "equals", rfl⟩
    rw [Rule.constraints, hconditions]
    exact List.forall_mem_cons.mpr ⟨hleaf _, List.forall_mem_cons.mpr ⟨hleaf _,
      List.forall_mem_cons.mpr ⟨hleaf _, List.forall_mem_singleton.mpr (hleaf _)⟩⟩⟩
  refine ⟨rule, hread, hgranular, ?_, ?_, ?_⟩
  · obtain ⟨o, o', ho, ho', horigin⟩ :=
      hresults v rule hread (.condition [1, 1]) .default ⟨_, _, rfl⟩ ⟨_, _, rfl⟩
    exact ⟨o, o', ho, ho', horigin.mpr (.inr ⟨0, rfl, rfl⟩)⟩
  · obtain ⟨o, o', ho, ho', horigin⟩ :=
      hresults v rule hread (.condition [0]) (.condition [1]) ⟨_, _, rfl⟩ ⟨_, _, rfl⟩
    refine ⟨o, o', ho, ho', fun heq => ?_⟩
    have hnone : (v.resultAt? (.condition [1])).bind Value.mark = none := rfl
    rcases horigin.mp heq with hslot | ⟨n, _, hn⟩
    · cases hslot
    · rw [hnone] at hn
      cases hn
  · obtain ⟨i, hi, horigins, _⟩ :=
      (hranges (.document v) rule hread hgranular).resolve_right
        fun ⟨_, c, hc, hstop⟩ => hstop (hexplorable c hc)
    rw [hconditions] at horigins
    exact ⟨i, hi, horigins⟩

/-- An operator that is an object: introspection stops, and the outcome of the root has no range. -/
theorem introspect_gives_no_range :
    let rule : Rule := ⟨[.condition .and
      [.constraint ⟨.str "a", .ofFields [], some (.int 1), .null⟩]
        (some ⟨.place [0], .int 1, .null⟩)], none⟩
    rule.isGranular = true ∧
    (rule.conditions.filterMap Node.outcome?).map Outcome.origin = [.place [0]] ∧
    ∀ i, (RuleSource.rule rule).introspect (.builtIn DateTime.epoch) ≠ .ok i := by
  intro rule
  have hstops : (RuleSource.rule rule).introspect (.builtIn DateTime.epoch) =
      .error (.fault .wrongKind) := rfl
  refine ⟨rfl, rfl, fun i hi => ?_⟩
  rw [hstops] at hi
  cases hi

end RuleSource

end Verdict
