import Verdict.Engine.Task
import Verdict.Introspection.Explore
import Verdict.Proofs.Introspection.Forkless
import Verdict.Proofs.Introspection.Grouping

/-!
# Proofs/Introspection/Explored — exploring grows a range and takes notes

    explore : Node → Exploration → Except Fault Exploration
       ║ constraints on texts, unless it stops
    grow    : Node → Growth → Growth      for the range
    notes   : Node → List Note            for the findings

Exploring constraints on texts stops only at an operator that is not **readable**: a list, an object
or an integer too long to be written.  Where it does not stop, the range depends on the range before
alone and the findings on those before alone (`Exploration.delivers_explore`); the ranges of a
granular rule are the grown ones (`RuleSource.introspect_explored`).
-/

namespace Verdict

/-! ## Results and reasons to stop -/

/-- The results of a computation have a property, and it stops for a reason only. -/
structure Delivers {α : Type} (P : α → Prop) (reason : Prop) (x : Except Fault α) : Prop where
  result : ∀ a, x = .ok a → P a
  stop : ∀ f, x = .error f → reason

namespace Delivers

variable {α β : Type} {P P' : α → Prop} {reason reason' : Prop} {x : Except Fault α}

theorem ok {a : α} (h : P a) : Delivers P reason (.ok a) :=
  ⟨fun _ heq => Except.ok.inj heq ▸ h, nofun⟩

theorem error {f : Fault} (h : reason) : Delivers P reason (.error f) := ⟨nofun, fun _ _ => h⟩

theorem mono (hx : Delivers P reason x) (hP : ∀ a, P a → P' a) (hreason : reason → reason') :
    Delivers P' reason' x := ⟨fun a h => hP a (hx.result a h), fun f h => hreason (hx.stop f h)⟩

/-- **One computation after another delivers what the second does.** -/
theorem bind {Q : β → Prop} {g : α → Except Fault β} (hx : Delivers P reason x)
    (hg : ∀ a, P a → Delivers Q reason (g a)) : Delivers Q reason (x >>= g) where
  result b hb := by
    obtain ⟨a, ha, hb⟩ := Except.bind_eq_ok_iff.mp hb
    exact (hg a (hx.result a ha)).result b hb
  stop f hf := by
    rcases Except.bind_eq_error_iff.mp hf with hf | ⟨a, ha, hf⟩
    · exact hx.stop f hf
    · exact (hg a (hx.result a ha)).stop f hf

end Delivers

/-! ## Operators in force -/

namespace Registry

/-- The operator that counts for a constraint: below a NONE the inverse, where the operator is known
and one is linked. -/
def inForce (r : Registry) (negated : Bool) (operator : Value) : Value :=
  if r.has operator then r.effective negated operator else operator

/-- The registry with the links of known operators only. -/
def knownLinks (r : Registry) : Registry :=
  { r with negations := r.negations.filter fun e => r.has (.str e.1) }

theorem inForce_of_has {r : Registry} {operator : Value} (h : r.has operator = true)
    (negated : Bool) : r.inForce negated operator = r.effective negated operator := if_pos h

theorem find?_filter_keys (p : String → Bool) (key : String) :
    ∀ entries : List (String × String), Entries.find? key (entries.filter fun e => p e.1) =
      if p key then Entries.find? key entries else none
  | [] => by simp
  | (k, a) :: rest => by
    rw [List.filter_cons]
    by_cases hk : k = key
    · subst hk
      by_cases hp : p k = true
      · simp [hp, Entries.find?_cons]
      · simp [hp, find?_filter_keys p k rest]
    · split
      · rw [Entries.find?_cons, Entries.find?_cons, if_neg hk, if_neg hk,
          find?_filter_keys p key rest]
      · rw [Entries.find?_cons, if_neg hk, find?_filter_keys p key rest]

/-- With the links of known operators only, the inverse is the operator in force. -/
theorem effective_knownLinks (r : Registry) (negated : Bool) (operator : Value) :
    r.knownLinks.effective negated operator = r.inForce negated operator := by
  have hnegation : r.knownLinks.negation? operator =
      if r.has operator then r.negation? operator else none := by
    cases operator with
    | str name => exact find?_filter_keys (fun name => r.has (.str name)) name r.negations
    | _ => exact (ite_self _).symm
  unfold inForce effective
  rw [hnegation]
  cases negated <;> cases r.has operator <;> rfl

theorem isScalar_effective (r : Registry) (negated : Bool) {operator : Value}
    (h : operator.isScalar = true) : (r.effective negated operator).isScalar = true := by
  unfold effective
  split
  · cases r.negation? operator with
    | none => exact h
    | some inverse => rfl
  · exact h

end Registry

namespace Constraint

/-- An operator that can be looked up and written: neither a list nor an object, and no integer
that is too long. -/
def IsReadable (c : Constraint) : Prop :=
  c.operator.isScalar = true ∧ ∃ text, c.operator.plain = .ok text

/-- A constraint on a text, whose operator in force is found in another registry, too. -/
structure Follows (r r' : Registry) (c : Constraint) : Prop where
  field : ∃ name, c.field = .str name
  operator : ∀ negated, r'.effective negated c.operator = r.inForce negated c.operator

theorem follows_knownLinks (r : Registry) {c : Constraint} (h : ∃ name, c.field = .str name) :
    c.Follows r r.knownLinks := ⟨h, fun negated => r.effective_knownLinks negated c.operator⟩

variable {r : Registry} {c : Constraint}

/-- A sound constraint has a registered operator. -/
theorem IsSound.follows (h : c.IsSound r) : c.Follows r r := by
  obtain ⟨name, o, hname, ho⟩ := h.operator
  refine ⟨h.field, fun negated => (Registry.inForce_of_has ?_ negated).symm⟩
  rw [Registry.has, hname, ho]
  rfl

theorem IsSound.isReadable (h : c.IsSound r) : c.IsReadable := by
  obtain ⟨name, _, hname, _⟩ := h.operator
  rw [IsReadable, hname]
  exact ⟨rfl, name, rfl⟩

end Constraint

/-! ## Notes -/

/-- What is noted of a rule. -/
inductive Note where
  | condition (depth : Nat)
  | constraint (c : Constraint)

namespace Note

/-- The depth of a condition. -/
def depth? : Note → Option Nat
  | .condition depth => some depth
  | .constraint _ => none

/-- The constraint that is noted. -/
def constraint? : Note → Option Constraint
  | .condition _ => none
  | .constraint c => some c

theorem filterMap_depth?_constraints (cs : List Constraint) :
    (cs.map Note.constraint).filterMap depth? = [] := by
  rw [List.filterMap_map]
  exact List.filterMap_eq_nil_iff.mpr fun _ _ => rfl

theorem filterMap_constraint?_constraints (cs : List Constraint) :
    (cs.map Note.constraint).filterMap constraint? = cs := by
  rw [List.filterMap_map]
  exact List.filterMap_some

end Note

namespace Node

mutual

/-- What is noted of a condition and those below it, one after another. -/
def notes (depth : Nat) : Node → List Note
  | .condition _ nodes _ =>
    .condition depth :: (directs nodes).map .constraint ++ notesOf (depth + 1) nodes
  | .constraint _ => []
  | .invalid _ => []

/-- What is noted of the conditions among nodes. -/
def notesOf (depth : Nat) : List Node → List Note
  | [] => []
  | n :: rest => notes depth n ++ notesOf depth rest

end

theorem notesOf_append (depth : Nat) : ∀ nodes nodes' : List Node,
    notesOf depth (nodes ++ nodes') = notesOf depth nodes ++ notesOf depth nodes'
  | [], _ => by rw [notesOf]; rfl
  | n :: rest, nodes' => by
    rw [List.cons_append, notesOf, notesOf, notesOf_append depth rest, List.append_assoc]

mutual

/-- **Each constraint of a condition is noted once.** -/
theorem constraints_notes (depth : Nat) : ∀ {n : Node}, n.isCondition = true →
    ((n.notes depth).filterMap Note.constraint?).Perm n.constraints
  | .condition b nodes outcome, _ => by
    have hdirects : ((notes depth (.condition b nodes outcome)).filterMap Note.constraint?) =
        directs nodes ++ (notesOf (depth + 1) nodes).filterMap Note.constraint? := by
      rw [notes, List.cons_append, List.filterMap_cons, List.filterMap_append,
        Note.filterMap_constraint?_constraints]
      rfl
    rw [hdirects, constraints]
    exact ((constraints_notesOf (depth + 1) nodes).append_left _).trans
      (constraintsOf_perm nodes).symm
  | .constraint _, h => nomatch h
  | .invalid _, h => nomatch h

theorem constraints_notesOf (depth : Nat) : ∀ nodes : List Node,
    ((notesOf depth nodes).filterMap Note.constraint?).Perm (constraintsOf (nested nodes))
  | [] => .nil
  | .condition b nodes outcome :: rest => by
    rw [notesOf, List.filterMap_append, nested_condition_cons, constraintsOf]
    exact (constraints_notes depth rfl).append (constraints_notesOf depth rest)
  | .constraint _ :: rest => by
    rw [notesOf, notes, List.nil_append, nested_constraint_cons]
    exact constraints_notesOf depth rest
  | .invalid _ :: rest => by
    rw [notesOf, notes, List.nil_append, nested_invalid_cons]
    exact constraints_notesOf depth rest

end

/-- Only conditions have outcomes. -/
theorem isCondition_of_outcome? {n : Node} (h : n.outcome?.isSome = true) :
    n.isCondition = true := by
  cases n with
  | condition => rfl
  | constraint | invalid => cases h

end Node

namespace Exploration

/-- `Noted r notes f f'`: the notes, one after another, make `f'` of the findings `f`. -/
inductive Noted (r : Registry) : List Note → Findings → Findings → Prop
  | nil {f : Findings} : Noted r [] f f
  | condition {depth : Nat} {rest : List Note} {f f' : Findings} :
      Noted r rest (f.recordCondition depth) f' → Noted r (.condition depth :: rest) f f'
  | constraint {c : Constraint} {rest : List Note} {f f₁ f' : Findings} {negated : Bool}
      {operator : Value} : effective r negated c f = .ok (operator, f₁) → Noted r rest f₁ f' →
        Noted r (.constraint c :: rest) f f'

variable {r r' : Registry} {negated : Bool} {field : Value}

theorem Noted.append {notes notes' : List Note} {f f₁ f' : Findings} (h : Noted r notes f f₁)
    (h' : Noted r notes' f₁ f') : Noted r (notes ++ notes') f f' := by
  induction h with
  | nil => exact h'
  | condition _ ih => exact .condition (ih h')
  | constraint heffective _ ih => exact .constraint heffective (ih h')

/-! ## Collecting is gathering -/

/-- The alternatives of single fields that requirements stand for. -/
def single (a : Alternative) : ByField := a.map fun e => (e.1, [e])

theorem find?_single {a : Alternative} (ha : a.IsNamed) :
    ByField.find? field (single a) = (a.find? field).map fun v => [(field, v)] := by
  induction a with
  | nil => rfl
  | cons e rest ih =>
    obtain ⟨f, v⟩ := e
    obtain ⟨⟨name, rfl⟩, hrest⟩ := List.forall_mem_cons.mp ha
    rw [single, List.map_cons, ByField.find?, Alternative.find?]
    split
    · next h => rw [Value.loosely_str_iff.mp h]; rfl
    · exact ih hrest

theorem put_single {a : Alternative} (ha : a.IsNamed) (v : Value) :
    ByField.put field [(field, v)] (single a) = single (a.put field v) := by
  induction a with
  | nil => rfl
  | cons e rest ih =>
    obtain ⟨f, w⟩ := e
    obtain ⟨⟨name, rfl⟩, hrest⟩ := List.forall_mem_cons.mp ha
    rw [single, List.map_cons, ByField.put, Alternative.put]
    split
    · next h => rw [Value.loosely_str_iff.mp h]; rfl
    · rw [← single, ih hrest]; rfl

/-- The operator in force is found, and the constraint is noted. -/
theorem delivers_effective {c : Constraint} (hc : ∃ name, c.field = .str name) (negated : Bool)
    (f : Findings) :
    Delivers (fun p => p.1 = r.inForce negated c.operator ∧ Noted r [.constraint c] f p.2)
      (¬ c.IsReadable) (effective r negated c f) := by
  obtain ⟨name, hname⟩ := hc
  cases hplain : c.operator.plain with
  | error fault =>
    have hfault : effective r negated c f = .error fault := by
      unfold effective
      rw [hname, hplain]
      rfl
    rw [hfault]
    exact .error fun ⟨_, text, htext⟩ => by cases hplain.symm.trans htext
  | ok text =>
    have hoperator : ∃ f', effective r negated c f =
        .ok (r.inForce negated c.operator, f') := by
      unfold effective Registry.inForce Registry.has Registry.effective
      rw [hname, hplain]
      cases r.find? c.operator with
      | none => exact ⟨_, rfl⟩
      | some o =>
        cases negated with
        | false => exact ⟨_, rfl⟩
        | true =>
          cases r.negation? c.operator with
          | none => exact ⟨_, rfl⟩
          | some inverse => exact ⟨_, rfl⟩
    obtain ⟨f', hf'⟩ := hoperator
    rw [hf']
    exact .ok ⟨rfl, .constraint hf' .nil⟩

/-- One more constraint in the alternative of its field. -/
theorem delivers_withConstraint {c : Constraint} (hc : ∃ name, c.field = .str name)
    (operator : Value) (b : Branch) (known : Option Value) :
    Delivers (· = [(c.field, known.elim (Alternative.entry c operator) fun v =>
        .ofItems (dedupFlatten [v, Alternative.addition c operator]))])
      (operator.isScalar = false)
      (Alternative.withConstraint ((known.map fun v => [(c.field, v)]).getD []) c operator b) := by
  obtain ⟨name, hname⟩ := hc
  have hfield : Alternative.isField c.field = true := by rw [hname]; rfl
  rw [Alternative.withConstraint, hfield, hname]
  cases known with
  | none =>
    cases operator with
    | list | object => exact .error rfl
    | _ => cases b <;> exact .ok rfl
  | some v =>
    simp only [Option.map_some, Option.getD_some, Alternative.find?_cons_self, Alternative.put,
      Value.loosely_str_iff.mpr rfl]
    exact .ok rfl

/-- What is put under the field of a constraint is what gathering requires. -/
theorem put_gatherOne {a : Alternative} (ha : a.IsNamed) {c : Constraint} (hc : c.Follows r r')
    (negated : Bool) :
    ByField.put c.field
        [(c.field, (a.find? c.field).elim (Alternative.entry c (r.inForce negated c.operator))
          fun v => .ofItems (dedupFlatten [v, Alternative.addition c
            (r.inForce negated c.operator)]))] (single a) =
      single (Alternative.gatherOne r' negated a c) := by
  rw [put_single ha, Alternative.gatherOne, hc.operator]
  cases hfind : a.find? c.field with
  | none => rw [Alternative.put_of_find?_eq_none hfind]; rfl
  | some v => rfl

/-- **Collecting constraints is gathering them.** -/
theorem delivers_collect (b : Branch) (negated : Bool) :
    ∀ {nodes : List Node}, (∀ c ∈ Node.directs nodes, c.Follows r r') →
    ∀ {a : Alternative}, a.IsTable → ∀ f : Findings,
      Delivers (fun p => p.1 = single (Alternative.gather r' negated nodes a) ∧
          Noted r ((Node.directs nodes).map .constraint) f p.2)
        (∃ c ∈ Node.directs nodes, ¬ c.IsReadable) (collect r b negated nodes (single a) f)
  | [], _, a, _, f => .ok ⟨rfl, .nil⟩
  | .constraint c :: rest, h, a, ha, f => by
    obtain ⟨hc, hrest⟩ := List.forall_mem_cons.mp h
    rw [collect, Alternative.gather, Node.directs, List.map_cons]
    have hreason : ¬ c.IsReadable →
        ∃ c' ∈ c :: Node.directs rest, ¬ c'.IsReadable := fun hstop =>
      ⟨c, List.mem_cons_self .., hstop⟩
    refine (((delivers_effective hc.field negated f).mono (fun _ h => h) hreason)).bind ?_
    rintro ⟨operator, f₁⟩ ⟨rfl, hnoted⟩
    dsimp only at hnoted ⊢
    rw [find?_single ha.named]
    refine ((delivers_withConstraint hc.field _ b (a.find? c.field)).mono (fun _ h => h)
      fun hscalar => hreason fun hreadable => ?_).bind ?_
    · rw [← hc.operator, Registry.isScalar_effective r' negated hreadable.1] at hscalar
      cases hscalar
    · rintro _ rfl
      rw [put_gatherOne ha.named hc]
      refine (delivers_collect b negated hrest (ha.gatherOne hc.field) f₁).mono ?_ ?_
      · exact fun p hp => ⟨hp.1, hnoted.append hp.2⟩
      · rintro ⟨c', hc', hstop⟩
        exact ⟨c', List.mem_cons_of_mem c hc', hstop⟩
  | .condition .. :: rest, h, _, ha, f =>
    have hrest : ∀ c ∈ Node.directs rest, c.Follows r r' := h
    delivers_collect b negated hrest ha f
  | .invalid _ :: rest, h, _, ha, f =>
    have hrest : ∀ c ∈ Node.directs rest, c.Follows r r' := h
    delivers_collect b negated hrest ha f

/-! ## Attaching -/

theorem fieldNames_eq : ∀ {a : Alternative}, a.IsNamed →
    ∃ names, Step.fieldNames (a.map fun e => ⟨e.1, e.2⟩) = .ok names
  | [], _ => ⟨[], rfl⟩
  | (f, v) :: rest, ha => by
    obtain ⟨⟨name, rfl⟩, hrest⟩ := List.forall_mem_cons.mp ha
    obtain ⟨names, hnames⟩ := fieldNames_eq hrest
    refine ⟨name :: names, ?_⟩
    rw [List.map_cons, Step.fieldNames, hnames]
    rfl

/-- An alternative of named fields is attached without a fault. -/
theorem attach_eq {a : Alternative} (ha : a.IsNamed) (g : Growth) (b : Branch)
    (parent : Option Branch) (depth : Nat) :
    attach g b parent depth a = .ok (g.attach b parent depth a) := by
  obtain ⟨names, hnames⟩ := fieldNames_eq ha
  unfold attach Growth.attach
  split
  · rfl
  · split
    · rfl
    · simp [Growth.replaceLast, Step.summary, hnames, Except.map]

/-- Options of one field each are attached one after another. -/
theorem attachAll_eq (b : Branch) (parent : Option Branch) (depth : Nat) :
    ∀ {as : List Alternative}, (∀ a ∈ as, a.IsNamed) → ∀ g : Growth,
      attachAll b parent depth as g =
        .ok (as.foldl (fun g a => g.attach b parent depth a) g)
  | [], _, _ => rfl
  | a :: rest, h, g => by
    obtain ⟨ha, hrest⟩ := List.forall_mem_cons.mp h
    rw [attachAll, attach_eq ha g b parent depth, List.foldl_cons,
      ← attachAll_eq b parent depth hrest]
    rfl

/-- A table is attached without a fault, together under AND, else field by field. -/
theorem attachAll_single {a : Alternative} (ha : a.IsTable) (b : Branch) (parent : Option Branch)
    (depth : Nat) (g : Growth) :
    attachAll b parent depth
        (if b = .and then [Alternative.merge ((single a).map Prod.snd)]
          else (single a).map Prod.snd) g = .ok (g.attachTable b parent depth a) := by
  have hsingle : (single a).map Prod.snd = a.map fun e => [e] := by
    rw [single, List.map_map]
    rfl
  rw [hsingle, Growth.attachTable]
  by_cases hb : b = .and
  · rw [if_pos hb, if_pos hb, Alternative.merge_map_singleton ha.named ha.nodup,
      attachAll_eq b parent depth (List.forall_mem_singleton.mpr ha.named)]
    rfl
  · have hnamed : ∀ a' ∈ a.map fun e => [e], Alternative.IsNamed a' :=
      List.forall_mem_map.mpr fun e he => List.forall_mem_singleton.mpr (ha.named e he)
    rw [if_neg hb, if_neg hb, attachAll_eq b parent depth hnamed, List.foldl_map]

/-- What a condition populates a range with is what it gathers, attached. -/
theorem delivers_populate {nodes : List Node} (h : ∀ c ∈ Node.directs nodes, c.Follows r r')
    (b : Branch) (negated : Bool) (parent : Option Branch) (depth : Nat) (e : Exploration) :
    Delivers (fun e' => e'.growth =
          e.growth.attachTable b parent depth (Alternative.gather r' negated nodes []) ∧
        Noted r (.condition depth :: (Node.directs nodes).map .constraint) e.findings e'.findings)
      (∃ c ∈ Node.directs nodes, ¬ c.IsReadable) (populate r b parent depth negated nodes e) := by
  have htable : (Alternative.gather r' negated nodes []).IsTable :=
    Alternative.isTable_gather fun c hc => (h c hc).field
  rw [populate]
  refine (delivers_collect b negated h Alternative.isTable_nil
    (e.findings.recordCondition depth)).bind ?_
  rintro ⟨byField, f⟩ ⟨rfl, hnoted⟩
  dsimp only at hnoted ⊢
  rw [attachAll_single htable]
  exact .ok ⟨rfl, .condition hnoted⟩

/-! ## Exploring is growing -/

mutual

/-- **Exploring a node is growing by it and taking its notes.** -/
theorem delivers_explore (parent : Option Branch) (depth : Nat) (inNone : Bool) :
    ∀ {n : Node}, (∀ c ∈ n.constraints, c.Follows r r') → ∀ e : Exploration,
      Delivers (fun e' => e'.growth = n.grow r' parent depth inNone e.growth ∧
          Noted r (n.notes depth) e.findings e'.findings)
        (∃ c ∈ n.constraints, ¬ c.IsReadable) (explore r parent depth inNone n e)
  | .condition b nodes outcome, h, e => by
    rw [Node.constraints] at h ⊢
    rw [explore, Node.grow, Node.notes]
    have hdirects : ∀ c ∈ Node.directs nodes, c.Follows r r' := fun c hc =>
      h c (Node.directs_subset nodes hc)
    refine ((delivers_populate hdirects b (inNone || b = .none) parent depth e).mono
      (fun _ h => h) fun ⟨c, hc, hstop⟩ => ⟨c, Node.directs_subset nodes hc, hstop⟩).bind ?_
    rintro e₁ ⟨hgrowth, hnoted⟩
    refine (delivers_exploreNodes b (depth + 1) (inNone || b = .none) h e₁).mono ?_ fun h => h
    exact fun e' he' => ⟨hgrowth ▸ he'.1, hnoted.append he'.2⟩
  | .constraint _, _, e => by
    rw [explore, Node.grow, Node.notes]
    exact .ok ⟨rfl, .nil⟩
  | .invalid _, _, e => by
    rw [explore, Node.grow, Node.notes]
    exact .ok ⟨rfl, .nil⟩

theorem delivers_exploreNodes (parent : Branch) (depth : Nat) (inNone : Bool) :
    ∀ {nodes : List Node}, (∀ c ∈ Node.constraintsOf nodes, c.Follows r r') → ∀ e : Exploration,
      Delivers (fun e' => e'.growth = Node.growAll r' (some parent) depth inNone nodes e.growth ∧
          Noted r (Node.notesOf depth nodes) e.findings e'.findings)
        (∃ c ∈ Node.constraintsOf nodes, ¬ c.IsReadable)
        (exploreNodes r parent depth inNone nodes e)
  | [], _, e => by
    rw [exploreNodes, Node.growAll, Node.notesOf]
    exact .ok ⟨rfl, .nil⟩
  | n :: rest, h, e => by
    rw [Node.constraintsOf] at h ⊢
    rw [List.forall_mem_append] at h
    rw [exploreNodes, Node.growAll, Node.notesOf]
    refine ((delivers_explore (some parent) depth inNone h.1 e).mono (fun _ h => h)
      fun ⟨c, hc, hstop⟩ => ⟨c, List.mem_append_left _ hc, hstop⟩).bind ?_
    rintro e₁ ⟨hgrowth, hnoted⟩
    refine (delivers_exploreNodes parent depth inNone h.2 e₁).mono ?_
      fun ⟨c, hc, hstop⟩ => ⟨c, List.mem_append_right _ hc, hstop⟩
    exact fun e' he' => ⟨hgrowth ▸ he'.1, hnoted.append he'.2⟩

end

/-- **Exploring roots grows them and takes their notes.** -/
theorem delivers_exploreRoots : ∀ {roots : List Node},
    (∀ c ∈ Node.constraintsOf roots, c.Follows r r') → ∀ e : Exploration,
      Delivers (fun e' => e'.growth = Node.growAll r' none 0 false roots e.growth ∧
          Noted r (Node.notesOf 0 roots) e.findings e'.findings)
        (∃ c ∈ Node.constraintsOf roots, ¬ c.IsReadable) (exploreRoots r roots e)
  | [], _, e => by
    rw [Node.growAll, Node.notesOf]
    exact .ok ⟨rfl, .nil⟩
  | n :: rest, h, e => by
    rw [Node.constraintsOf] at h ⊢
    rw [List.forall_mem_append] at h
    rw [exploreRoots, Node.growAll, Node.notesOf]
    refine ((delivers_explore none 0 false h.1 e).mono (fun _ h => h)
      fun ⟨c, hc, hstop⟩ => ⟨c, List.mem_append_left _ hc, hstop⟩).bind ?_
    rintro e₁ ⟨hgrowth, hnoted⟩
    refine (delivers_exploreRoots h.2 e₁).mono ?_
      fun ⟨c, hc, hstop⟩ => ⟨c, List.mem_append_right _ hc, hstop⟩
    exact fun e' he' => ⟨hgrowth ▸ he'.1, hnoted.append he'.2⟩

end Exploration

/-! ## Ranges -/

namespace Introspection

variable {r r' : Registry} {roots : List Node}

/-- The ranges of outcomes, one after another, each grown by the roots of its outcome; steps go on
from range to range. -/
def grown (r : Registry) (roots : List Node) : List Outcome → List Step → List CriteriaRange
  | [], _ => []
  | o :: rest, steps =>
    let g := Node.growAll r none 0 false (rootsOf roots o) ⟨[], steps⟩
    ⟨o, g.alternatives⟩ :: grown r roots rest g.steps

/-- **The ranges of roots are the grown ones**, and the notes are those of one range after another. -/
theorem delivers_rangesOf (h : ∀ c ∈ Node.constraintsOf roots, c.Follows r r') :
    ∀ (os : List Outcome) (steps : List Step) (f : Findings),
      Delivers (fun p => p.1 = grown r' roots os steps ∧
          Exploration.Noted r (Node.notesOf 0 (os.flatMap (rootsOf roots))) f p.2)
        (∃ c ∈ Node.constraintsOf roots, ¬ c.IsReadable) (rangesOf r roots os steps f)
  | [], _, f => by
    rw [List.flatMap_nil, Node.notesOf]
    exact .ok ⟨rfl, .nil⟩
  | o :: rest, steps, f => by
    rw [rangesOf, List.flatMap_cons, Node.notesOf_append]
    have hsubset := constraintsOf_rootsOf_subset roots o
    refine ((Exploration.delivers_exploreRoots (fun c hc => h c (hsubset hc))
      ⟨⟨[], steps⟩, f⟩).mono (fun _ h => h)
        fun ⟨c, hc, hstop⟩ => ⟨c, hsubset hc, hstop⟩).bind ?_
    rintro e ⟨hgrowth, hnoted⟩
    refine (delivers_rangesOf h rest e.growth.steps e.findings).bind ?_
    rintro ⟨later, f'⟩ ⟨rfl, hlater⟩
    refine .ok ⟨?_, hnoted.append hlater⟩
    rw [grown, hgrowth]

/-- **Each constraint of a granular rule is noted once**, whatever the roots' outcomes. -/
theorem constraints_noted (h : ∀ n ∈ roots, n.outcome?.isSome = true) :
    ((Node.notesOf 0 ((outcomes roots).flatMap (rootsOf roots))).filterMap Note.constraint?).Perm
      (Node.constraintsOf roots) := by
  have hgrouped := grouped_perm h
  have hconditions : Node.nested ((outcomes roots).flatMap (rootsOf roots)) =
      (outcomes roots).flatMap (rootsOf roots) := List.filter_eq_self.mpr fun n hn =>
    Node.isCondition_of_outcome? (h n (hgrouped.mem_iff.mp hn))
  refine (Node.constraints_notesOf 0 _).trans ?_
  rw [hconditions, Node.constraintsOf_eq_flatMap, Node.constraintsOf_eq_flatMap]
  exact hgrouped.flatMap_right _

theorem map_outcome_grown : ∀ (os : List Outcome) (steps : List Step),
    (grown r roots os steps).map CriteriaRange.outcome = os
  | [], _ => rfl
  | o :: rest, _ => congrArg (o :: ·) (map_outcome_grown rest _)

/-- Each range grows by the roots of its outcome alone, whatever steps were taken before. -/
theorem exists_steps_of_mem_grown {range : CriteriaRange} :
    ∀ {os : List Outcome} {steps : List Step}, range ∈ grown r roots os steps →
      ∃ steps', range.alternatives =
        (Node.growAll r none 0 false (rootsOf roots range.outcome) ⟨[], steps'⟩).alternatives
  | [], _, h => nomatch h
  | o :: rest, steps, h => by
    rcases List.mem_cons.mp h with rfl | h
    · exact ⟨steps, rfl⟩
    · exact exists_steps_of_mem_grown h

/-- Constraints on texts grow alternatives on texts. -/
theorem isNamed_of_mem_grown (h : ∀ c ∈ Node.constraintsOf roots, ∃ name, c.field = .str name)
    {os : List Outcome} {steps : List Step} {range : CriteriaRange}
    (hrange : range ∈ grown r roots os steps) : ∀ a ∈ range.alternatives, a.IsNamed := by
  obtain ⟨steps', halternatives⟩ := exists_steps_of_mem_grown hrange
  have hwithin : Growth.Within (fun f => ∃ name, f = .str name)
      (Node.growAll r none 0 false (rootsOf roots range.outcome) ⟨[], steps'⟩) :=
    Node.within_growAll none 0 false (fun c hc => h c (constraintsOf_rootsOf_subset roots _ hc))
      fun a ha => by cases ha
  exact halternatives ▸ hwithin

end Introspection

namespace RuleSource

variable {r r' : Registry} {s : RuleSource} {rule : Rule}

/-- A granular rule is introspected by introspecting its roots. -/
theorem introspect_of_isGranular (hread : s.rule? = some rule)
    (hgranular : rule.isGranular = true) (r : Registry) :
    s.introspect r = Failure.ofFault (Introspection.ofRule r rule) := by
  have hrule : s.read = .ok rule := by rw [RuleSource.read, hread]
  rw [RuleSource.introspect, hrule]
  exact if_pos hgranular

/-- **A granular rule of constraints on texts is introspected**, its ranges are grown and its
findings noted — or introspection stops, and then some operator is not readable. -/
theorem introspect_explored (hread : s.rule? = some rule) (hgranular : rule.isGranular = true)
    (hfollows : ∀ c ∈ rule.constraints, c.Follows r r') :
    (∃ i, s.introspect r = .ok i ∧
      i.ranges = Introspection.grown r' rule.conditions
        (Introspection.outcomes rule.conditions) [] ∧
      Exploration.Noted r (Node.notesOf 0 ((Introspection.outcomes rule.conditions).flatMap
        (Introspection.rootsOf rule.conditions))) .empty i.findings) ∨
    (∃ f, s.introspect r = .error (.fault f)) ∧ ∃ c ∈ rule.constraints, ¬ c.IsReadable := by
  have hranges := Introspection.delivers_rangesOf hfollows
    (Introspection.outcomes rule.conditions) [] .empty
  rw [introspect_of_isGranular hread hgranular, Introspection.ofRule]
  cases h : Introspection.rangesOf r rule.conditions (Introspection.outcomes rule.conditions) []
      .empty with
  | ok p =>
    obtain ⟨hgrown, hnoted⟩ := hranges.result p h
    exact .inl ⟨⟨p.1, rule.default, p.2⟩, rfl, hgrown, hnoted⟩
  | error f => exact .inr ⟨⟨f, rfl⟩, hranges.stop f h⟩

/-- **A granular rule of sound nodes is introspected**, and its ranges are grown. -/
theorem introspect_eq_of_isSound (hread : s.rule? = some rule) (hgranular : rule.isGranular = true)
    (hsound : ∀ n ∈ rule.conditions, n.IsSound r) :
    ∃ i, s.introspect r = .ok i ∧
      i.ranges = Introspection.grown r rule.conditions
        (Introspection.outcomes rule.conditions) [] := by
  have hconstraints : ∀ c ∈ rule.constraints, c.IsSound r :=
    Node.IsSound.of_mem_constraintsOf hsound
  obtain ⟨i, hi, hranges, _⟩ :=
    (introspect_explored hread hgranular fun c hc => (hconstraints c hc).follows).resolve_right
      fun ⟨_, c, hc, hstop⟩ => hstop (hconstraints c hc).isReadable
  exact ⟨i, hi, hranges⟩

variable {v : Value}

/-- **A valid granular document is introspected**, and its ranges are grown. -/
theorem introspect_eq (hvalid : Validator.validate r v = .ok none)
    (hread : Rule.ofValue? v = some rule) (hgranular : rule.isGranular = true) :
    ∃ i, (RuleSource.document v).introspect r = .ok i ∧
      i.ranges = Introspection.grown r rule.conditions
        (Introspection.outcomes rule.conditions) [] := by
  refine introspect_eq_of_isSound hread hgranular fun n hn => ?_
  exact (Rule.isSound_of_validate hvalid hread n hn).2

/-- **Each range of a valid granular document grows from the sound conditions of its outcome.** -/
theorem introspect_grown (hvalid : Validator.validate r v = .ok none)
    (hread : Rule.ofValue? v = some rule) (hgranular : rule.isGranular = true) :
    ∃ i, (RuleSource.document v).introspect r = .ok i ∧
      i.ranges.map CriteriaRange.outcome = Introspection.outcomes rule.conditions ∧
      ∀ range ∈ i.ranges,
        (∃ steps, range.alternatives = (Node.growAll r none 0 false
          (Introspection.rootsOf rule.conditions range.outcome) ⟨[], steps⟩).alternatives) ∧
        ∀ n ∈ Introspection.rootsOf rule.conditions range.outcome,
          n ∈ rule.conditions ∧ n.isCondition = true ∧ n.IsSound r := by
  obtain ⟨i, hi, hranges⟩ := introspect_eq hvalid hread hgranular
  refine ⟨i, hi, by rw [hranges, Introspection.map_outcome_grown], fun range hrange => ?_⟩
  refine ⟨Introspection.exists_steps_of_mem_grown (hranges ▸ hrange), fun n hn => ?_⟩
  have hmem : n ∈ rule.conditions := Introspection.mem_of_mem_rootsOf hn
  exact ⟨hmem, Rule.isSound_of_validate hvalid hread n hmem⟩

end RuleSource

end Verdict
