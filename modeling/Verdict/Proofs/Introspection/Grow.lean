import Verdict.Proofs.Introspection.Literal
import Verdict.Proofs.Introspection.Range

/-!
# Proofs/Introspection/Grow — what a node makes of a range

    range  ──attach what the constraints gather──▸  range  ──its conditions──▸  range

Growing is exploring without findings and without stopping: a condition attaches what its
constraints **gather** field by field (`Growth.attachTable`), and then its conditions grow.  No field
comes in but those of the node (`Node.within_grow`), and the steps are at the node's depth or deeper
(`Node.exists_steps_grow`).
-/

namespace Verdict

/-! ## Gathering -/

namespace Alternative

/-- What is gathered with one more constraint. -/
def gatherOne (r : Registry) (negated : Bool) (a : Alternative) (c : Constraint) : Alternative :=
  let operator := r.effective negated c.operator
  match a.find? c.field with
  | some known => a.put c.field (.ofItems (dedupFlatten [known, addition c operator]))
  | none => a ++ [(c.field, entry c operator)]

/-- What the constraints among nodes require, field by field. -/
def gather (r : Registry) (negated : Bool) : List Node → Alternative → Alternative
  | [], a => a
  | .constraint c :: rest, a => gather r negated rest (gatherOne r negated a c)
  | .condition .. :: rest, a => gather r negated rest a
  | .invalid _ :: rest, a => gather r negated rest a

variable {r : Registry} {negated : Bool}

/-- Gathering a constraint adds no field but its own. -/
theorem map_fst_gatherOne (r : Registry) (negated : Bool) (a : Alternative) (c : Constraint) :
    (gatherOne r negated a c).map Prod.fst = a.map Prod.fst ∨
      (gatherOne r negated a c).map Prod.fst = a.map Prod.fst ++ [c.field] ∧
        a.find? c.field = none := by
  unfold gatherOne
  dsimp only
  split
  · next known h => exact .inl (map_fst_put_of_find? h _)
  · next h => exact .inr ⟨by simp, h⟩

theorem IsTable.gatherOne {a : Alternative} (ha : a.IsTable) {c : Constraint}
    (hc : ∃ name, c.field = .str name) : (gatherOne r negated a c).IsTable := by
  rcases map_fst_gatherOne r negated a c with h | ⟨h, hnone⟩
  · exact ⟨isNamed_iff.mpr (h ▸ isNamed_iff.mp ha.named), h ▸ ha.nodup⟩
  · refine ⟨isNamed_iff.mpr ?_, ?_⟩
    · rw [h]
      exact List.forall_mem_append.mpr ⟨isNamed_iff.mp ha.named, List.forall_mem_singleton.mpr hc⟩
    · rw [h, List.nodup_append]
      refine ⟨ha.nodup, by simp, fun f hf f' hf' => ?_⟩
      obtain ⟨e, he, rfl⟩ := List.mem_map.mp hf
      rw [List.mem_singleton.mp hf']
      exact (find?_eq_none_iff ha.named).mp hnone e he

end Alternative

/-! ## Growing -/

/-- Attach what a condition gathered: together under AND, else field by field. -/
def Growth.attachTable (g : Growth) (b : Branch) (parent : Option Branch) (depth : Nat)
    (a : Alternative) : Growth :=
  if b = .and then g.attach b parent depth a
  else a.foldl (fun g e => g.attach b parent depth [e]) g

namespace Node

mutual

/-- Grow by a condition and those below it. -/
def grow (r : Registry) (parent : Option Branch) (depth : Nat) (inNone : Bool) :
    Node → Growth → Growth
  | .condition b nodes _, g =>
    let negated := inNone || b = .none
    growAll r (some b) (depth + 1) negated nodes
      (g.attachTable b parent depth (Alternative.gather r negated nodes []))
  | .constraint _, g => g
  | .invalid _, g => g

/-- Grow by the conditions among nodes. -/
def growAll (r : Registry) (parent : Option Branch) (depth : Nat) (inNone : Bool) :
    List Node → Growth → Growth
  | [], g => g
  | n :: rest, g => growAll r parent depth inNone rest (grow r parent depth inNone n g)

end

end Node

/-! ## What growing leaves alone -/

namespace Alternative

variable {r : Registry} {negated : Bool} {F : Value → Prop}

theorem Within.gatherOne {a : Alternative} (ha : a.Within F) {c : Constraint} (hc : F c.field) :
    (gatherOne r negated a c).Within F := by
  rw [within_iff] at ha ⊢
  rcases map_fst_gatherOne r negated a c with h | ⟨h, _⟩
  · rwa [h]
  · rw [h]
    exact List.forall_mem_append.mpr ⟨ha, List.forall_mem_singleton.mpr hc⟩

/-- What is gathered is on the fields of the nodes. -/
theorem Within.gather : ∀ {nodes : List Node}, (∀ c ∈ Node.constraintsOf nodes, F c.field) →
    ∀ {a : Alternative}, a.Within F → (gather r negated nodes a).Within F
  | [], _, _, ha => ha
  | .constraint c :: rest, h, a, ha => by
    rw [Node.constraintsOf, Node.constraints, List.forall_mem_append,
      List.forall_mem_singleton] at h
    exact Within.gather h.2 (ha.gatherOne h.1)
  | .condition .. :: rest, h, a, ha => by
    rw [Node.constraintsOf, List.forall_mem_append] at h
    exact Within.gather h.2 ha
  | .invalid _ :: rest, h, a, ha => by
    rw [Node.constraintsOf, List.forall_mem_append] at h
    exact Within.gather h.2 ha

end Alternative

namespace Growth

variable {F : Value → Prop} {g : Growth}

theorem Within.attachTable (hg : g.Within F) {a : Alternative} (ha : a.Within F) (b : Branch)
    (parent : Option Branch) (depth : Nat) : (g.attachTable b parent depth a).Within F := by
  unfold Growth.attachTable
  split
  · exact hg.attach ha b parent depth
  · induction a generalizing g with
    | nil => exact hg
    | cons e rest ih =>
      obtain ⟨he, hrest⟩ := List.forall_mem_cons.mp ha
      exact ih (hg.attach (List.forall_mem_singleton.mpr he) b parent depth) hrest

theorem StepsWithin.append {depth : Nat} {fields : List Value} {later earlier : List Step}
    (hlater : StepsWithin depth fields later) (hearlier : StepsWithin depth fields earlier) :
    StepsWithin depth fields (later ++ earlier) := List.forall_mem_append.mpr ⟨hlater, hearlier⟩

theorem StepsWithin.mono {depth depth' : Nat} {fields fields' : List Value} {steps : List Step}
    (h : StepsWithin depth fields steps) (hdepth : depth' ≤ depth) (hfields : fields ⊆ fields') :
    StepsWithin depth' fields' steps := fun s hs =>
  ⟨Nat.le_trans hdepth (h s hs).1, fun c hc => hfields ((h s hs).2 c hc)⟩

/-- Steps of attaching come after those before, with their depth and fields. -/
theorem exists_steps_attachTable (b : Branch) (parent : Option Branch) (depth : Nat)
    (a : Alternative) : ∀ g : Growth, ∃ later,
      (g.attachTable b parent depth a).steps = later ++ g.steps ∧
        StepsWithin depth a.fields later := by
  intro g
  unfold attachTable
  split
  · obtain ⟨s, hsteps, _, hs⟩ := exists_step_attach g b parent depth a
    exact ⟨[s], hsteps, hs⟩
  · induction a generalizing g with
    | nil => exact ⟨[], rfl, by simp [StepsWithin]⟩
    | cons e rest ih =>
      obtain ⟨s, hsteps, _, hs⟩ := exists_step_attach g b parent depth [e]
      obtain ⟨later, hlater, hwithin⟩ := ih (g.attach b parent depth [e])
      refine ⟨later ++ [s], ?_, ?_⟩
      · rw [List.foldl_cons, hlater, hsteps]
        simp
      · refine (hwithin.mono (Nat.le_refl _) ?_).append (hs.mono (Nat.le_refl _) ?_)
        · exact fun f hf => List.mem_cons_of_mem _ hf
        · exact fun f hf => List.mem_cons.mpr (.inl (List.mem_singleton.mp hf))

/-- Where something is attached, the latest step is at the condition's depth. -/
theorem stirred_attachTable {a : Alternative} (ha : a ≠ []) (b : Branch) (parent : Option Branch)
    (depth : Nat) (g : Growth) : Stirred depth (g.attachTable b parent depth a).steps := by
  have hattach : ∀ (g : Growth) (a : Alternative),
      Stirred depth (g.attach b parent depth a).steps := fun g a => by
    obtain ⟨s, hs, hdepth, _⟩ := exists_step_attach g b parent depth a
    rw [hs]
    rintro s' hs'
    cases hs'
    exact Nat.le_of_eq hdepth.symm
  unfold attachTable
  split
  · exact hattach g a
  · induction a generalizing g with
    | nil => exact absurd rfl ha
    | cons e rest ih =>
      cases rest with
      | nil => exact hattach g [e]
      | cons e' rest => exact ih (by simp) (g.attach b parent depth [e])

/-- At the root, each field that an OR gathered is an alternative of its own. -/
theorem alternatives_attachTable_root (depth : Nat) : ∀ (a : Alternative) (g : Growth),
    (g.attachTable .or none depth a).alternatives = g.alternatives ++ a.map fun e => [e]
  | [], g => (List.append_nil _).symm
  | e :: rest, g => by
    have hrest := alternatives_attachTable_root depth rest (g.attach .or none depth [e])
    have hone : (g.attach .or none depth [e]).alternatives = g.alternatives ++ [[e]] := rfl
    rw [hone, List.append_assoc] at hrest
    exact hrest

end Growth

namespace Node

variable {r : Registry} {F : Value → Prop}

/-- The fields of the constraints of a node. -/
def fields (n : Node) : List Value := n.constraints.map Constraint.field

/-- The fields of the constraints of nodes. -/
def fieldsOf (nodes : List Node) : List Value := (constraintsOf nodes).map Constraint.field

theorem fieldsOf_cons (n : Node) (rest : List Node) :
    fieldsOf (n :: rest) = n.fields ++ fieldsOf rest := by
  rw [fieldsOf, constraintsOf, List.map_append]
  rfl

mutual

/-- **Growing brings in no field but those of the node.** -/
theorem within_grow (parent : Option Branch) (depth : Nat) (inNone : Bool) :
    ∀ {n : Node}, (∀ c ∈ n.constraints, F c.field) → ∀ {g : Growth}, g.Within F →
      (n.grow r parent depth inNone g).Within F
  | .condition b nodes _, h, g, hg => by
    rw [constraints] at h
    rw [grow]
    exact within_growAll (some b) (depth + 1) _ h
      (hg.attachTable (Alternative.Within.gather h fun e he => by cases he) b parent depth)
  | .constraint _, _, g, hg => by rwa [grow]
  | .invalid _, _, g, hg => by rwa [grow]

theorem within_growAll (parent : Option Branch) (depth : Nat) (inNone : Bool) :
    ∀ {nodes : List Node}, (∀ c ∈ constraintsOf nodes, F c.field) → ∀ {g : Growth}, g.Within F →
      (growAll r parent depth inNone nodes g).Within F
  | [], _, g, hg => by rwa [growAll]
  | n :: rest, h, g, hg => by
    rw [constraintsOf, List.forall_mem_append] at h
    rw [growAll]
    exact within_growAll parent depth inNone h.2 (within_grow parent depth inNone h.1 hg)

end

mutual

/-- Growing takes steps at the node's depth or deeper, with changes of the node's fields. -/
theorem exists_steps_grow (parent : Option Branch) (depth : Nat) (inNone : Bool) :
    ∀ (n : Node) (g : Growth), ∃ later, (n.grow r parent depth inNone g).steps = later ++ g.steps ∧
      Growth.StepsWithin depth n.fields later
  | .condition b nodes _, g => by
    obtain ⟨l₁, h₁, hwithin₁⟩ := Growth.exists_steps_attachTable b parent depth
      (Alternative.gather r (inNone || b = .none) nodes []) g
    obtain ⟨l₂, h₂, hwithin₂⟩ := exists_steps_growAll (some b) (depth + 1) (inNone || b = .none)
      nodes (g.attachTable b parent depth (Alternative.gather r (inNone || b = .none) nodes []))
    have hfields : (Alternative.gather r (inNone || b = .none) nodes []).Within
        (· ∈ fieldsOf nodes) :=
      Alternative.Within.gather (fun c hc => List.mem_map.mpr ⟨c, hc, rfl⟩) fun e he => by cases he
    refine ⟨l₂ ++ l₁, by rw [grow, h₂, h₁, List.append_assoc], ?_⟩
    exact (hwithin₂.mono (Nat.le_succ _) fun f hf => hf).append
      (hwithin₁.mono (Nat.le_refl _) (Alternative.within_iff.mp hfields))
  | .constraint _, g => ⟨[], by rw [grow]; rfl, by simp [Growth.StepsWithin]⟩
  | .invalid _, g => ⟨[], by rw [grow]; rfl, by simp [Growth.StepsWithin]⟩

theorem exists_steps_growAll (parent : Option Branch) (depth : Nat) (inNone : Bool) :
    ∀ (nodes : List Node) (g : Growth), ∃ later,
      (growAll r parent depth inNone nodes g).steps = later ++ g.steps ∧
        Growth.StepsWithin depth (fieldsOf nodes) later
  | [], g => ⟨[], by rw [growAll]; rfl, by simp [Growth.StepsWithin]⟩
  | n :: rest, g => by
    obtain ⟨l₁, h₁, hwithin₁⟩ := exists_steps_grow parent depth inNone n g
    obtain ⟨l₂, h₂, hwithin₂⟩ := exists_steps_growAll parent depth inNone rest
      (n.grow r parent depth inNone g)
    refine ⟨l₂ ++ l₁, by rw [growAll, h₂, h₁, List.append_assoc], ?_⟩
    rw [fieldsOf_cons]
    exact (hwithin₂.mono (Nat.le_refl _) (List.subset_append_right _ _)).append
      (hwithin₁.mono (Nat.le_refl _) (List.subset_append_left _ _))

end

end Node

end Verdict
