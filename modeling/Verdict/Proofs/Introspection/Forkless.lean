import Verdict.Proofs.Introspection.Grow

/-!
# Proofs/Introspection/Forkless — conditions that add nothing of their own

A condition **forks** where it adds an alternative: an AND or a NONE directly under an OR.  Where
nothing forks, growing puts the **literals** of a node behind the last alternative and changes
nothing else (`Node.extends_grow`), provided its fields are new and distinct.
-/

namespace Verdict

namespace Node

/-! ## Constraints and conditions among nodes -/

/-- The constraints directly among nodes. -/
def directs : List Node → List Constraint
  | [] => []
  | .constraint c :: rest => c :: directs rest
  | .condition .. :: rest => directs rest
  | .invalid _ :: rest => directs rest

/-- The conditions among nodes. -/
def nested (nodes : List Node) : List Node := nodes.filter isCondition

theorem nested_condition_cons (b : Branch) (nodes : List Node) (outcome : Option Outcome)
    (rest : List Node) : nested (.condition b nodes outcome :: rest) =
      .condition b nodes outcome :: nested rest := rfl

theorem nested_constraint_cons (c : Constraint) (rest : List Node) :
    nested (.constraint c :: rest) = nested rest := rfl

theorem nested_invalid_cons (raw : Value) (rest : List Node) :
    nested (.invalid raw :: rest) = nested rest := rfl

mutual

/-- What follows for a condition from the conditions directly under it holds of all conditions. -/
theorem condition_induction {motive : (n : Node) → n.isCondition = true → Prop}
    (condition : ∀ b nodes outcome,
      (∀ n (hn : n ∈ nested nodes), motive n (List.mem_filter.mp hn).2) →
        motive (.condition b nodes outcome) rfl) :
    ∀ (n : Node) (hn : n.isCondition = true), motive n hn
  | .condition b nodes outcome, _ =>
    condition b nodes outcome (nested_induction condition nodes)
  | .constraint _, hn => nomatch hn
  | .invalid _, hn => nomatch hn

theorem nested_induction {motive : (n : Node) → n.isCondition = true → Prop}
    (condition : ∀ b nodes outcome,
      (∀ n (hn : n ∈ nested nodes), motive n (List.mem_filter.mp hn).2) →
        motive (.condition b nodes outcome) rfl) :
    ∀ (nodes : List Node) n (hn : n ∈ nested nodes), motive n (List.mem_filter.mp hn).2
  | [], _, hn => nomatch hn
  | n :: rest, m, hm => by
    rcases List.mem_cons.mp (List.mem_filter.mp hm).1 with heq | hmem
    · subst m
      exact condition_induction condition n (List.mem_filter.mp hm).2
    · exact nested_induction condition rest m
        (List.mem_filter.mpr ⟨hmem, (List.mem_filter.mp hm).2⟩)

end

/-- The constraints of nodes are those directly among them and those of the conditions. -/
theorem constraintsOf_perm : ∀ nodes : List Node,
    (constraintsOf nodes).Perm (directs nodes ++ constraintsOf (nested nodes))
  | [] => .nil
  | .constraint c :: rest => by
    rw [constraintsOf, constraints]
    exact (constraintsOf_perm rest).cons c
  | .condition b nodes outcome :: rest => by
    rw [constraintsOf, nested_condition_cons, constraintsOf, directs]
    refine ((constraintsOf_perm rest).append_left _).trans ?_
    rw [← List.append_assoc, ← List.append_assoc]
    exact List.perm_append_comm.append_right _
  | .invalid _ :: rest => constraintsOf_perm rest

theorem fieldsOf_perm (nodes : List Node) :
    (fieldsOf nodes).Perm ((directs nodes).map Constraint.field ++ fieldsOf (nested nodes)) := by
  rw [fieldsOf, fieldsOf, ← List.map_append]
  exact (constraintsOf_perm nodes).map _

/-- Distinct fields: those of the constraints, those of the conditions, and no field of both. -/
theorem nodup_fieldsOf_iff {nodes : List Node} : (fieldsOf nodes).Nodup ↔
    ((directs nodes).map Constraint.field).Nodup ∧ (fieldsOf (nested nodes)).Nodup ∧
      ∀ c ∈ directs nodes, c.field ∉ fieldsOf (nested nodes) := by
  rw [(fieldsOf_perm nodes).nodup_iff, List.nodup_append]
  refine and_congr_right fun _ => and_congr_right fun _ => ?_
  exact ⟨fun h c hc hmem => h _ (List.mem_map.mpr ⟨c, hc, rfl⟩) _ hmem rfl,
    fun h f hf f' hf' heq => by
      obtain ⟨c, hc, rfl⟩ := List.mem_map.mp hf
      exact h c hc (heq ▸ hf')⟩

theorem mem_directs {c : Constraint} {nodes : List Node} :
    c ∈ directs nodes ↔ .constraint c ∈ nodes := by
  induction nodes with
  | nil => simp [directs]
  | cons n rest ih => cases n <;> simp [directs, ih]

end Node

namespace Alternative

variable {r : Registry} {negated : Bool}

/-- Only the constraints directly among nodes are gathered. -/
theorem gather_eq_foldl : ∀ (nodes : List Node) (a : Alternative),
    gather r negated nodes a = (Node.directs nodes).foldl (gatherOne r negated) a
  | [], _ => rfl
  | .constraint c :: rest, a => gather_eq_foldl rest (gatherOne r negated a c)
  | .condition .. :: rest, a => gather_eq_foldl rest a
  | .invalid _ :: rest, a => gather_eq_foldl rest a

/-- What constraints on texts gather is a table. -/
theorem isTable_gather {nodes : List Node}
    (h : ∀ c ∈ Node.directs nodes, ∃ name, c.field = .str name) :
    (gather r negated nodes []).IsTable := by
  have hfold : ∀ {cs : List Constraint}, (∀ c ∈ cs, ∃ name, c.field = .str name) →
      ∀ {a : Alternative}, a.IsTable → (cs.foldl (gatherOne r negated) a).IsTable := fun {cs} => by
    induction cs with
    | nil => exact fun _ _ ha => ha
    | cons c rest ih =>
      intro hcs a ha
      obtain ⟨hc, hrest⟩ := List.forall_mem_cons.mp hcs
      exact ih hrest (ha.gatherOne hc)
  rw [gather_eq_foldl]
  exact hfold h isTable_nil

end Alternative

namespace Node

variable {r : Registry}

/-- Constraints among nodes do not grow by themselves. -/
theorem growAll_nested (parent : Option Branch) (depth : Nat) (inNone : Bool) :
    ∀ (nodes : List Node) (g : Growth),
      growAll r parent depth inNone (nested nodes) g = growAll r parent depth inNone nodes g
  | [], _ => rfl
  | .constraint _ :: rest, g => by
    rw [growAll, grow]
    exact growAll_nested parent depth inNone rest g
  | .condition b nodes outcome :: rest, g => by
    rw [nested_condition_cons, growAll, growAll, growAll_nested parent depth inNone rest]
  | .invalid _ :: rest, g => by
    rw [growAll, grow]
    exact growAll_nested parent depth inNone rest g

/-! ## Literals -/

/-- A field and what a constraint alone requires of it. -/
def literal (r : Registry) (negated : Bool) (c : Constraint) : Value × Value :=
  (c.field, Alternative.entry c (r.effective negated c.operator))

mutual

/-- What the constraints of a condition require: first those directly under it. -/
def literals (r : Registry) (inNone : Bool) : Node → Alternative
  | .condition b nodes _ =>
    (directs nodes).map (literal r (inNone || b = .none)) ++
      literalsOf r (inNone || b = .none) nodes
  | .constraint _ => []
  | .invalid _ => []

/-- What the constraints of the conditions among nodes require. -/
def literalsOf (r : Registry) (inNone : Bool) : List Node → Alternative
  | [] => []
  | n :: rest => literals r inNone n ++ literalsOf r inNone rest

end

theorem fields_directs (negated : Bool) (cs : List Constraint) :
    Alternative.fields (cs.map (literal r negated)) = cs.map Constraint.field := by
  rw [Alternative.fields, List.map_map]
  rfl

theorem directs_subset (nodes : List Node) : directs nodes ⊆ constraintsOf nodes := fun c hc =>
  mem_constraintsOf.mpr ⟨.constraint c, mem_directs.mp hc, by simp [constraints]⟩

mutual

/-- Literals are on the fields of the node. -/
theorem within_literals {F : Value → Prop} (inNone : Bool) : ∀ {n : Node},
    (∀ c ∈ n.constraints, F c.field) → (n.literals r inNone).Within F
  | .condition b nodes _, h => by
    rw [constraints] at h
    rw [literals]
    refine List.forall_mem_append.mpr ⟨List.forall_mem_map.mpr fun c hc => ?_,
      within_literalsOf _ h⟩
    exact h c (directs_subset nodes hc)
  | .constraint _, _ => by
    rw [literals]
    exact fun e he => by cases he
  | .invalid _, _ => by
    rw [literals]
    exact fun e he => by cases he

theorem within_literalsOf {F : Value → Prop} (inNone : Bool) : ∀ {nodes : List Node},
    (∀ c ∈ constraintsOf nodes, F c.field) → (literalsOf r inNone nodes).Within F
  | [], _ => by
    rw [literalsOf]
    exact fun e he => by cases he
  | n :: rest, h => by
    rw [constraintsOf, List.forall_mem_append] at h
    rw [literalsOf]
    exact List.forall_mem_append.mpr ⟨within_literals inNone h.1, within_literalsOf inNone h.2⟩

end

/-- Constraints on distinct new fields are gathered one by one. -/
theorem gather_eq (negated : Bool) : ∀ {nodes : List Node}, (∀ n ∈ nodes, n.IsSound r) →
    ((directs nodes).map Constraint.field).Nodup → ∀ {a : Alternative},
    a.Within (Apart ((directs nodes).map Constraint.field)) →
      Alternative.gather r negated nodes a = a ++ (directs nodes).map (literal r negated)
  | [], _, _, a, _ => (List.append_nil a).symm
  | .constraint c :: rest, h, hnodup, a, ha => by
    obtain ⟨hsound, hrest⟩ := List.forall_mem_cons.mp h
    have hc : c.IsSound r := by cases hsound with | constraint hc => exact hc
    rw [directs, List.map_cons] at hnodup ha
    rw [List.nodup_cons] at hnodup
    have hnone : a.find? c.field = none := by
      refine (Alternative.find?_eq_none_iff fun e he => (ha e he).1).mpr fun e he heq => ?_
      exact (ha e he).2 (heq ▸ List.mem_cons_self ..)
    have hone : Alternative.gatherOne r negated a c = a ++ [literal r negated c] := by
      simp only [Alternative.gatherOne, hnone]
      rfl
    rw [Alternative.gather, hone, directs, List.map_cons, gather_eq negated hrest hnodup.2]
    · rw [List.append_assoc]
      rfl
    · refine List.forall_mem_append.mpr ⟨fun e he => ?_, List.forall_mem_singleton.mpr ?_⟩
      · exact ⟨(ha e he).1, fun hmem => (ha e he).2 (List.mem_cons_of_mem _ hmem)⟩
      · exact ⟨hc.field, hnodup.1⟩
  | .condition .. :: rest, h, hnodup, a, ha =>
    gather_eq negated (List.forall_mem_cons.mp h).2 hnodup ha
  | .invalid _ :: rest, h, hnodup, a, ha =>
    gather_eq negated (List.forall_mem_cons.mp h).2 hnodup ha

end Node

/-! ## Extending the last alternative -/

namespace Growth

/-- `Extends g g' es`: the entries `es` were put behind the last alternative.  Where there are none,
the range may have stayed empty. -/
def Extends (g g' : Growth) (es : Alternative) : Prop :=
  g'.alternatives = Alternative.extendLast g.alternatives es ∨
    es = [] ∧ g'.alternatives = g.alternatives

variable {g g₁ g₂ : Growth} {es es' : Alternative}

theorem Extends.refl (g : Growth) : Extends g g [] := .inr ⟨rfl, rfl⟩

/-- Entries put behind the last alternative one after another are put there together. -/
theorem Extends.trans (h : Extends g g₁ es) (h' : Extends g₁ g₂ es') :
    Extends g g₂ (es ++ es') := by
  rcases h with h | ⟨rfl, h⟩
  · rcases h' with h' | ⟨rfl, h'⟩
    · exact .inl (by rw [h', h, Alternative.extendLast_extendLast])
    · exact .inl (by rw [h', h, List.append_nil])
  · rcases h' with h' | ⟨rfl, h'⟩
    · exact .inl (by rw [h', h, List.nil_append])
    · exact .inr ⟨rfl, by rw [h', h]⟩

/-- The last alternative is extended. -/
theorem Extends.last (h : Extends g g' es) : g'.last = g.last ++ es := by
  unfold Growth.last
  rcases h with h | ⟨rfl, h⟩
  · rw [h, Alternative.extendLast, List.getLast?_concat]
    rfl
  · rw [h, List.append_nil]

/-- Where there is a last alternative, extending it replaces it. -/
theorem Extends.alternatives {pre : List Alternative} {last : Alternative}
    (h : Extends g g' es) (hg : g.alternatives = pre ++ [last]) :
    g'.alternatives = pre ++ [last ++ es] := by
  rcases h with h | ⟨rfl, h⟩
  · rw [h, hg, Alternative.extendLast_append_singleton]
  · rw [h, hg, List.append_nil]

variable {b : Branch} {parent : Option Branch}

theorem extends_attach (hfork : isFork b parent = false) {a : Alternative} (ha : a.IsTable)
    (hlast : g.last.Within (Apart a.fields)) (depth : Nat) :
    (g.attach b parent depth a).alternatives = Alternative.extendLast g.alternatives a := by
  rw [attach_of_not_isFork hfork, Alternative.mergeInto_of_apart hlast ha]
  rfl

/-- **Where nothing forks, attaching puts new entries behind the last alternative.** -/
theorem extends_attachTable (hfork : isFork b parent = false) {a : Alternative} (ha : a.IsTable)
    (hlast : g.last.Within (Apart a.fields)) (depth : Nat) :
    Extends g (g.attachTable b parent depth a) a := by
  unfold attachTable
  split
  · exact .inl (extends_attach hfork ha hlast depth)
  · induction a generalizing g with
    | nil => exact .refl g
    | cons e rest ih =>
      obtain ⟨he, hnew, hrest⟩ := Alternative.isTable_cons_iff.mp ha
      have hone : Extends g (g.attach b parent depth [e]) [e] := by
        refine .inl (extends_attach hfork ⟨List.forall_mem_singleton.mpr he, by simp⟩ ?_ depth)
        exact fun e' he' => ⟨(hlast e' he').1, fun hmem => (hlast e' he').2
          (List.mem_cons.mpr (.inl (List.mem_singleton.mp hmem)))⟩
      refine hone.trans (ih hrest ?_)
      rw [hone.last]
      refine List.forall_mem_append.mpr ⟨fun e' he' => ?_, List.forall_mem_singleton.mpr ⟨he, hnew⟩⟩
      exact ⟨(hlast e' he').1, fun hmem => (hlast e' he').2 (List.mem_cons_of_mem _ hmem)⟩

end Growth

namespace Node

/-- Whether a node is a condition that forks below a branch. -/
def forksBelow (parent : Branch) (n : Node) : Bool :=
  n.branch?.any fun b => Growth.isFork b (some parent)

/-- Only directly under an OR does a condition fork. -/
theorem forksBelow_eq_false {parent : Branch} (h : parent ≠ .or) (n : Node) :
    n.forksBelow parent = false := by
  cases n with
  | condition b nodes outcome =>
    cases parent with
    | or => exact absurd rfl h
    | and | none => rfl
  | constraint c => rfl
  | invalid raw => rfl

mutual

/-- Whether some condition below a node forks. -/
def hasFork : Node → Bool
  | .condition b nodes _ => nodes.any (forksBelow b) || haveFork nodes
  | .constraint _ => false
  | .invalid _ => false

/-- Whether some condition below one of some nodes forks. -/
def haveFork : List Node → Bool
  | [] => false
  | n :: rest => hasFork n || haveFork rest

end

theorem haveFork_eq_any (nodes : List Node) : haveFork nodes = nodes.any hasFork := by
  induction nodes with
  | nil => rfl
  | cons n rest ih => rw [haveFork, List.any_cons, ih]

theorem hasFork_of_mem {nodes : List Node} (h : haveFork nodes = false) :
    ∀ n ∈ nodes, n.hasFork = false := by
  rw [haveFork_eq_any] at h
  intro n hn
  simpa using List.any_eq_false.mp h n hn

/-- Only an OR makes the conditions directly under it fork. -/
theorem hasFork_of_ne_or {b : Branch} (h : b ≠ .or) (nodes : List Node)
    (outcome : Option Outcome) : (condition b nodes outcome).hasFork = haveFork nodes := by
  have hbelow : nodes.any (forksBelow b) = false :=
    List.any_eq_false.mpr fun n _ => by simp [forksBelow_eq_false h]
  rw [hasFork, hbelow, Bool.false_or]

/-! ## New fields -/

theorem apart_mono {fs fs' : List Value} (h : fs ⊆ fs') {f : Value} (hf : Apart fs' f) :
    Apart fs f := ⟨hf.1, fun hmem => hf.2 (h hmem)⟩

theorem within_apart_mono {fs fs' : List Value} (h : fs ⊆ fs') {a : Alternative}
    (ha : a.Within (Apart fs')) : a.Within (Apart fs) := fun e he => apart_mono h (ha e he)

theorem fields_directs_subset (nodes : List Node) :
    (directs nodes).map Constraint.field ⊆ fieldsOf nodes := fun _ hf =>
  (fieldsOf_perm nodes).mem_iff.mpr (List.mem_append_left _ hf)

theorem fieldsOf_nested_subset (nodes : List Node) : fieldsOf (nested nodes) ⊆ fieldsOf nodes :=
  fun _ hf => (fieldsOf_perm nodes).mem_iff.mpr (List.mem_append_right _ hf)

variable {r : Registry}

/-- The literals of the constraints among nodes are on the fields of the nodes. -/
theorem fields_literals_subset (negated : Bool) (nodes : List Node) :
    Alternative.fields ((directs nodes).map (literal r negated)) ⊆ fieldsOf nodes := by
  rw [fields_directs]
  exact fields_directs_subset nodes

/-- What a condition on distinct new fields gathers. -/
theorem gather_nil_eq {nodes : List Node} (h : ∀ n ∈ nodes, n.IsSound r)
    (hnodup : (fieldsOf nodes).Nodup) (negated : Bool) :
    Alternative.gather r negated nodes [] = (directs nodes).map (literal r negated) :=
  gather_eq negated h (nodup_fieldsOf_iff.mp hnodup).1 fun e he => by cases he

/-- The literals of constraints on distinct fields make a table. -/
theorem isTable_directs {nodes : List Node} (h : ∀ n ∈ nodes, n.IsSound r)
    (hnodup : (fieldsOf nodes).Nodup) (negated : Bool) :
    Alternative.IsTable ((directs nodes).map (literal r negated)) :=
  gather_nil_eq h hnodup negated ▸ Alternative.isTable_gather fun c hc =>
    (IsSound.of_mem_constraintsOf h c (directs_subset nodes hc)).field

/-- The constraints directly among nodes and the conditions have no field in common. -/
theorem within_directs {nodes : List Node} (h : ∀ n ∈ nodes, n.IsSound r)
    (hnodup : (fieldsOf nodes).Nodup) (negated : Bool) :
    Alternative.Within (Apart (fieldsOf (nested nodes)))
      ((directs nodes).map (literal r negated)) :=
  List.forall_mem_map.mpr fun c hc =>
    ⟨(IsSound.of_mem_constraintsOf h c (directs_subset nodes hc)).field,
      (nodup_fieldsOf_iff.mp hnodup).2.2 c hc⟩

/-- A node and its successors have no field in common. -/
theorem within_literals_of_nodup {n : Node} {rest : List Node} (hn : n.IsSound r)
    (hnodup : (fieldsOf (n :: rest)).Nodup) (inNone : Bool) :
    (n.literals r inNone).Within (Apart (fieldsOf rest)) := by
  rw [fieldsOf_cons, List.nodup_append] at hnodup
  refine within_literals inNone fun c hc => ⟨(hn.of_mem_constraints c hc).field, fun hmem => ?_⟩
  exact hnodup.2.2 _ (List.mem_map.mpr ⟨c, hc, rfl⟩) _ hmem rfl

/-- Constraints on new fields that do not fork are put behind the last alternative. -/
theorem extends_attachTable_directs {nodes : List Node} (h : ∀ n ∈ nodes, n.IsSound r)
    (hnodup : (fieldsOf nodes).Nodup) {b : Branch} {parent : Option Branch}
    (hfork : Growth.isFork b parent = false) {g : Growth}
    (hlast : g.last.Within (Apart (fieldsOf nodes))) (depth : Nat) (negated : Bool) :
    Growth.Extends g (g.attachTable b parent depth ((directs nodes).map (literal r negated)))
      ((directs nodes).map (literal r negated)) :=
  Growth.extends_attachTable hfork (isTable_directs h hnodup negated)
    (within_apart_mono (fields_literals_subset negated nodes) hlast) depth

/-- Constraints on new fields that fork are put behind what the fork starts from. -/
theorem attach_directs_of_isFork {nodes : List Node} (h : ∀ n ∈ nodes, n.IsSound r)
    (hnodup : (fieldsOf nodes).Nodup) {b : Branch} {parent : Option Branch}
    (hfork : Growth.isFork b parent = true) {g : Growth} {depth : Nat}
    (hbase : (g.forkBase parent depth).Within (Apart (fieldsOf nodes))) (negated : Bool) :
    g.attach b parent depth ((directs nodes).map (literal r negated)) =
      g.add ⟨parent, b, depth, none⟩
        (g.forkBase parent depth ++ (directs nodes).map (literal r negated)) :=
  Growth.attach_of_isFork hfork
    (within_apart_mono (fields_literals_subset negated nodes) hbase)
    (isTable_directs h hnodup negated)

/-- An AND that forks adds what the fork starts from, with its constraints' literals. -/
theorem attachTable_and_of_isFork {nodes : List Node} (h : ∀ n ∈ nodes, n.IsSound r)
    (hnodup : (fieldsOf nodes).Nodup) {parent : Option Branch}
    (hfork : Growth.isFork .and parent = true) {g : Growth} {depth : Nat}
    (hbase : (g.forkBase parent depth).Within (Apart (fieldsOf nodes))) (negated : Bool) :
    g.attachTable .and parent depth (Alternative.gather r negated nodes []) =
      g.add ⟨parent, .and, depth, none⟩
        (g.forkBase parent depth ++ (directs nodes).map (literal r negated)) := by
  rw [gather_nil_eq h hnodup, Growth.attachTable, if_pos rfl]
  exact attach_directs_of_isFork h hnodup hfork hbase negated

mutual

/-- **Where nothing forks, growing puts the literals behind the last alternative.** -/
theorem extends_grow (parent : Branch) (depth : Nat) (inNone : Bool) : ∀ {n : Node},
    n.IsSound r → n.fields.Nodup → n.forksBelow parent = false → n.hasFork = false →
    ∀ {g : Growth}, g.last.Within (Apart n.fields) →
      Growth.Extends g (n.grow r (some parent) depth inNone g) (n.literals r inNone)
  | .condition b nodes _, hsound, hnodup, hbelow, hfork, g, hlast => by
    have hnodes : ∀ n ∈ nodes, n.IsSound r := by cases hsound with | condition h => exact h
    have hnested : (fieldsOf (nested nodes)).Nodup := (nodup_fieldsOf_iff.mp hnodup).2.1
    rw [hasFork, Bool.or_eq_false_iff, haveFork_eq_any, List.any_eq_false, List.any_eq_false]
      at hfork
    rw [grow, literals, gather_nil_eq hnodes hnodup]
    have hb : Growth.isFork b (some parent) = false := hbelow
    have hdirects : Growth.Extends g (g.attachTable b (some parent) depth
        ((directs nodes).map (literal r (inNone || b = .none))))
        ((directs nodes).map (literal r (inNone || b = .none))) :=
      extends_attachTable_directs hnodes hnodup hb hlast depth _
    refine hdirects.trans (extendsAll_grow b (depth + 1) _ hnodes hnested
      (fun n hn => ⟨by simpa using hfork.1 n hn, by simpa using hfork.2 n hn⟩) ?_)
    rw [hdirects.last]
    exact List.forall_mem_append.mpr ⟨within_apart_mono (fieldsOf_nested_subset nodes) hlast,
      within_directs hnodes hnodup _⟩
  | .constraint _, _, _, _, _, g, _ => by
    rw [grow, literals]
    exact .refl g
  | .invalid _, _, _, _, _, g, _ => by
    rw [grow, literals]
    exact .refl g

theorem extendsAll_grow (parent : Branch) (depth : Nat) (inNone : Bool) : ∀ {nodes : List Node},
    (∀ n ∈ nodes, n.IsSound r) → (fieldsOf (nested nodes)).Nodup →
    (∀ n ∈ nodes, n.forksBelow parent = false ∧ n.hasFork = false) →
    ∀ {g : Growth}, g.last.Within (Apart (fieldsOf (nested nodes))) →
      Growth.Extends g (growAll r (some parent) depth inNone nodes g) (literalsOf r inNone nodes)
  | [], _, _, _, g, _ => by
    rw [growAll, literalsOf]
    exact .refl g
  | .constraint _ :: rest, hsound, hnodup, hfork, g, hlast => by
    rw [growAll, grow, literalsOf, literals]
    exact extendsAll_grow parent depth inNone (List.forall_mem_cons.mp hsound).2 hnodup
      (List.forall_mem_cons.mp hfork).2 hlast
  | .invalid _ :: rest, hsound, hnodup, hfork, g, hlast => by
    rw [growAll, grow, literalsOf, literals]
    exact extendsAll_grow parent depth inNone (List.forall_mem_cons.mp hsound).2 hnodup
      (List.forall_mem_cons.mp hfork).2 hlast
  | .condition b nodes outcome :: rest, hsound, hnodup, hfork, g, hlast => by
    obtain ⟨hn, hrest⟩ := List.forall_mem_cons.mp hsound
    obtain ⟨hbelow, hforks⟩ := List.forall_mem_cons.mp hfork
    rw [nested_condition_cons] at hnodup hlast
    have hliterals := within_literals_of_nodup hn hnodup inNone
    rw [fieldsOf_cons] at hnodup hlast
    rw [growAll, literalsOf]
    have hone : Growth.Extends g (grow r (some parent) depth inNone (.condition b nodes outcome) g)
        (literals r inNone (.condition b nodes outcome)) :=
      extends_grow parent depth inNone hn (List.nodup_append.mp hnodup).1 hbelow.1 hbelow.2
        (within_apart_mono (List.subset_append_left _ _) hlast)
    refine hone.trans (extendsAll_grow parent depth inNone hrest (List.nodup_append.mp hnodup).2.1
      hforks ?_)
    rw [hone.last]
    exact List.forall_mem_append.mpr
      ⟨within_apart_mono (List.subset_append_right _ _) hlast, hliterals⟩

end

end Node

end Verdict
