import Verdict.Proofs.Introspection.OwnMeaning

/-!
# Proofs/Introspection/Traceable — conditions whose alternatives lead back to them

Conditions add to the last alternative, and forks copy it, less what the latest steps put there.  A
node is **traceable** where this keeps apart what belongs apart:

* nothing forks below a NONE, a NONE that forks has one constraint at most, and its own meaning is
  true;
* an AND has one condition at most, or none in which anything forks;
* an OR below an AND has a constraint of its own, or nothing forks below it and its own meaning is
  true.

What grows from a traceable condition below an AND keeps the entries of the AND, and is met only
where the condition holds (`Node.settles`).
-/

namespace Verdict

namespace Growth

/-- The last alternative has some entries, which the steps down to a depth leave alone. -/
structure Keeps (g : Growth) (kept : Alternative) (bound : Nat) (pre : List Alternative)
    (last : Alternative) : Prop where
  alternatives : g.alternatives = pre ++ [last]
  subset : kept ⊆ last
  shielded : Alternative.Shielded bound (· ∈ kept.fields) g.steps

/-- What has become of the last alternative: some alternatives with the entries that are kept, each
of which stays as it was or reaches a goal where it is met. -/
def Settled (k : Setting) (kept : Alternative) (pre : List Alternative)
    (stays : Alternative → Prop) (goal : Prop) (g : Growth) : Prop :=
  ∃ os, g.alternatives = pre ++ os ∧ os ≠ [] ∧
    ∀ o ∈ os, kept ⊆ o ∧ (stays o ∨ (o.isMet k = true → goal))

variable {k : Setting} {g : Growth} {kept last : Alternative} {bound : Nat}
  {pre : List Alternative}

theorem Keeps.last_eq (h : g.Keeps kept bound pre last) : g.last = last := by
  rw [Growth.last, h.alternatives, List.getLast?_concat]
  rfl

theorem Keeps.mem (h : g.Keeps kept bound pre last) : last ∈ g.alternatives := by
  rw [h.alternatives]
  simp

/-- What is put behind the last alternative settles it. -/
theorem Extends.settled {g' : Growth} {es : Alternative} {stays : Alternative → Prop} {goal : Prop}
    (h : g.Extends g' es) (hkeeps : g.Keeps kept bound pre last)
    (hgoal : es.isMet k = true → goal) : g'.Settled k kept pre stays goal := by
  refine ⟨[last ++ es], h.alternatives hkeeps.alternatives, by simp,
    List.forall_mem_singleton.mpr ⟨fun e he => List.mem_append_left _ (hkeeps.subset he), ?_⟩⟩
  exact .inr fun hmet => hgoal (Alternative.isMet_of_subset (List.subset_append_right _ _) hmet)

/-- Entries of other fields are kept from fields that are new. -/
theorem Keeps.not_mem_fields {fields : List Value} (h : g.Keeps kept bound pre last)
    (hwithin : g.Within (Apart fields)) : ∀ f ∈ fields, f ∉ kept.fields := by
  intro f hf hmem
  obtain ⟨e, he, rfl⟩ := List.mem_map.mp hmem
  exact (hwithin last h.mem e (h.subset he)).2 hf

/-- What is kept is in what a fork starts from. -/
theorem Keeps.subset_forkBase {fields : List Value} {depth : Nat}
    (h : g.Keeps kept bound pre last) (hwithin : g.Within (Apart fields))
    (hstirred : Stirred bound g.steps) (hdepth : 1 < depth) :
    kept ⊆ g.forkBase (some .or) depth := by
  intro e he
  have hmem : e ∈ g.last := h.last_eq ▸ h.subset he
  exact mem_forkBase h.shielded hstirred hdepth (hwithin last h.mem e (h.subset he)).1
    (List.mem_map.mpr ⟨e, he, rfl⟩) hmem

/-- The step of an AND is not deep enough to be undone below it. -/
theorem shielded_attachTable_and (g : Growth) (parent : Option Branch) (depth : Nat)
    (es : Alternative) (F : Value → Prop) :
    Alternative.Shielded (depth + 1) F (g.attachTable .and parent depth es).steps := by
  obtain ⟨s, hs, hdepth, _⟩ := exists_step_attach g .and parent depth es
  rw [attachTable, if_pos rfl, hs]
  intro hle
  omega

end Growth

namespace Node

/-- A node whose alternatives lead back to it, below an AND or not, directly under a branch. -/
inductive IsTraceable : Bool → Option Branch → Node → Prop
  | constraint {bound : Bool} {parent : Option Branch} (c : Constraint) :
      IsTraceable bound parent (.constraint c)
  | and {bound : Bool} {parent : Option Branch} {nodes : List Node} {outcome : Option Outcome} :
      (haveFork nodes = true → (nested nodes).length ≤ 1) →
      (∀ n ∈ nodes, IsTraceable true (some .and) n) →
        IsTraceable bound parent (.condition .and nodes outcome)
  | none {bound : Bool} {parent : Option Branch} {nodes : List Node} {outcome : Option Outcome} :
      (parent = some .and ∨ (directs nodes).length ≤ 1) → haveFork nodes = false →
      (condition .none nodes outcome).ownMeaning false = true →
        IsTraceable bound parent (.condition .none nodes outcome)
  | or {parent : Option Branch} {nodes : List Node} {outcome : Option Outcome} :
      (∀ n ∈ nodes, IsTraceable false (some .or) n) →
        IsTraceable false parent (.condition .or nodes outcome)
  | forkless {parent : Option Branch} {nodes : List Node} {outcome : Option Outcome} :
      (condition .or nodes outcome).hasFork = false →
      (condition .or nodes outcome).ownMeaning false = true →
        IsTraceable true parent (.condition .or nodes outcome)
  | forks {parent : Option Branch} {nodes : List Node} {outcome : Option Outcome} :
      directs nodes ≠ [] → (∀ n ∈ nodes, IsTraceable true (some .or) n) →
        IsTraceable true parent (.condition .or nodes outcome)

/-- What grows from a node below an AND keeps the AND's entries and leads back to the node. -/
def Settles (k : Setting) (n : Node) : Prop :=
  ∀ ⦃parent : Branch⦄ ⦃depth bound : Nat⦄ ⦃kept last : Alternative⦄ ⦃pre : List Alternative⦄
    ⦃g : Growth⦄, n.IsTraceable true (some parent) → g.Keeps kept bound pre last →
      g.Within (Apart n.fields) → 1 ≤ bound → bound ≤ depth → (parent = .or → bound < depth) →
      (n.forksBelow parent = true → Growth.Stirred bound g.steps) →
        (n.grow k.registry (some parent) depth false g).Settled k kept pre
          (fun o => n.forksBelow parent = true ∧ o = last)
          (n.meaning (Constraint.holds k) = true)

variable {k : Setting}

/-! ## Nodes side by side -/

/-- New fields of a node and its successors are new for the successors after the node. -/
theorem within_grow_of_nodup {n : Node} {rest : List Node} (hn : n.IsSound k.registry)
    (hnodup : (fieldsOf (n :: rest)).Nodup) {g : Growth}
    (hwithin : g.Within (Apart (fieldsOf (n :: rest)))) (parent : Option Branch) (depth : Nat)
    (inNone : Bool) :
    (n.grow k.registry parent depth inNone g).Within (Apart (fieldsOf rest)) := by
  rw [fieldsOf_cons] at hnodup hwithin
  refine within_grow parent depth inNone (fun c hc => ?_) fun a ha =>
    within_apart_mono (List.subset_append_right _ _) (hwithin a ha)
  refine ⟨(hn.of_mem_constraints c hc).field, fun hmem => ?_⟩
  exact (List.nodup_append.mp hnodup).2.2 _ (List.mem_map.mpr ⟨c, hc, rfl⟩) _ hmem rfl

theorem isTraceable_of_nested {bound : Bool} {parent : Option Branch} {nodes : List Node}
    (h : ∀ n ∈ nodes, n.IsTraceable bound parent) :
    ∀ n ∈ nested nodes, n.IsTraceable bound parent := fun n hn => h n (List.mem_filter.mp hn).1

theorem fieldsOf_singleton (n : Node) : fieldsOf [n] = n.fields := by
  rw [fieldsOf_cons, fieldsOf, constraintsOf, List.map_nil, List.append_nil]

/-- Fewer nodes have fewer fields, in order. -/
theorem fieldsOf_sublist {ns nodes : List Node} (h : ns.Sublist nodes) :
    (fieldsOf ns).Sublist (fieldsOf nodes) := by
  induction h with
  | slnil => exact .refl _
  | cons n _ ih =>
    rw [fieldsOf_cons]
    exact ih.trans (List.sublist_append_right ..)
  | cons_cons n _ ih =>
    rw [fieldsOf_cons, fieldsOf_cons]
    exact (List.Sublist.refl _).append ih

/-- The fields of one of some nodes are distinct where those of all are. -/
theorem nodup_fields_of_mem {n : Node} {nodes : List Node} (h : (fieldsOf nodes).Nodup)
    (hn : n ∈ nodes) : n.fields.Nodup := by
  rw [← fieldsOf_singleton]
  exact h.sublist (fieldsOf_sublist (List.singleton_sublist.mpr hn))

/-- Where nothing forks, the own meaning of a traceable node below an AND is true. -/
theorem IsTraceable.ownMeaning {n : Node} (hcondition : n.isCondition = true)
    {parent : Option Branch} (h : n.IsTraceable true parent)
    (hfork : n.hasFork = false) : n.ownMeaning false = true := by
  induction n, hcondition using condition_induction generalizing parent with
  | condition b nodes outcome ih =>
    cases h with
    | and _ hnodes =>
      rw [hasFork_of_ne_or (by decide)] at hfork
      rw [Node.ownMeaning, allOwnMean_eq, Bool.and_eq_true, List.all_eq_true, List.all_eq_true]
      refine ⟨fun _ _ => rfl, fun n hn => ?_⟩
      have hmem : n ∈ nodes := (List.mem_filter.mp hn).1
      exact ih n hn (hnodes n hmem) (hasFork_of_mem hfork n hmem)
    | none _ _ hown => exact hown
    | forkless _ hown => exact hown
    | forks hsome _ =>
      obtain ⟨c, hc⟩ := List.exists_mem_of_ne_nil _ hsome
      rw [Node.ownMeaning, someOwnMean_eq, Bool.or_eq_true]
      exact .inl (List.any_eq_true.mpr ⟨c, hc, rfl⟩)

/-! ## AND -/

/-- **The conditions of an AND settle together**: nothing forks in them, or there is one only. -/
theorem settled_growAll_and {nodes : List Node} (hsound : ∀ n ∈ nodes, n.IsSound k.registry)
    (hnodup : (fieldsOf (nested nodes)).Nodup) (hfaithful : ∀ n ∈ nodes, n.IsFaithful k false)
    (hsettles : ∀ n ∈ nested nodes, n.Settles k)
    (htrace : ∀ n ∈ nodes, n.IsTraceable true (some .and))
    (hforks : haveFork nodes = true → (nested nodes).length ≤ 1) {g : Growth}
    {kept last : Alternative} {depth : Nat} {pre : List Alternative}
    (hkeeps : g.Keeps kept depth pre last) (hdepth : 1 ≤ depth)
    (hwithin : g.Within (Apart (fieldsOf (nested nodes)))) :
    (growAll k.registry (some .and) depth false nodes g).Settled k kept pre (fun _ => False)
      (∀ n ∈ nested nodes, n.meaning (Constraint.holds k) = true) := by
  have htraces := isTraceable_of_nested htrace
  have hbelow : ∀ n : Node, n.forksBelow .and = false := forksBelow_eq_false (by decide)
  cases hfork : haveFork nodes with
  | false =>
    -- all literals end up in the last alternative, which then has the own meaning of the conditions
    have hforkless : ∀ n ∈ nodes, n.hasFork = false := hasFork_of_mem hfork
    have hextends := extendsAll_grow .and depth false hsound hnodup
      (fun n hn => ⟨hbelow n, hforkless n hn⟩) (g := g)
      (by rw [hkeeps.last_eq]; exact hwithin last hkeeps.mem)
    refine hextends.settled hkeeps fun hmet n hn => ?_
    obtain ⟨hmem, hcondition⟩ := List.mem_filter.mp hn
    rw [meaning_eq_ownMeaning hcondition (hfaithful n hmem) (isMet_of_mem_nested hmet n hn)]
    exact (htrace n hmem).ownMeaning hcondition (hforkless n hmem)
  | true =>
    -- what forks is the only condition, so nothing that is added to the last alternative alone
    -- is missing from the others
    have hone := hforks hfork
    rw [← growAll_nested]
    generalize nested nodes = ns at hnodup hsettles hwithin htraces hone
    match ns, hone with
    | [], _ =>
      rw [growAll]
      exact ⟨[last], hkeeps.alternatives, by simp, List.forall_mem_singleton.mpr
        ⟨hkeeps.subset, .inr fun _ => nofun⟩⟩
    | [n], _ =>
      rw [growAll, growAll]
      obtain ⟨os, hos, hne, hall⟩ := hsettles n (List.mem_singleton.mpr rfl)
        (htraces n (List.mem_singleton.mpr rfl)) hkeeps (fieldsOf_singleton n ▸ hwithin) hdepth
        (Nat.le_refl depth) (by nofun) (by rw [hbelow]; nofun)
      refine ⟨os, hos, hne, fun o ho => ⟨(hall o ho).1, ?_⟩⟩
      rcases (hall o ho).2 with hstays | hgoal
      · rw [hbelow] at hstays
        cases hstays.1
      · exact .inr fun hmet => List.forall_mem_singleton.mpr (hgoal hmet)
    | _ :: _ :: _, hone => exact absurd hone (by simp)

/-- An AND holds where the literals of its constraints are met and its conditions hold. -/
theorem meaning_and_of_isMet {nodes : List Node} {outcome : Option Outcome}
    (hfaithful : (condition .and nodes outcome).IsFaithful k false) {o : Alternative}
    (hsubset : (directs nodes).map (literal k.registry false) ⊆ o) (hmet : o.isMet k = true)
    (hnested : ∀ n ∈ nested nodes, n.meaning (Constraint.holds k) = true) :
    (condition .and nodes outcome).meaning (Constraint.holds k) = true := by
  have hdirects : ∀ c ∈ directs nodes, c.holds k = true := fun c hc => by
    have hliteral := hfaithful.direct hc
    have hc' : literal k.registry false c ∈ (directs nodes).map (literal k.registry false) :=
      List.mem_map.mpr ⟨c, hc, rfl⟩
    rw [← Bool.bne_false (c.holds k)]
    exact hliteral.symm.trans (Alternative.isMet_iff.mp hmet _ (hsubset hc'))
  rw [meaning, allMean_eq, Bool.and_eq_true, List.all_eq_true, List.all_eq_true]
  exact ⟨hdirects, hnested⟩

/-- After an AND is attached, the last alternative keeps the AND's entries too, and the one before
it stays where the AND forks. -/
theorem exists_keeps_attachTable_and {nodes : List Node}
    (hsound : ∀ n ∈ nodes, n.IsSound k.registry)
    (hnodup : (fieldsOf nodes).Nodup) {parent : Branch} {depth bound : Nat}
    {kept last : Alternative} {pre : List Alternative} {g : Growth}
    (hkeeps : g.Keeps kept bound pre last) (hwithin : g.Within (Apart (fieldsOf nodes)))
    (hone : 1 ≤ bound) (hor : parent = .or → bound < depth)
    (hstirred : Growth.isFork .and (some parent) = true → Growth.Stirred bound g.steps) :
    ∃ stays last', (g.attachTable .and (some parent) depth
        ((directs nodes).map (literal k.registry false))).Keeps
        (kept ++ (directs nodes).map (literal k.registry false)) (depth + 1) (pre ++ stays) last' ∧
      ∀ o ∈ stays, Growth.isFork .and (some parent) = true ∧ o = last := by
  cases hfork : Growth.isFork .and (some parent) with
  | false =>
    refine ⟨[], last ++ (directs nodes).map (literal k.registry false),
      ⟨?_, ?_, Growth.shielded_attachTable_and ..⟩, List.forall_mem_nil _⟩
    · have hlast : g.last.Within (Apart (fieldsOf nodes)) := by
        rw [hkeeps.last_eq]
        exact hwithin last hkeeps.mem
      rw [List.append_nil]
      exact (extends_attachTable_directs hsound hnodup hfork hlast depth false).alternatives
        hkeeps.alternatives
    · exact List.append_subset.mpr ⟨fun e he => List.mem_append_left _ (hkeeps.subset he),
        List.subset_append_right _ _⟩
  | true =>
    obtain rfl : parent = .or := by
      cases parent <;> first | rfl | cases hfork
    have hbase := Growth.Within.forkBase hwithin (some .or) depth
    have hattach : (g.attachTable .and (some .or) depth
        ((directs nodes).map (literal k.registry false))).alternatives =
        g.alternatives ++ [g.forkBase (some .or) depth ++
          (directs nodes).map (literal k.registry false)] := by
      rw [Growth.attachTable, if_pos rfl,
        attach_directs_of_isFork hsound hnodup hfork hbase false]
      rfl
    refine ⟨[last], g.forkBase (some .or) depth ++ (directs nodes).map (literal k.registry false),
      ⟨?_, ?_, Growth.shielded_attachTable_and ..⟩, List.forall_mem_singleton.mpr ⟨rfl, rfl⟩⟩
    · rw [hattach, hkeeps.alternatives]
    · have hlt := hor rfl
      have hkept := hkeeps.subset_forkBase hwithin (hstirred rfl) (show 1 < depth by omega)
      exact List.append_subset.mpr ⟨fun e he => List.mem_append_left _ (hkept he),
        List.subset_append_right _ _⟩

/-- What an AND gathers leaves the fields of its conditions new. -/
theorem within_attachTable_directs {nodes : List Node} (hsound : ∀ n ∈ nodes, n.IsSound k.registry)
    (hnodup : (fieldsOf nodes).Nodup) {g : Growth} (hwithin : g.Within (Apart (fieldsOf nodes)))
    (b : Branch) (parent : Option Branch) (depth : Nat) (negated : Bool) :
    (g.attachTable b parent depth ((directs nodes).map (literal k.registry negated))).Within
      (Apart (fieldsOf (nested nodes))) :=
  Growth.Within.attachTable
    (fun a ha => within_apart_mono (fieldsOf_nested_subset nodes) (hwithin a ha))
    (within_directs hsound hnodup negated) b parent depth

/-- An AND settles: the entries of its constraints are kept while its conditions settle. -/
theorem settles_and {nodes : List Node} {outcome : Option Outcome}
    (hsound : ∀ n ∈ nodes, n.IsSound k.registry) (hnodup : (fieldsOf nodes).Nodup)
    (hfaithful : (condition .and nodes outcome).IsFaithful k false)
    (hsettles : ∀ n ∈ nested nodes, n.Settles k) : (condition .and nodes outcome).Settles k := by
  intro parent depth bound kept last pre g htrace hkeeps hwithin hone hbound hor hstirred
  obtain ⟨hforks, htraces⟩ : (haveFork nodes = true → (nested nodes).length ≤ 1) ∧
      ∀ n ∈ nodes, n.IsTraceable true (some .and) := by
    cases htrace with | and hforks htraces => exact ⟨hforks, htraces⟩
  obtain ⟨stays, last', hkeeps', hstays⟩ :=
    exists_keeps_attachTable_and hsound hnodup hkeeps hwithin hone hor hstirred
  obtain ⟨os, hos, hne, hall⟩ := settled_growAll_and hsound (nodup_fieldsOf_iff.mp hnodup).2.1
    (fun n hn => hfaithful.of_mem hn) hsettles htraces hforks hkeeps' (by omega)
    (within_attachTable_directs hsound hnodup hwithin .and (some parent) depth false)
  -- `stays` is the alternative that was forked, `os` what has become of the AND's own
  refine ⟨stays ++ os, ?_, by simp [hne], List.forall_mem_append.mpr ⟨fun o ho => ?_,
    fun o ho => ?_⟩⟩
  · rw [grow, gather_nil_eq hsound hnodup, ← List.append_assoc]
    exact hos
  · exact ⟨(hstays o ho).2 ▸ hkeeps.subset, .inl (hstays o ho)⟩
  · obtain ⟨hsubset, hgoal⟩ := hall o ho
    obtain ⟨hkept, hdirects⟩ := List.append_subset.mp hsubset
    exact ⟨hkept, .inr fun hmet =>
      meaning_and_of_isMet hfaithful hdirects hmet (hgoal.resolve_left id hmet)⟩

/-! ## NONE -/

theorem grow_none (nodes : List Node) (outcome : Option Outcome) (r : Registry)
    (parent : Option Branch) (depth : Nat) (inNone : Bool) (g : Growth) :
    (condition .none nodes outcome).grow r parent depth inNone g =
      growAll r (some .none) (depth + 1) true nodes
        (g.attachTable .none parent depth (Alternative.gather r true nodes [])) := by
  simp [grow]

theorem literals_none (nodes : List Node) (outcome : Option Outcome) (r : Registry)
    (inNone : Bool) : (condition .none nodes outcome).literals r inNone =
      (directs nodes).map (literal r true) ++ literalsOf r true nodes := by
  simp [literals]

/-- **A NONE that forks adds its literals**, or puts them behind the last alternative where it has
no constraint of its own. -/
theorem alternatives_grow_none {nodes : List Node} {outcome : Option Outcome}
    (hsound : ∀ n ∈ nodes, n.IsSound k.registry) (hnodup : (fieldsOf nodes).Nodup)
    (hforks : haveFork nodes = false) (hfew : (directs nodes).length ≤ 1)
    {parent : Option Branch} (hfork : Growth.isFork .none parent = true) {g : Growth}
    (hwithin : g.Within (Apart (fieldsOf nodes))) (depth : Nat) :
    Growth.Extends g ((condition .none nodes outcome).grow k.registry parent depth false g)
        ((condition .none nodes outcome).literals k.registry false) ∨
      ((condition .none nodes outcome).grow k.registry parent depth false g).alternatives =
        g.alternatives ++ [g.forkBase parent depth ++
          (condition .none nodes outcome).literals k.registry false] := by
  have hbelow : ∀ n ∈ nodes, n.forksBelow .none = false ∧ n.hasFork = false := fun n hn =>
    ⟨forksBelow_eq_false (by decide) n, hasFork_of_mem hforks n hn⟩
  have hnested := (nodup_fieldsOf_iff.mp hnodup).2.1
  have hwithin' := within_attachTable_directs hsound hnodup hwithin .none parent depth true
  have hextends := extendsAll_grow .none (depth + 1) true hsound hnested hbelow hwithin'.last
  have hattach := attach_directs_of_isFork hsound hnodup hfork
    (Growth.Within.forkBase hwithin parent depth) true
  rw [grow_none, literals_none, gather_nil_eq hsound hnodup]
  cases hdirects : directs nodes with
  | nil =>
    rw [hdirects] at hextends
    exact .inl hextends
  | cons c rest =>
    obtain rfl : rest = [] := by
      rw [hdirects, List.length_cons] at hfew
      exact List.length_eq_zero_iff.mp (by omega)
    rw [hdirects] at hextends hattach
    rw [← List.append_assoc]
    exact .inr (hextends.alternatives (congrArg Growth.alternatives hattach))

/-- A NONE settles by its own meaning, forking or not. -/
theorem settles_none {nodes : List Node} {outcome : Option Outcome}
    (hsound : (condition .none nodes outcome).IsSound k.registry) (hnodup : (fieldsOf nodes).Nodup)
    (hfaithful : (condition .none nodes outcome).IsFaithful k false) :
    (condition .none nodes outcome).Settles k := by
  intro parent depth bound kept last pre g htrace hkeeps hwithin hone hbound hor hstirred
  have hnodes : ∀ n ∈ nodes, n.IsSound k.registry := by cases hsound with | condition h => exact h
  obtain ⟨hfew, hforks, hown⟩ : (some parent = some Branch.and ∨ (directs nodes).length ≤ 1) ∧
      haveFork nodes = false ∧ (condition .none nodes outcome).ownMeaning false = true := by
    cases htrace with | none hfew hforks hown => exact ⟨hfew, hforks, hown⟩
  have hgoal : Alternative.isMet k ((condition .none nodes outcome).literals k.registry false) =
      true → (condition .none nodes outcome).meaning (Constraint.holds k) = true := fun hmet =>
    (meaning_eq_ownMeaning rfl hfaithful hmet).trans hown
  cases hfork : Growth.isFork .none (some parent) with
  | false =>
    refine (extends_grow parent depth false hsound hnodup hfork
      ((hasFork_of_ne_or (by decide) nodes outcome).trans hforks) ?_).settled hkeeps hgoal
    rw [hkeeps.last_eq]
    exact hwithin last hkeeps.mem
  | true =>
    obtain rfl : parent = .or := by
      cases parent <;> first | rfl | cases hfork
    rcases alternatives_grow_none hnodes hnodup hforks (hfew.resolve_left nofun) hfork hwithin
      depth with h | h
    · exact h.settled hkeeps hgoal
    · have hlt := hor rfl
      have hbase := hkeeps.subset_forkBase hwithin (hstirred rfl) (show 1 < depth by omega)
      rw [hkeeps.alternatives, List.append_assoc] at h
      refine ⟨_, h, by simp, List.forall_mem_cons.mpr ⟨⟨hkeeps.subset, .inl ⟨rfl, rfl⟩⟩,
        List.forall_mem_singleton.mpr ⟨fun e he => List.mem_append_left _ (hbase he), ?_⟩⟩⟩
      exact .inr fun hmet => hgoal (Alternative.isMet_of_subset (List.subset_append_right _ _) hmet)

/-! ## OR below an AND -/

/-- A node grows without touching what is kept. -/
theorem shielded_grow {n : Node} {parent : Option Branch} {depth bound : Nat} {inNone : Bool}
    {kept : Alternative} {g : Growth} (hdepth : bound ≤ depth)
    (hfields : ∀ f ∈ n.fields, f ∉ kept.fields)
    (h : Alternative.Shielded bound (· ∈ kept.fields) g.steps) :
    Alternative.Shielded bound (· ∈ kept.fields)
      (n.grow k.registry parent depth inNone g).steps := by
  obtain ⟨later, hlater, hwithin⟩ := exists_steps_grow parent depth inNone n g
  rw [hlater]
  exact Growth.shielded_append hdepth hfields hwithin h

theorem stirred_grow {n : Node} {parent : Option Branch} {depth bound : Nat} {inNone : Bool}
    {g : Growth} (hdepth : bound ≤ depth) (h : Growth.Stirred bound g.steps) :
    Growth.Stirred bound (n.grow k.registry parent depth inNone g).steps := by
  obtain ⟨later, hlater, hwithin⟩ := exists_steps_grow parent depth inNone n g
  rw [hlater]
  exact Growth.stirred_append hdepth hwithin h

/-- **The conditions of an OR settle one after another**, once all alternatives lead to the OR. -/
theorem settled_growAll_or {goal : Prop} {kept : Alternative} {pre : List Alternative}
    {depth bound : Nat} (hone : 1 ≤ bound) (hbound : bound < depth) {ns : List Node}
    (hsound : ∀ n ∈ ns, n.IsSound k.registry) (hnodup : (fieldsOf ns).Nodup)
    (hsettles : ∀ n ∈ ns, n.Settles k) (htrace : ∀ n ∈ ns, n.IsTraceable true (some .or))
    (hgoal : ∀ n ∈ ns, n.meaning (Constraint.holds k) = true → goal) {g : Growth}
    {os : List Alternative} (hos : g.alternatives = pre ++ os) (hne : os ≠ [])
    (hkept : ∀ o ∈ os, kept ⊆ o)
    (hshielded : Alternative.Shielded bound (· ∈ kept.fields) g.steps)
    (hwithin : g.Within (Apart (fieldsOf ns)))
    (hstirred : Growth.Stirred bound g.steps) (hreached : ∀ o ∈ os, o.isMet k = true → goal) :
    (growAll k.registry (some .or) depth false ns g).Settled k kept pre (fun _ => False) goal := by
  induction ns generalizing g os with
  | nil =>
    rw [growAll]
    exact ⟨os, hos, hne, fun o ho => ⟨hkept o ho, .inr (hreached o ho)⟩⟩
  | cons n rest ih =>
    -- the node changes the last alternative only, and leaves it where it forks
    obtain ⟨earlier, last, rfl⟩ : ∃ earlier last, os = earlier ++ [last] :=
      ⟨os.dropLast, os.getLast hne, (List.dropLast_concat_getLast hne).symm⟩
    obtain ⟨hsoundn, hsoundrest⟩ := List.forall_mem_cons.mp hsound
    have hkeeps : g.Keeps kept bound (pre ++ earlier) last :=
      ⟨by rw [hos, List.append_assoc], hkept last (by simp), hshielded⟩
    have hnew : g.Within (Apart n.fields) := fun a ha =>
      within_apart_mono (fieldsOf_cons n rest ▸ List.subset_append_left _ _) (hwithin a ha)
    obtain ⟨later, hlater, hsome, hall⟩ := hsettles n (List.mem_cons_self ..)
      (htrace n (List.mem_cons_self ..)) hkeeps hnew hone (Nat.le_of_lt hbound) (fun _ => hbound)
      fun _ => hstirred
    rw [growAll]
    refine ih hsoundrest ?_ (List.forall_mem_cons.mp hsettles).2 (List.forall_mem_cons.mp htrace).2
      (List.forall_mem_cons.mp hgoal).2 (hlater.trans (List.append_assoc ..)) (by simp [hsome]) ?_
      (shielded_grow (Nat.le_of_lt hbound) (hkeeps.not_mem_fields hnew) hshielded)
      (within_grow_of_nodup hsoundn hnodup hwithin (some .or) depth false)
      (stirred_grow (Nat.le_of_lt hbound) hstirred) ?_
    · rw [fieldsOf_cons] at hnodup
      exact (List.nodup_append.mp hnodup).2.1
    · exact List.forall_mem_append.mpr ⟨fun o ho => hkept o (List.mem_append_left _ ho),
        fun o ho => (hall o ho).1⟩
    · refine List.forall_mem_append.mpr ⟨fun o ho => hreached o (List.mem_append_left _ ho),
        fun o ho => ?_⟩
      rcases (hall o ho).2 with ⟨_, rfl⟩ | hmeaning
      · exact hreached o (by simp)
      · exact fun hmet => hgoal n (List.mem_cons_self ..) (hmeaning hmet)

/-- An OR holds where one of its conditions does. -/
theorem meaning_or_of_nested {nodes : List Node} (outcome : Option Outcome) {n : Node}
    (hn : n ∈ nested nodes) (h : n.meaning (Constraint.holds k) = true) :
    (condition .or nodes outcome).meaning (Constraint.holds k) = true := by
  rw [meaning, someMean_eq, Bool.or_eq_true]
  exact .inr (List.any_eq_true.mpr ⟨n, hn, h⟩)

/-- An OR with a constraint holds where the literals of its constraints are met. -/
theorem meaning_or_of_isMet {nodes : List Node} {outcome : Option Outcome}
    (hfaithful : (condition .or nodes outcome).IsFaithful k false) {o : Alternative}
    {c : Constraint}
    (hc : c ∈ directs nodes) (hmem : literal k.registry false c ∈ o) (hmet : o.isMet k = true) :
    (condition .or nodes outcome).meaning (Constraint.holds k) = true := by
  have hholds : c.holds k = true := by
    rw [← Bool.bne_false (c.holds k)]
    exact (hfaithful.direct hc).symm.trans (Alternative.isMet_iff.mp hmet _ hmem)
  rw [meaning, someMean_eq, Bool.or_eq_true]
  exact .inl (List.any_eq_true.mpr ⟨c, hc, hholds⟩)

/-- An OR settles by its own meaning, or one alternative after another. -/
theorem settles_or {nodes : List Node} {outcome : Option Outcome}
    (hsound : ∀ n ∈ nodes, n.IsSound k.registry) (hnodup : (fieldsOf nodes).Nodup)
    (hfaithful : (condition .or nodes outcome).IsFaithful k false)
    (hsettles : ∀ n ∈ nested nodes, n.Settles k) : (condition .or nodes outcome).Settles k := by
  intro parent depth bound kept last pre g htrace hkeeps hwithin hone hbound hor hstirred
  have hfork : Growth.isFork .or (some parent) = false := by cases parent <;> rfl
  have hlast : g.last.Within (Apart (fieldsOf nodes)) := by
    rw [hkeeps.last_eq]
    exact hwithin last hkeeps.mem
  cases htrace with
  | forkless hforkless hown =>
    exact (extends_grow parent depth false (.condition hsound) hnodup hfork hforkless
      hlast).settled hkeeps fun hmet => (meaning_eq_ownMeaning rfl hfaithful hmet).trans hown
  | forks hsome htraces =>
    -- the OR's own constraint is in the last alternative before anything forks from it
    have hsoundnested : ∀ n ∈ nested nodes, n.IsSound k.registry := fun n hn =>
      hsound n (List.mem_filter.mp hn).1
    have hextends := extends_attachTable_directs hsound hnodup hfork hlast depth false
    obtain ⟨later, hlater, hsteps⟩ := Growth.exists_steps_attachTable .or (some parent) depth
      ((directs nodes).map (literal k.registry false)) g
    have hnew : ∀ f ∈ Alternative.fields ((directs nodes).map (literal k.registry false)),
        f ∉ kept.fields := fun f hf =>
      hkeeps.not_mem_fields hwithin f (fields_literals_subset false nodes hf)
    obtain ⟨c, hc⟩ := List.exists_mem_of_ne_nil _ hsome
    have hsettled := settled_growAll_or (g := g.attachTable .or (some parent) depth
        ((directs nodes).map (literal k.registry false))) hone (show bound < depth + 1 by omega)
      hsoundnested (nodup_fieldsOf_iff.mp hnodup).2.1 hsettles (isTraceable_of_nested htraces)
      (fun n hn => meaning_or_of_nested outcome hn)
      (hextends.alternatives hkeeps.alternatives) (by simp)
      (List.forall_mem_singleton.mpr fun e he => List.mem_append_left _ (hkeeps.subset he))
      (hlater ▸ Growth.shielded_append hbound hnew hsteps hkeeps.shielded)
      (within_attachTable_directs hsound hnodup hwithin .or (some parent) depth false)
      (fun s hs => ?_) (List.forall_mem_singleton.mpr fun hmet => ?_)
    · rw [growAll_nested] at hsettled
      obtain ⟨os, hos, hne, hall⟩ := hsettled
      refine ⟨os, ?_, hne, fun o ho => ⟨(hall o ho).1, .inr ((hall o ho).2.resolve_left id)⟩⟩
      rw [grow, gather_nil_eq hsound hnodup]
      exact hos
    · have hne : (directs nodes).map (literal k.registry false) ≠ [] := fun h =>
        hsome (List.map_eq_nil_iff.mp h)
      exact Nat.le_trans hbound (Growth.stirred_attachTable hne .or (some parent) depth g s hs)
    · exact meaning_or_of_isMet hfaithful hc
        (List.mem_append_right _ (List.mem_map.mpr ⟨c, hc, rfl⟩)) hmet

/-! ## All nodes -/

/-- **What grows from a traceable condition below an AND leads back to it.** -/
theorem settles {n : Node} (hcondition : n.isCondition = true) (hsound : n.IsSound k.registry)
    (hnodup : n.fields.Nodup) (hfaithful : n.IsFaithful k false) : n.Settles k := by
  induction n, hcondition using condition_induction with
  | condition b nodes outcome ih =>
    have hnodes : ∀ n ∈ nodes, n.IsSound k.registry := by cases hsound with | condition h => exact h
    have hsettles : b ≠ .none → ∀ n ∈ nested nodes, n.Settles k := fun hb n hn => by
      have hmem : n ∈ nodes := (List.mem_filter.mp hn).1
      have hnested := hfaithful.of_mem hmem
      rw [decide_eq_false hb] at hnested
      exact ih n hn (hnodes n hmem)
        (nodup_fields_of_mem (nodup_fieldsOf_iff.mp hnodup).2.1 hn) hnested
    cases b with
    | and => exact settles_and hnodes hnodup hfaithful (hsettles (by decide))
    | or => exact settles_or hnodes hnodup hfaithful (hsettles (by decide))
    | none => exact settles_none hsound hnodup hfaithful

theorem settles_nested {nodes : List Node} {outcome : Option Outcome}
    (hsound : ∀ n ∈ nodes, n.IsSound k.registry) (hnodup : (fieldsOf nodes).Nodup)
    (hfaithful : (condition .and nodes outcome).IsFaithful k false) :
    ∀ n ∈ nested nodes, n.Settles k := fun n hn =>
  have hmem : n ∈ nodes := (List.mem_filter.mp hn).1
  settles (List.mem_filter.mp hn).2 (hsound n hmem)
    (nodup_fields_of_mem (nodup_fieldsOf_iff.mp hnodup).2.1 hn) (hfaithful.of_mem hmem)

end Node

end Verdict
