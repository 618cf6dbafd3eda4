import Verdict.Proofs.Introspection.Forkless

/-!
# Proofs/Introspection/Contribution — what a range takes from those before it

    grow          : Node → Growth → Growth
       ║ foldl contribute
    contributions : Node → List Contribution

A node attaches the same **contributions** to every range; only what a fork deeper than one level
copies, and what the others are merged into, comes from the range.  Contributions are **contained**
when the changes that a copy goes without are all their own, and they are **opening** when the first
of them adds an alternative that is no copy.  Contained and opening contributions grow behind any
alternatives and after any steps as they grow alone (`Growth.foldl_contribute_onto`), and those of a
root with constraints directly under it are both (`Node.isApart_of_isAnchored`).
-/

namespace Verdict

/-- An alternative that a condition attaches. -/
structure Contribution where
  branch : Branch
  parent : Option Branch
  depth : Nat
  alternative : Alternative

namespace Contribution

/-- Whether it starts from a copy of the last alternative. -/
def isCopy (c : Contribution) : Bool :=
  c.parent == some .or && c.branch != .or && decide (1 < c.depth)

/-- The step that is remembered of it. -/
def step (c : Contribution) : Step :=
  ⟨c.parent, c.branch, c.depth,
    if Growth.isFork c.branch c.parent then none
    else some (c.alternative.map fun e => ⟨e.1, e.2⟩)⟩

/-- Whether undoing the changes of the latest steps comes to an end among these steps. -/
def isBounded : List Step → Bool
  | [] => true
  | s :: rest => (s.changes.getD []).isEmpty || rest.any fun t => t.depth != s.depth

/-- Whether the changes that copies go without are all among some steps and those of the
contributions. -/
def areContained : List Step → List Contribution → Bool
  | _, [] => true
  | steps, c :: rest => (!c.isCopy || isBounded steps) && areContained (c.step :: steps) rest

/-- Whether the first contribution, if any, adds an alternative that is no copy. -/
def areOpening (cs : List Contribution) : Bool :=
  cs.head?.all fun c => Growth.isFork c.branch c.parent && !c.isCopy

end Contribution

namespace Alternative

theorem undo_nil (c : Change) : undo [] c = [] := rfl

theorem undoSteps_nil (depth : Nat) : ∀ steps : List Step, undoSteps [] depth steps = []
  | [] => rfl
  | s :: rest => by
    have hnone : ∀ changes : List Change, changes.foldl undo [] = [] := fun changes => by
      induction changes with
      | nil => rfl
      | cons c changes ih => rw [List.foldl_cons, undo_nil, ih]
    rw [undoSteps, hnone, undoSteps_nil depth rest, ite_self]

/-- Undoing comes to an end at a step of another depth, whatever steps were taken before. -/
theorem undoSteps_append {depth : Nat} (earlier : List Step) : ∀ {steps : List Step}
    (a : Alternative), (∃ s ∈ steps, s.depth ≠ depth) →
      a.undoSteps depth (steps ++ earlier) = a.undoSteps depth steps
  | [], _, h => nomatch h
  | s :: rest, a, h => by
    rw [List.cons_append, undoSteps, undoSteps]
    split
    · next heq =>
      refine undoSteps_append earlier _ ?_
      obtain ⟨t, ht, hne⟩ := h
      rcases List.mem_cons.mp ht with rfl | ht
      · exact absurd heq hne
      · exact ⟨t, ht, hne⟩
    · rfl

end Alternative

/-! ## Behind another range -/

namespace Growth

open Contribution

/-- Attach a contribution. -/
def contribute (g : Growth) (c : Contribution) : Growth :=
  g.attach c.branch c.parent c.depth c.alternative

/-- A range behind other alternatives and after other steps. -/
def onto (g : Growth) (before : List Alternative) (earlier : List Step) : Growth :=
  ⟨before ++ g.alternatives, g.steps ++ earlier⟩

variable {g : Growth} {c : Contribution}

/-- A fork adds an alternative. -/
theorem contribute_of_isFork (hfork : isFork c.branch c.parent = true) (g : Growth) :
    g.contribute c = g.add c.step
      (if c.isCopy then g.unwound.mergeInto c.alternative else c.alternative) := by
  have hstep : c.step = ⟨c.parent, c.branch, c.depth, none⟩ := by rw [step, if_pos hfork]
  rw [hstep]
  obtain ⟨b, parent, depth, a⟩ := c
  cases parent with
  | none => rfl
  | some p =>
    have hp : p = .or ∧ b ≠ .or := by simpa [isFork] using hfork
    simp [contribute, attach, isCopy, hp.1, hp.2]

/-- What does not fork replaces the last alternative. -/
theorem contribute_of_not_isFork (hfork : isFork c.branch c.parent = false) (g : Growth) :
    g.contribute c = g.replaceLast c.step (g.last.mergeInto c.alternative) := by
  rw [contribute, attach_of_not_isFork hfork, step, if_neg (Bool.eq_false_iff.mp hfork)]

theorem steps_contribute (g : Growth) (c : Contribution) :
    (g.contribute c).steps = c.step :: g.steps := by
  cases hfork : isFork c.branch c.parent with
  | true => rw [contribute_of_isFork hfork, add]
  | false => rw [contribute_of_not_isFork hfork, replaceLast]

theorem alternatives_contribute_ne_nil (g : Growth) (c : Contribution) :
    (g.contribute c).alternatives ≠ [] := by
  cases hfork : isFork c.branch c.parent with
  | true => simp [contribute_of_isFork hfork, add]
  | false => simp [contribute_of_not_isFork hfork, replaceLast]

/-- The last alternative of a range that has one, or stands behind none, stays the last. -/
theorem last_onto {before : List Alternative} (hlast : g.alternatives ≠ [] ∨ before = [])
    (earlier : List Step) : (g.onto before earlier).last = g.last := by
  rw [last, last, onto]
  rcases hlast with hne | rfl
  · rw [List.getLast?_append, List.getLast?_eq_some_getLast hne]
    rfl
  · rfl

/-- **A copy goes without changes of the range alone**, where its steps bound them. -/
theorem unwound_onto {before : List Alternative} {earlier : List Step}
    (hlast : (g.onto before earlier).last = g.last) (hnone : g.steps = [] → g.last = [])
    (hbounded : isBounded g.steps = true) : (g.onto before earlier).unwound = g.unwound := by
  unfold unwound
  rw [hlast]
  cases hsteps : g.steps with
  | nil =>
    -- Nothing can be taken out of an alternative without requirements.
    have hsame : (g.onto before earlier).steps = earlier := by rw [onto, hsteps]; rfl
    rw [hnone hsteps, hsame]
    cases earlier with
    | nil => rfl
    | cons s rest => simp [Alternative.undoSteps_nil]
  | cons s rest =>
    have hsame : (g.onto before earlier).steps = s :: (rest ++ earlier) := by
      rw [onto, hsteps]
      rfl
    rw [hsteps, isBounded, Bool.or_eq_true] at hbounded
    rw [hsame]
    dsimp only
    split
    · rfl
    · next hchanges =>
      obtain ⟨t, ht, hdepth⟩ := List.any_eq_true.mp (hbounded.resolve_left hchanges)
      exact Alternative.undoSteps_append earlier g.last
        ⟨t, List.mem_cons_of_mem s ht, bne_iff_ne.mp hdepth⟩

theorem onto_add (before : List Alternative) (earlier : List Step) (s : Step) (a : Alternative) :
    (g.onto before earlier).add s a = (g.add s a).onto before earlier := by
  rw [add, add, onto, onto, List.append_assoc, List.cons_append]

theorem onto_replaceLast {before : List Alternative} (hlast : g.alternatives ≠ [] ∨ before = [])
    (earlier : List Step) (s : Step) (a : Alternative) :
    (g.onto before earlier).replaceLast s a = (g.replaceLast s a).onto before earlier := by
  rw [replaceLast, replaceLast, onto, onto, List.cons_append]
  rcases hlast with hne | rfl
  · rw [List.dropLast_append_of_ne_nil hne, List.append_assoc]
  · rfl

/-- **A contribution is attached behind other alternatives as it is alone**, where a copy is
bounded and no other alternative is copied or merged into. -/
theorem contribute_onto {before : List Alternative} (earlier : List Step)
    (hnone : g.steps = [] → g.alternatives = [])
    (hlast : (g.alternatives ≠ [] ∨ before = []) ∨ areOpening [c] = true)
    (hbounded : c.isCopy = true → isBounded g.steps = true) :
    (g.onto before earlier).contribute c = (g.contribute c).onto before earlier := by
  have hempty : g.steps = [] → g.last = [] := fun h => by rw [last, hnone h]; rfl
  cases hfork : isFork c.branch c.parent with
  | true =>
    rw [contribute_of_isFork hfork, contribute_of_isFork hfork, ← onto_add]
    cases hcopy : c.isCopy with
    | false => rfl
    | true =>
      have hlast : g.alternatives ≠ [] ∨ before = [] :=
        hlast.resolve_right (by simp [areOpening, hcopy])
      rw [unwound_onto (last_onto hlast earlier) hempty (hbounded hcopy)]
  | false =>
    have hlast : g.alternatives ≠ [] ∨ before = [] :=
      hlast.resolve_right (by simp [areOpening, hfork])
    rw [contribute_of_not_isFork hfork, contribute_of_not_isFork hfork, last_onto hlast,
      onto_replaceLast hlast]

/-- **Contained and opening contributions grow behind other alternatives, and after other steps, as
they grow alone.**  They need not be opening where there are no other alternatives. -/
theorem foldl_contribute_onto {before : List Alternative} (earlier : List Step) :
    ∀ {cs : List Contribution} {g : Growth}, (g.steps = [] → g.alternatives = []) →
      (g.alternatives ≠ [] ∨ before = []) ∨ areOpening cs = true →
      areContained g.steps cs = true →
        cs.foldl contribute (g.onto before earlier) =
          (cs.foldl contribute g).onto before earlier
  | [], _, _, _, _ => rfl
  | c :: rest, g, hnone, hlast, hcontained => by
    rw [areContained, Bool.and_eq_true, Bool.or_eq_true, Bool.not_eq_true'] at hcontained
    obtain ⟨hcopy, hrest⟩ := hcontained
    have hbounded : c.isCopy = true → isBounded g.steps = true := fun h =>
      hcopy.resolve_left (by simp [h])
    have hsteps := steps_contribute g c
    rw [List.foldl_cons, List.foldl_cons, contribute_onto earlier hnone hlast hbounded]
    refine foldl_contribute_onto earlier (fun h => ?_)
      (.inl (.inl (alternatives_contribute_ne_nil g c))) (hsteps ▸ hrest)
    rw [hsteps] at h
    cases h

end Growth

/-! ## The contributions of nodes -/

/-- What a condition attaches of what its constraints gather. -/
def Contribution.ofTable (b : Branch) (parent : Option Branch) (depth : Nat) (a : Alternative) :
    List Contribution :=
  if b = .and then [⟨b, parent, depth, a⟩] else a.map fun e => ⟨b, parent, depth, [e]⟩

theorem Growth.foldl_ofTable (b : Branch) (parent : Option Branch) (depth : Nat)
    (a : Alternative) (g : Growth) :
    (Contribution.ofTable b parent depth a).foldl contribute g =
      g.attachTable b parent depth a := by
  unfold Contribution.ofTable attachTable
  split
  · rfl
  · rw [List.foldl_map]
    rfl

namespace Node

variable {r : Registry}

mutual

/-- What a condition and those below it attach, one after another. -/
def contributions (r : Registry) (parent : Option Branch) (depth : Nat) (inNone : Bool) :
    Node → List Contribution
  | .condition b nodes _ =>
    let negated := inNone || b = .none
    Contribution.ofTable b parent depth (Alternative.gather r negated nodes []) ++
      contributionsOf r (some b) (depth + 1) negated nodes
  | .constraint _ => []
  | .invalid _ => []

/-- What the conditions among nodes attach. -/
def contributionsOf (r : Registry) (parent : Option Branch) (depth : Nat) (inNone : Bool) :
    List Node → List Contribution
  | [] => []
  | n :: rest => contributions r parent depth inNone n ++ contributionsOf r parent depth inNone rest

end

mutual

/-- **Growing by a node is attaching its contributions.** -/
theorem grow_eq_foldl (parent : Option Branch) (depth : Nat) (inNone : Bool) :
    ∀ (n : Node) (g : Growth), n.grow r parent depth inNone g =
      (n.contributions r parent depth inNone).foldl Growth.contribute g
  | .condition b nodes _, g => by
    rw [grow, contributions, List.foldl_append, Growth.foldl_ofTable,
      growAll_eq_foldl (some b) (depth + 1) (inNone || b = .none) nodes]
  | .constraint _, g => by
    rw [grow, contributions]
    rfl
  | .invalid _, g => by
    rw [grow, contributions]
    rfl

theorem growAll_eq_foldl (parent : Option Branch) (depth : Nat) (inNone : Bool) :
    ∀ (nodes : List Node) (g : Growth), growAll r parent depth inNone nodes g =
      (contributionsOf r parent depth inNone nodes).foldl Growth.contribute g
  | [], g => by
    rw [growAll, contributionsOf]
    rfl
  | n :: rest, g => by
    rw [growAll, contributionsOf, List.foldl_append, growAll_eq_foldl parent depth inNone rest,
      grow_eq_foldl parent depth inNone n]

end

/-! ## Roots -/

/-- Whether what copies in the range of some roots go without comes from these roots alone. -/
def areContained (r : Registry) (roots : List Node) : Bool :=
  Contribution.areContained [] (contributionsOf r none 0 false roots)

/-- Whether a root begins with an alternative of its own and is contained. -/
def isApart (r : Registry) (root : Node) : Bool :=
  Contribution.areOpening (root.contributions r none 0 false) && areContained r [root]

theorem contributionsOf_singleton (parent : Option Branch) (depth : Nat) (inNone : Bool)
    (n : Node) : contributionsOf r parent depth inNone [n] =
      n.contributions r parent depth inNone := by
  rw [contributionsOf, contributionsOf, List.append_nil]

/-- **Contained roots grow the same alternatives after any steps.** -/
theorem alternatives_growAll_of_areContained {roots : List Node}
    (h : areContained r roots = true) (steps : List Step) :
    (growAll r none 0 false roots ⟨[], steps⟩).alternatives =
      (growAll r none 0 false roots ⟨[], []⟩).alternatives := by
  rw [areContained] at h
  have honto : Growth.onto ⟨[], []⟩ [] steps = ⟨[], steps⟩ := rfl
  rw [growAll_eq_foldl, growAll_eq_foldl, ← honto,
    Growth.foldl_contribute_onto steps (fun _ => rfl) (.inl (.inr rfl)) h]
  rfl

/-- A root that stands apart grows behind any alternatives as it grows alone. -/
theorem grow_of_isApart {root : Node} (h : root.isApart r = true) (before : List Alternative)
    (steps : List Step) : root.grow r none 0 false ⟨before, steps⟩ =
      (root.grow r none 0 false ⟨[], []⟩).onto before steps := by
  rw [isApart, Bool.and_eq_true, areContained, contributionsOf_singleton] at h
  have honto : Growth.onto ⟨[], []⟩ before steps = ⟨before, steps⟩ := by
    rw [Growth.onto, List.append_nil, List.nil_append]
  rw [grow_eq_foldl, grow_eq_foldl, ← honto,
    Growth.foldl_contribute_onto steps (fun _ => rfl) (.inr h.1) h.2]

/-- **Roots that stand apart grow their alternatives one after another**, each as it grows alone. -/
theorem alternatives_growAll_of_isApart : ∀ {roots : List Node},
    (∀ n ∈ roots, n.isApart r = true) → ∀ g : Growth,
      (growAll r none 0 false roots g).alternatives = g.alternatives ++
        roots.flatMap fun n => (n.grow r none 0 false ⟨[], []⟩).alternatives
  | [], _, g => by
    rw [growAll, List.flatMap_nil, List.append_nil]
  | n :: rest, h, g => by
    obtain ⟨hn, hrest⟩ := List.forall_mem_cons.mp h
    rw [growAll, alternatives_growAll_of_isApart hrest, grow_of_isApart hn g.alternatives g.steps,
      List.flatMap_cons, Growth.onto, List.append_assoc]

end Node

/-! ## Roots with something of their own -/

namespace Contribution

/-- Steps with one at depth 0, and changes only below it. -/
structure IsGrounded (steps : List Step) : Prop where
  root : ∃ s ∈ steps, s.depth = 0
  deeper : ∀ s ∈ steps, s.changes.isSome = true → 0 < s.depth

theorem IsGrounded.isBounded {steps : List Step} (h : IsGrounded steps) :
    isBounded steps = true := by
  cases steps with
  | nil => rfl
  | cons s rest =>
    rw [Contribution.isBounded, Bool.or_eq_true, List.any_eq_true]
    cases hchanges : s.changes with
    | none => exact .inl rfl
    | some changes =>
      have hdepth : 0 < s.depth := h.deeper s (List.mem_cons_self ..) (by rw [hchanges]; rfl)
      obtain ⟨t, ht, hroot⟩ := h.root
      rcases List.mem_cons.mp ht with rfl | ht
      · exact absurd hroot (Nat.ne_of_gt hdepth)
      · exact .inr ⟨t, ht, bne_iff_ne.mpr fun heq => absurd (heq ▸ hroot) (Nat.ne_of_gt hdepth)⟩

/-- After grounded steps, contributions of roots and of what is below them are contained. -/
theorem areContained_of_isGrounded : ∀ {cs : List Contribution},
    (∀ c ∈ cs, c.parent = none ∨ 0 < c.depth) → ∀ {steps : List Step}, IsGrounded steps →
      areContained steps cs = true
  | [], _, _, _ => rfl
  | c :: rest, h, steps, hsteps => by
    obtain ⟨hc, hrest⟩ := List.forall_mem_cons.mp h
    have hdeeper : c.step.changes.isSome = true → 0 < c.depth := fun hsome =>
      hc.resolve_left fun hroot => by simp [step, Growth.isFork, hroot] at hsome
    have hgrounded : IsGrounded (c.step :: steps) :=
      ⟨hsteps.root.imp fun s hs => ⟨List.mem_cons_of_mem _ hs.1, hs.2⟩,
        List.forall_mem_cons.mpr ⟨hdeeper, hsteps.deeper⟩⟩
    rw [areContained, hsteps.isBounded, Bool.or_true, Bool.true_and]
    exact areContained_of_isGrounded hrest hgrounded

end Contribution

namespace Node

variable {r : Registry}

mutual

/-- What is attached below the roots is deeper than they are. -/
theorem deeper_contributions {parent : Option Branch} {depth : Nat} (inNone : Bool)
    (hdepth : parent = none ∨ 0 < depth) : ∀ (n : Node),
      ∀ c ∈ n.contributions r parent depth inNone, c.parent = none ∨ 0 < c.depth
  | .condition b nodes _, c, hc => by
    rw [contributions] at hc
    rcases List.mem_append.mp hc with hc | hc
    · unfold Contribution.ofTable at hc
      split at hc
      · rw [List.mem_singleton.mp hc]
        exact hdepth
      · obtain ⟨e, _, rfl⟩ := List.mem_map.mp hc
        exact hdepth
    · exact deeper_contributionsOf _ (.inr (Nat.succ_pos depth)) nodes c hc
  | .constraint _, c, hc => by
    rw [contributions] at hc
    cases hc
  | .invalid _, c, hc => by
    rw [contributions] at hc
    cases hc

theorem deeper_contributionsOf {parent : Option Branch} {depth : Nat} (inNone : Bool)
    (hdepth : parent = none ∨ 0 < depth) : ∀ (nodes : List Node),
      ∀ c ∈ contributionsOf r parent depth inNone nodes, c.parent = none ∨ 0 < c.depth
  | [], c, hc => by
    rw [contributionsOf] at hc
    cases hc
  | n :: rest, c, hc => by
    rw [contributionsOf] at hc
    rcases List.mem_append.mp hc with hc | hc
    · exact deeper_contributions inNone hdepth n c hc
    · exact deeper_contributionsOf inNone hdepth rest c hc

end

/-- Whether a condition attaches something of its own: an AND does, others with constraints do. -/
def isAnchored : Node → Bool
  | .condition b nodes _ => b == .and || !(directs nodes).isEmpty
  | _ => false

theorem gatherOne_ne_nil (r : Registry) (negated : Bool) (a : Alternative) (c : Constraint) :
    Alternative.gatherOne r negated a c ≠ [] := by
  unfold Alternative.gatherOne
  dsimp only
  split
  · unfold Alternative.put
    split
    · simp
    · split <;> simp
  · simp

/-- Gathering constraints gathers something. -/
theorem gather_ne_nil (negated : Bool) : ∀ {nodes : List Node} {a : Alternative},
    a ≠ [] ∨ directs nodes ≠ [] → Alternative.gather r negated nodes a ≠ []
  | [], _, h => h.resolve_right fun h => h rfl
  | .constraint c :: _, a, _ => by
    rw [Alternative.gather]
    exact gather_ne_nil negated (.inl (gatherOne_ne_nil r negated a c))
  | .condition .. :: _, _, h => by
    rw [Alternative.gather]
    exact gather_ne_nil negated h
  | .invalid _ :: _, _, h => by
    rw [Alternative.gather]
    exact gather_ne_nil negated h

/-- The first contribution of an anchored root is the root's. -/
theorem contributions_of_isAnchored : ∀ {root : Node}, root.isAnchored = true →
    ∃ c rest, root.contributions r none 0 false = c :: rest ∧ c.parent = none ∧ c.depth = 0
  | .condition b nodes _, h => by
    rw [isAnchored, Bool.or_eq_true, beq_iff_eq, Bool.not_eq_true', List.isEmpty_eq_false_iff] at h
    rw [contributions]
    unfold Contribution.ofTable
    split
    · exact ⟨_, _, rfl, rfl, rfl⟩
    · next hb =>
      have hne : Alternative.gather r (false || b = .none) nodes [] ≠ [] :=
        gather_ne_nil _ (.inr (h.resolve_left hb))
      obtain ⟨e, rest, heq⟩ := List.exists_cons_of_ne_nil hne
      rw [heq]
      exact ⟨_, _, rfl, rfl, rfl⟩
  | .constraint _, h => nomatch h
  | .invalid _, h => nomatch h

/-- **Roots of which the first is anchored are contained.** -/
theorem areContained_of_isAnchored {root : Node} (h : root.isAnchored = true)
    (others : List Node) : areContained r (root :: others) = true := by
  obtain ⟨c, rest, hroot, hparent, hdepth⟩ := contributions_of_isAnchored (r := r) h
  have hdeeper : ∀ c ∈ contributionsOf r none 0 false (root :: others),
      c.parent = none ∨ 0 < c.depth :=
    deeper_contributionsOf false (.inl rfl) (root :: others)
  rw [contributionsOf, hroot, List.cons_append, List.forall_mem_cons] at hdeeper
  have hgrounded : Contribution.IsGrounded [c.step] :=
    ⟨⟨c.step, List.mem_singleton_self _, hdepth⟩, List.forall_mem_singleton.mpr fun hsome => by
      simp [Contribution.step, Growth.isFork, hparent] at hsome⟩
  rw [areContained, contributionsOf, hroot, List.cons_append, Contribution.areContained,
    Contribution.isCopy, hparent, Contribution.areContained_of_isGrounded hdeeper.2 hgrounded]
  rfl

/-- **An anchored root stands apart.** -/
theorem isApart_of_isAnchored {root : Node} (h : root.isAnchored = true) :
    root.isApart r = true := by
  obtain ⟨c, rest, hroot, hparent, _⟩ := contributions_of_isAnchored (r := r) h
  rw [isApart, areContained_of_isAnchored h, hroot, Contribution.areOpening, List.head?_cons,
    Option.all_some, Contribution.isCopy, hparent]
  rfl

end Node

end Verdict
