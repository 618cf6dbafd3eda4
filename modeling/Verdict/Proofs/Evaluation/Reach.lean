import Verdict.Proofs.Evaluation.Walk

/-!
# Proofs/Evaluation/Reach — what evaluation gets to

    roots       [0]         [1]            [2]       reached while all roots before it go on
                         ╱   │   ╲
    nodes           [1,0]  [1,1]  [1,2]              reached while no sibling before it stops
                             ✗      —                the condition

`Rule.Reached` says what evaluation gets to without evaluating in order.  A node is named by its
positions from the root down, so the order of the document is the lexicographic one.
-/

namespace Verdict

/-! ## What is reached -/

/-- A node at which a condition of a branch stops. -/
inductive Node.Stops (k : Setting) : Branch → Node → Prop
  /-- Under AND a constraint that fails. -/
  | failing {c : Constraint} {r : Report} :
      c.judge k = .ok r → r.judgement.passed = false → Node.Stops k .and (.constraint c)
  /-- Under AND a condition that fails with a message. -/
  | speaking {b : Branch} {nodes : List Node} {outcome : Option Outcome} {r : Report} :
      (Node.condition b nodes outcome).judge k = .ok r → r.judgement.passed = false →
      r.judgement.hasMessage = true → Node.Stops k .and (.condition b nodes outcome)
  /-- Under OR a constraint that passes. -/
  | passing {c : Constraint} {r : Report} :
      c.judge k = .ok r → r.judgement.passed = true → Node.Stops k .or (.constraint c)

/-- The nodes that evaluation gets to, each at its positions from the root down. -/
inductive Rule.Reached (k : Setting) (roots : List Node) : List Nat → Node → Prop
  /-- A root before which every root fails without a message. -/
  | root {i : Nat} {n : Node} : roots[i]? = some n → (∀ m ∈ roots.take i, m.GoesOn k) →
      Rule.Reached k roots [i] n
  /-- A child of a condition before which no child stops the condition. -/
  | child {path : List Nat} {b : Branch} {nodes : List Node} {outcome : Option Outcome} {i : Nat}
      {n : Node} : Rule.Reached k roots path (.condition b nodes outcome) → nodes[i]? = some n →
      (∀ m ∈ nodes.take i, ¬ m.Stops k b) → Rule.Reached k roots (path ++ [i]) n

namespace Node

variable {k : Setting} {b : Branch}

/-- Conditions stop at constraints by their judgement. -/
theorem stops_constraint_iff {c : Constraint} {r : Report} (h : c.judge k = .ok r) :
    (constraint c).Stops k b ↔ b.stopsAtConstraint r.judgement = true := by
  constructor
  · rintro (⟨hr, hpassed⟩ | _ | ⟨hr, hpassed⟩)
    · cases h.symm.trans hr
      simp [Branch.stopsAtConstraint, hpassed]
    · cases h.symm.trans hr
      exact hpassed
  · intro hstops
    cases b with
    | and => exact .failing h (by simpa [Branch.stopsAtConstraint] using hstops)
    | or => exact .passing h hstops
    | none => cases hstops

/-- Conditions stop at nested conditions by their judgement. -/
theorem stops_condition_iff {b' : Branch} {nodes : List Node} {outcome : Option Outcome}
    {r : Report} (h : (condition b' nodes outcome).judge k = .ok r) :
    (condition b' nodes outcome).Stops k b ↔ b.stopsAtCondition r.judgement = true := by
  constructor
  · rintro (_ | ⟨hr, hpassed, hmessage⟩ | _)
    cases h.symm.trans hr
    simp [Branch.stopsAtCondition, hpassed, hmessage]
  · intro hstops
    cases b with
    | and =>
      obtain ⟨hpassed, hmessage⟩ := Bool.and_eq_true_iff.mp hstops
      exact .speaking h (by simpa using hpassed) hmessage
    | or => cases hstops
    | none => cases hstops

/-- Conditions stop at a node that they look at by its judgement. -/
theorem stops_iff {n : Node} {r : Report} (h : n.report? k = some (.ok r)) :
    n.Stops k b ↔ b.stopsAt n r.judgement = true := by
  cases n with
  | condition b' nodes outcome => exact stops_condition_iff (Option.some.inj h)
  | constraint c => exact stops_constraint_iff (Option.some.inj h)
  | invalid raw => cases h

/-- No condition stops at an invalid node. -/
theorem not_stops_invalid {raw : Value} : ¬ (invalid raw).Stops k b := nofun

end Node

namespace Rule

variable {k : Setting} {roots : List Node}

/-! ## Positions -/

namespace Reached

/-- What is reached is a root, or a child of a condition that is reached. -/
theorem inv {path : List Nat} {n : Node} (h : Reached k roots path n) :
    (∃ i, path = [i] ∧ roots[i]? = some n ∧ ∀ m ∈ roots.take i, m.GoesOn k) ∨
      ∃ parent b nodes outcome i, path = parent ++ [i] ∧
        Reached k roots parent (.condition b nodes outcome) ∧ nodes[i]? = some n ∧
        ∀ m ∈ nodes.take i, ¬ m.Stops k b := by
  cases h with
  | @root i _ hn hbefore => exact .inl ⟨i, rfl, hn, hbefore⟩
  | @child parent b nodes outcome i _ hparent hn hbefore =>
    exact .inr ⟨parent, b, nodes, outcome, i, rfl, hparent, hn, hbefore⟩

theorem ne_nil {path : List Nat} {n : Node} (h : Reached k roots path n) : path ≠ [] := by
  rcases h.inv with ⟨i, rfl, _⟩ | ⟨parent, b, nodes, outcome, i, rfl, _⟩ <;> simp

/-- A root is reached exactly when all roots before it go on. -/
theorem root_iff {i : Nat} {n : Node} :
    Reached k roots [i] n ↔ roots[i]? = some n ∧ ∀ m ∈ roots.take i, m.GoesOn k := by
  refine ⟨fun h => ?_, fun ⟨hn, hbefore⟩ => .root hn hbefore⟩
  rcases h.inv with ⟨j, hij, hn, hbefore⟩ | ⟨parent, b, nodes, outcome, j, hij, hparent, _⟩
  · cases hij
    exact ⟨hn, hbefore⟩
  · have hnil : parent = [] := by
      rcases List.append_eq_singleton_iff.mp hij.symm with ⟨h, _⟩ | ⟨_, h⟩
      · exact h
      · cases h
    exact absurd hnil hparent.ne_nil

/-- A child is reached exactly below a condition that no child before it stops. -/
theorem child_iff {path : List Nat} (hpath : path ≠ []) {i : Nat} {n : Node} :
    Reached k roots (path ++ [i]) n ↔ ∃ b nodes outcome,
      Reached k roots path (.condition b nodes outcome) ∧ nodes[i]? = some n ∧
      ∀ m ∈ nodes.take i, ¬ m.Stops k b := by
  refine ⟨fun h => ?_, fun ⟨b, nodes, outcome, hparent, hn, hbefore⟩ => .child hparent hn hbefore⟩
  rcases h.inv with ⟨j, hij, _⟩ | ⟨parent, b, nodes, outcome, j, hij, hrest⟩
  · exact absurd ((List.append_eq_singleton_iff.mp hij).resolve_right (by simp)).1 hpath
  · obtain ⟨rfl, hj⟩ := List.append_inj' hij rfl
    cases hj
    exact ⟨b, nodes, outcome, hrest⟩

/-- One node stands at given positions. -/
theorem unique {path : List Nat} {n m : Node} (hn : Reached k roots path n)
    (hm : Reached k roots path m) : n = m := by
  induction hn generalizing m with
  | root hroot _ => exact Option.some.inj (hroot.symm.trans (root_iff.mp hm).1)
  | child hparent hnode _ ih =>
    obtain ⟨b, nodes, outcome, hparent', hnode', _⟩ := (child_iff hparent.ne_nil).mp hm
    cases ih hparent'
    exact Option.some.inj (hnode.symm.trans hnode')

/-- Whatever is reached, all that it is below is. -/
theorem of_prefix {path above : List Nat} {n : Node} (h : Reached k roots path n)
    (habove : above <+: path) (hne : above ≠ []) : ∃ m, Reached k roots above m := by
  induction h with
  | @root i n hroot hbefore =>
    rcases (List.prefix_concat_iff : above <+: [] ++ [i] ↔ _).mp habove with rfl | hnil
    · exact ⟨n, .root hroot hbefore⟩
    · exact absurd (List.prefix_nil.mp hnil) hne
  | @child parent b nodes outcome i n hparent hnode hbefore ih =>
    rcases List.prefix_concat_iff.mp habove with rfl | hshorter
    · exact ⟨n, .child hparent hnode hbefore⟩
    · exact ih hshorter

/-- Nothing is reached below what is no condition. -/
theorem eq_of_prefix {path above : List Nat} {n m : Node} (h : Reached k roots path n)
    (hm : Reached k roots above m) (hnode : m.isCondition = false) (habove : above <+: path) :
    path = above := by
  obtain ⟨below, rfl⟩ := habove
  cases below with
  | nil => exact List.append_nil above
  | cons i below =>
    have hchild : above ++ [i] <+: above ++ i :: below := ⟨below, by simp⟩
    obtain ⟨child, hreached⟩ := h.of_prefix hchild (by simp)
    obtain ⟨b, nodes, outcome, hparent, _⟩ := (child_iff hm.ne_nil).mp hreached
    cases hm.unique hparent
    cases hnode

end Reached

/-- The child behind some that do not stop a condition is reached. -/
theorem Reached.next {path : List Nat} {b : Branch} {nodes before rest : List Node}
    {outcome : Option Outcome} {n : Node} (h : Reached k roots path (.condition b nodes outcome))
    (hnodes : nodes = before ++ n :: rest) (hbefore : ∀ m ∈ before, ¬ m.Stops k b) :
    Reached k roots (path ++ [before.length]) n := by
  subst hnodes
  refine .child h (by simp) ?_
  rwa [List.take_left]

/-- The positions below a path, from a child on. -/
def Under (path : List Nat) (i : Nat) (p : List Nat) : Prop := ∃ j, i ≤ j ∧ path ++ [j] <+: p

theorem under_iff {path : List Nat} {i : Nat} {p : List Nat} :
    Under path i p ↔ path ++ [i] <+: p ∨ Under path (i + 1) p := by
  constructor
  · rintro ⟨j, hij, habove⟩
    rcases Nat.eq_or_lt_of_le hij with rfl | hlt
    · exact .inl habove
    · exact .inr ⟨j, hlt, habove⟩
  · rintro (habove | ⟨j, hij, habove⟩)
    · exact ⟨i, Nat.le_refl i, habove⟩
    · exact ⟨j, by omega, habove⟩

/-- What is below a child comes before what is below later ones. -/
theorem lt_of_under {path : List Nat} {i : Nat} {p q : List Nat} (hp : path ++ [i] <+: p)
    (hq : Under path (i + 1) q) : p < q := by
  obtain ⟨p', rfl⟩ := hp
  obtain ⟨j, hij, q', rfl⟩ := hq
  simp only [List.append_assoc, List.singleton_append]
  exact List.append_left_lt (List.cons_lt_cons_iff.mpr (.inl hij))

end Rule

end Verdict
