import Verdict.Proofs.Introspection.Forkless
import Verdict.Rule.Measure

/-!
# Proofs/Introspection/Faithful — literals that say what constraints mean

A node is **faithful** in a setting when each literal taken from it is met exactly where its
constraint holds, or below a NONE where it does not.  Valid rules whose constraints are literal are
faithful wherever their constraints are judged (`Node.isFaithful_of_isSound`).

What conditions mean is read off the constraints directly under them and the conditions, separately:
`Node.allMean_eq`, `Node.someMean_eq`.
-/

namespace Verdict

namespace Node

variable {holds : Constraint → Bool}

theorem allMean_eq : ∀ nodes : List Node,
    allMean holds nodes = ((directs nodes).all holds && (nested nodes).all (meaning holds))
  | [] => rfl
  | .constraint c :: rest => by
    rw [allMean, meaning, directs, nested_constraint_cons, List.all_cons, allMean_eq rest,
      Bool.and_assoc]
    simp
  | .condition b nodes outcome :: rest => by
    rw [allMean, directs, nested_condition_cons, List.all_cons, allMean_eq rest, Bool.and_left_comm]
    simp
  | .invalid raw :: rest => by
    rw [allMean, directs, nested_invalid_cons, allMean_eq rest]

theorem someMean_eq : ∀ nodes : List Node,
    someMean holds nodes = ((directs nodes).any holds || (nested nodes).any (meaning holds))
  | [] => rfl
  | .constraint c :: rest => by
    rw [someMean, meaning, directs, nested_constraint_cons, List.any_cons, someMean_eq rest,
      Bool.or_assoc]
    simp
  | .condition b nodes outcome :: rest => by
    rw [someMean, directs, nested_condition_cons, List.any_cons, someMean_eq rest,
      Bool.or_left_comm]
    simp
  | .invalid raw :: rest => by
    rw [someMean, directs, nested_invalid_cons, someMean_eq rest]

/-- Each literal of a node is met where its constraint holds, or below a NONE where it does not. -/
def IsFaithful (k : Setting) (inNone : Bool) (n : Node) : Prop :=
  ∀ p ∈ n.polarities inNone,
    Alternative.isMet k [literal k.registry p.1 p.2] = (p.2.holds k != p.1)

variable {k : Setting} {inNone : Bool}

theorem mem_polaritiesOf {p : Bool × Constraint} {nodes : List Node} :
    p ∈ polaritiesOf inNone nodes ↔ ∃ n ∈ nodes, p ∈ n.polarities inNone := by
  induction nodes with
  | nil => simp [polaritiesOf]
  | cons n rest ih => simp [polaritiesOf, ih]

/-- The constraints of nodes are those directly among them and those of the conditions. -/
theorem mem_polaritiesOf_split (inNone : Bool) {p : Bool × Constraint} : ∀ {nodes : List Node},
    p ∈ (directs nodes).map (inNone, ·) ++ polaritiesOf inNone (nested nodes) ↔
      p ∈ polaritiesOf inNone nodes
  | [] => Iff.rfl
  | .constraint c :: rest => by
    rw [directs, nested_constraint_cons, polaritiesOf, polarities, List.map_cons, List.cons_append,
      List.mem_cons, mem_polaritiesOf_split inNone, List.singleton_append, List.mem_cons]
  | .condition b nodes outcome :: rest => by
    rw [directs, nested_condition_cons, polaritiesOf, polaritiesOf, List.mem_append,
      List.mem_append, or_left_comm, ← List.mem_append, mem_polaritiesOf_split inNone,
      ← List.mem_append]
  | .invalid raw :: rest => by
    rw [directs, nested_invalid_cons, polaritiesOf, polarities, List.nil_append]
    exact mem_polaritiesOf_split inNone

/-- What is below a faithful condition is faithful. -/
theorem IsFaithful.of_mem {b : Branch} {nodes : List Node} {outcome : Option Outcome}
    (h : (condition b nodes outcome).IsFaithful k inNone) {n : Node} (hn : n ∈ nodes) :
    n.IsFaithful k (inNone || b = .none) := fun p hp =>
  h p (by rw [polarities]; exact mem_polaritiesOf.mpr ⟨n, hn, hp⟩)

theorem IsFaithful.direct {b : Branch} {nodes : List Node} {outcome : Option Outcome}
    (h : (condition b nodes outcome).IsFaithful k inNone) {c : Constraint}
    (hc : c ∈ directs nodes) :
    Alternative.isMet k [literal k.registry (inNone || b = .none) c] =
      (c.holds k != (inNone || b = .none)) :=
  h.of_mem (mem_directs.mp hc) (_, c) (by rw [polarities]; exact List.mem_singleton.mpr rfl)

/-- Literals are met together where each constraint is as its literal says. -/
theorem isMet_map_literal {negated : Bool} {cs : List Constraint}
    (h : ∀ c ∈ cs, Alternative.isMet k [literal k.registry negated c] = (c.holds k != negated)) :
    Alternative.isMet k (cs.map (literal k.registry negated)) =
      cs.all fun c => c.holds k != negated := by
  induction cs with
  | nil => rfl
  | cons c rest ih =>
    obtain ⟨hc, hrest⟩ := List.forall_mem_cons.mp h
    have happend : (c :: rest).map (literal k.registry negated) =
        [literal k.registry negated c] ++ rest.map (literal k.registry negated) := rfl
    rw [happend, Alternative.isMet_append, hc, ih hrest, List.all_cons]

end Node

namespace Alternative

variable {k : Setting}

/-- An alternative is met where each of its entries is. -/
theorem isMet_iff {a : Alternative} : a.isMet k = true ↔ ∀ e ∈ a, isMet k [e] = true := by
  induction a with
  | nil => simp
  | cons e rest ih =>
    have happend : e :: rest = [e] ++ rest := rfl
    rw [happend, isMet_append, Bool.and_eq_true, ih, List.forall_mem_append,
      List.forall_mem_singleton]

/-- Fewer requirements are met where more are. -/
theorem isMet_of_subset {a a' : Alternative} (h : a ⊆ a') (hmet : a'.isMet k = true) :
    a.isMet k = true := isMet_iff.mpr fun e he => isMet_iff.mp hmet e (h he)

end Alternative

/-! ## Valid rules -/

/-- **The literals of a valid rule say what its constraints mean**, wherever the constraints are
judged. -/
theorem Node.isFaithful_of_isSound {now : DateTime} {criteria : Value} {inNone : Bool} {n : Node}
    (hsound : n.IsSound (.builtIn now)) (hliteral : ∀ c ∈ n.constraints, c.IsLiteral)
    (hnegatable : ∀ p ∈ n.polarities inNone, p.1 = true → p.2.IsNegatable now)
    (hjudged : ∀ c ∈ n.constraints, ∃ r, c.judge ⟨.builtIn now, criteria⟩ = .ok r) :
    n.IsFaithful ⟨.builtIn now, criteria⟩ inNone := by
  intro p hp
  have hc : p.2 ∈ n.constraints := by
    rw [← polarities_snd inNone n]
    exact List.mem_map.mpr ⟨p, hp, rfl⟩
  exact Constraint.isMet_entry (hsound.of_mem_constraints p.2 hc) (hliteral p.2 hc)
    (hnegatable p hp) (hjudged p.2 hc)

end Verdict
