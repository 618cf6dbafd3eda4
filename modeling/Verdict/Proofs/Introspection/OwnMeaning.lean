import Verdict.Proofs.Introspection.Faithful

/-!
# Proofs/Introspection/OwnMeaning — what a condition means where its own literals are met

The literals of a node say of each of its constraints that it holds, or below a NONE that it does
not.  So where they are all met, what the node means can be read off its shape: its **own meaning**
(`Node.meaning_eq_ownMeaning`).  A condition whose own meaning is false fails wherever its literals
are met.
-/

namespace Verdict.Node

mutual

/-- What a node means where its constraints hold, and those below a NONE do not. -/
def ownMeaning (inNone : Bool) : Node → Bool
  | .constraint _ => !inNone
  | .condition .and nodes _ => allOwnMean inNone nodes
  | .condition .or nodes _ => someOwnMean inNone nodes
  | .condition .none nodes _ => !someOwnMean true nodes
  | .invalid _ => false

/-- Whether all valid nodes mean true by themselves. -/
def allOwnMean (inNone : Bool) : List Node → Bool
  | [] => true
  | .invalid _ :: rest => allOwnMean inNone rest
  | n :: rest => ownMeaning inNone n && allOwnMean inNone rest

/-- Whether some valid node means true by itself. -/
def someOwnMean (inNone : Bool) : List Node → Bool
  | [] => false
  | .invalid _ :: rest => someOwnMean inNone rest
  | n :: rest => ownMeaning inNone n || someOwnMean inNone rest

end

theorem allOwnMean_eq {inNone : Bool} : ∀ nodes : List Node, allOwnMean inNone nodes =
    ((directs nodes).all (fun _ => !inNone) && (nested nodes).all (ownMeaning inNone))
  | [] => rfl
  | .constraint c :: rest => by
    rw [allOwnMean, ownMeaning, directs, nested_constraint_cons, List.all_cons, allOwnMean_eq rest,
      Bool.and_assoc]
    simp
  | .condition b nodes outcome :: rest => by
    rw [allOwnMean, directs, nested_condition_cons, List.all_cons, allOwnMean_eq rest,
      Bool.and_left_comm]
    simp
  | .invalid raw :: rest => by
    rw [allOwnMean, directs, nested_invalid_cons, allOwnMean_eq rest]

theorem someOwnMean_eq {inNone : Bool} : ∀ nodes : List Node, someOwnMean inNone nodes =
    ((directs nodes).any (fun _ => !inNone) || (nested nodes).any (ownMeaning inNone))
  | [] => rfl
  | .constraint c :: rest => by
    rw [someOwnMean, ownMeaning, directs, nested_constraint_cons, List.any_cons,
      someOwnMean_eq rest, Bool.or_assoc]
    simp
  | .condition b nodes outcome :: rest => by
    rw [someOwnMean, directs, nested_condition_cons, List.any_cons, someOwnMean_eq rest,
      Bool.or_left_comm]
    simp
  | .invalid raw :: rest => by
    rw [someOwnMean, directs, nested_invalid_cons, someOwnMean_eq rest]

variable {k : Setting}

/-- The literals of all conditions are met where those of each are. -/
theorem isMet_of_mem_nested {r : Registry} {inNone : Bool} {nodes : List Node}
    (h : Alternative.isMet k (literalsOf r inNone nodes) = true) :
    ∀ n ∈ nested nodes, Alternative.isMet k (n.literals r inNone) = true := by
  induction nodes with
  | nil => nofun
  | cons n rest ih =>
    rw [literalsOf, Alternative.isMet_append, Bool.and_eq_true] at h
    intro n' hn'
    obtain ⟨hmem, hcondition⟩ := List.mem_filter.mp hn'
    rcases List.mem_cons.mp hmem with rfl | hmem
    · exact h.1
    · exact ih h.2 n' (List.mem_filter.mpr ⟨hmem, hcondition⟩)

/-- **Where its literals are met, a condition means what it means by itself.** -/
theorem meaning_eq_ownMeaning {inNone : Bool} {n : Node} (hcondition : n.isCondition = true)
    (hfaithful : n.IsFaithful k inNone)
    (hmet : Alternative.isMet k (n.literals k.registry inNone) = true) :
    n.meaning (Constraint.holds k) = n.ownMeaning inNone := by
  induction n, hcondition using condition_induction generalizing inNone with
  | condition b nodes outcome ih =>
    rw [literals, Alternative.isMet_append, Bool.and_eq_true,
      isMet_map_literal fun c hc => hfaithful.direct hc, List.all_eq_true] at hmet
    have hdirects : ∀ c ∈ directs nodes, c.holds k = !(inNone || b = .none) := fun c hc =>
      Bool.eq_not_of_ne (bne_iff_ne.mp (hmet.1 c hc))
    have hnested : ∀ n ∈ nested nodes,
        n.meaning (Constraint.holds k) = n.ownMeaning (inNone || b = .none) := fun n hn =>
      ih n hn (hfaithful.of_mem (List.mem_filter.mp hn).1) (isMet_of_mem_nested hmet.2 n hn)
    have hall : allMean (Constraint.holds k) nodes = allOwnMean (inNone || b = .none) nodes := by
      rw [allMean_eq, allOwnMean_eq, Bool.eq_iff_iff]
      simp only [Bool.and_eq_true, List.all_eq_true]
      exact and_congr (forall₂_congr fun c hc => by rw [hdirects c hc])
        (forall₂_congr fun n hn => by rw [hnested n hn])
    have hsome : someMean (Constraint.holds k) nodes = someOwnMean (inNone || b = .none) nodes := by
      rw [someMean_eq, someOwnMean_eq, Bool.eq_iff_iff]
      simp only [Bool.or_eq_true, List.any_eq_true]
      exact or_congr (exists_congr fun c => and_congr_right fun hc => by rw [hdirects c hc])
        (exists_congr fun n => and_congr_right fun hn => by rw [hnested n hn])
    cases b with
    | and => simpa [meaning, ownMeaning] using hall
    | or => simpa [meaning, ownMeaning] using hsome
    | none => simpa [meaning, ownMeaning] using hsome

end Verdict.Node
