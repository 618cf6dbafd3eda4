import Verdict.Proofs.Introspection.Faithful

/-!
# Proofs/Introspection/Conjunction — trees of AND give one alternative each

A **conjunct** is a constraint, an AND of conjuncts, or a NONE of constraints.  Nothing forks in
it, so an AND of conjuncts on distinct fields, at the root or directly under a root, adds the
alternative of its literals (`Node.alternatives_grow_conjunctive`), which is met exactly where the
AND holds (`Node.isMet_literals`).
-/

namespace Verdict.Node

/-- A constraint, an AND of conjuncts, or a NONE of constraints. -/
inductive IsConjunct : Node → Prop
  | constraint (c : Constraint) : IsConjunct (.constraint c)
  | and {nodes : List Node} {outcome : Option Outcome} :
      (∀ n ∈ nodes, IsConjunct n) → IsConjunct (.condition .and nodes outcome)
  | none {nodes : List Node} {outcome : Option Outcome} :
      (∀ n ∈ nodes, n.isConstraint = true) → IsConjunct (.condition .none nodes outcome)

/-- An AND of conjuncts, all on distinct fields. -/
structure IsConjunctive (n : Node) : Prop where
  isAnd : n.branch? = some .and
  isConjunct : n.IsConjunct
  nodup : n.fields.Nodup

/-! ## Nothing forks -/

theorem nested_eq_nil {nodes : List Node} (h : ∀ n ∈ nodes, n.isConstraint = true) :
    nested nodes = [] := by
  refine List.filter_eq_nil_iff.mpr fun n hn => ?_
  have hc := h n hn
  cases n with
  | constraint c => simp [isCondition, branch?]
  | condition b nodes outcome => cases hc
  | invalid raw => cases hc

mutual

/-- **Nothing forks in a conjunct**: there is no OR. -/
theorem IsConjunct.hasFork : ∀ {n : Node}, n.IsConjunct → n.hasFork = false
  | .constraint c, _ => by rw [Node.hasFork]
  | .condition b nodes outcome, h => by
    cases h with
    | and hnodes =>
      rw [hasFork_of_ne_or (by decide)]
      exact haveFork_of_conjuncts hnodes
    | none hnodes =>
      rw [hasFork_of_ne_or (by decide), haveFork_eq_any, List.any_eq_false]
      intro n hn
      have hc := hnodes n hn
      cases n with
      | constraint c => simp [Node.hasFork]
      | condition b nodes outcome => cases hc
      | invalid raw => cases hc
  | .invalid _, h => nomatch h

theorem haveFork_of_conjuncts : ∀ {nodes : List Node}, (∀ n ∈ nodes, n.IsConjunct) →
    haveFork nodes = false
  | [], _ => by rw [haveFork]
  | n :: rest, h => by
    obtain ⟨hn, hrest⟩ := List.forall_mem_cons.mp h
    rw [haveFork, hn.hasFork, haveFork_of_conjuncts hrest]
    rfl

end

/-! ## Literals mean what the tree means -/

variable {k : Setting}

theorem all_bne_false (cs : List Constraint) (holds : Constraint → Bool) :
    (cs.all fun c => holds c != false) = cs.all holds := by simp

theorem all_bne_true (cs : List Constraint) (holds : Constraint → Bool) :
    (cs.all fun c => holds c != true) = !cs.any holds := by simp [List.all_eq_not_any_not]

theorem literalsOf_constraints {r : Registry} {inNone : Bool} : ∀ {nodes : List Node},
    (∀ n ∈ nodes, n.isConstraint = true) → literalsOf r inNone nodes = []
  | [], _ => by rw [literalsOf]
  | .constraint _ :: rest, h => by
    rw [literalsOf, literals, literalsOf_constraints (List.forall_mem_cons.mp h).2]
    rfl
  | .condition .. :: rest, h => nomatch (List.forall_mem_cons.mp h).1
  | .invalid _ :: rest, h => nomatch (List.forall_mem_cons.mp h).1

mutual

/-- **The literals of a conjunct condition are met exactly where it holds.** -/
theorem isMet_literals : ∀ {n : Node}, n.IsConjunct → n.isCondition = true →
    n.IsFaithful k false →
    Alternative.isMet k (n.literals k.registry false) = n.meaning (Constraint.holds k)
  | .constraint _, _, hcondition, _ => nomatch hcondition
  | .condition b nodes _, h, _, hfaithful => by
    cases h with
    | and hnodes =>
      rw [literals, meaning, allMean_eq, Alternative.isMet_append]
      congr 1
      · exact (isMet_map_literal fun c hc => hfaithful.direct hc).trans (all_bne_false _ _)
      · exact isMet_literalsOf hnodes fun n hn => hfaithful.of_mem hn
    | none hnodes =>
      rw [literals, meaning, someMean_eq, nested_eq_nil hnodes, literalsOf_constraints hnodes,
        List.append_nil, List.any_nil, Bool.or_false]
      exact (isMet_map_literal fun c hc => hfaithful.direct hc).trans (all_bne_true _ _)
  | .invalid _, h, _, _ => nomatch h

theorem isMet_literalsOf : ∀ {nodes : List Node}, (∀ n ∈ nodes, n.IsConjunct) →
    (∀ n ∈ nodes, n.IsFaithful k false) →
    Alternative.isMet k (literalsOf k.registry false nodes) =
      (nested nodes).all (meaning (Constraint.holds k))
  | [], _, _ => by
    rw [literalsOf]
    rfl
  | .constraint _ :: rest, h, hfaithful => by
    rw [literalsOf, literals]
    exact isMet_literalsOf (List.forall_mem_cons.mp h).2 (List.forall_mem_cons.mp hfaithful).2
  | .condition b nodes outcome :: rest, h, hfaithful => by
    obtain ⟨hn, hrest⟩ := List.forall_mem_cons.mp h
    obtain ⟨hf, hfrest⟩ := List.forall_mem_cons.mp hfaithful
    rw [literalsOf, Alternative.isMet_append, isMet_literals hn rfl hf,
      isMet_literalsOf hrest hfrest, nested_condition_cons, List.all_cons]
  | .invalid _ :: rest, h, _ => nomatch (List.forall_mem_cons.mp h).1

end

/-! ## One alternative each -/

variable {r : Registry}

/-- **At the root, or directly under a root, an AND of conjuncts adds its literals.** -/
theorem alternatives_grow_conjunctive {n : Node} (h : n.IsConjunctive) (hsound : n.IsSound r)
    {parent : Option Branch} {depth : Nat} (hfork : Growth.isFork .and parent = true)
    (hdepth : parent = some .or → depth ≤ 1) (g : Growth) :
    (n.grow r parent depth false g).alternatives = g.alternatives ++ [n.literals r false] := by
  obtain ⟨hand, hconjunct, hnodup⟩ := h
  cases n with
  | constraint c => cases hand
  | invalid raw => cases hand
  | condition b nodes outcome =>
    obtain rfl : b = .and := Option.some.inj hand
    have hnodes : ∀ n ∈ nodes, n.IsSound r := by cases hsound with | condition h => exact h
    have hconjuncts : ∀ n ∈ nodes, n.IsConjunct := by cases hconjunct with | and h => exact h
    have hbase : g.forkBase parent depth = [] := by
      rw [Growth.forkBase, if_neg]
      rintro ⟨hparent, hlt⟩
      exact absurd (hdepth hparent) (by omega)
    have hwithin : (g.forkBase parent depth).Within (Apart (fieldsOf nodes)) := by
      rw [hbase]
      exact List.forall_mem_nil _
    have hattach := attachTable_and_of_isFork hnodes hnodup hfork hwithin false
    rw [hbase, List.nil_append] at hattach
    have hextends := extendsAll_grow .and (depth + 1) false hnodes
      (nodup_fieldsOf_iff.mp hnodup).2.1
      (fun n hn => ⟨forksBelow_eq_false (by decide) n, (hconjuncts n hn).hasFork⟩)
      (g := g.add ⟨parent, .and, depth, none⟩ ((directs nodes).map (literal r false)))
      (by
        rw [Growth.last, Growth.add, List.getLast?_concat]
        exact within_directs hnodes hnodup false)
    rw [grow]
    exact (congrArg (fun g => (growAll r (some .and) (depth + 1) false nodes g).alternatives)
      hattach).trans (hextends.alternatives rfl)

end Verdict.Node
