import Mathlib.Data.List.Basic
import Verdict.Introspection.Explore
import Verdict.Proofs.Evaluation.Meaning

/-!
# Proofs/Introspection/Grouping — roots by outcome

    roots          n₁  n₂  n₃  n₄  …
    outcomes       o   o'  o   o'' …      told apart by origin, each once
    roots of o     n₁      n₃

Outcomes stand in the order of the first roots that carry them (`Introspection.origins_outcomes`),
and their roots are the roots of the rule, each in one group (`Introspection.grouped_perm`).
-/

namespace Verdict

/-! ## Each once -/

section

variable {α κ : Type}

/-- Taking up what is not there yet leaves the first of each. -/
theorem foldl_append_new [DecidableEq κ] : ∀ l kept : List κ,
    l.foldl (fun kept x => if kept.contains x then kept else kept ++ [x]) kept =
      kept ++ (l.filter fun x => !kept.contains x).eraseDups
  | [], kept => (List.append_nil kept).symm
  | x :: rest, kept => by
    rw [List.foldl_cons, List.filter_cons]
    by_cases hx : kept.contains x = true
    · rw [if_pos hx, foldl_append_new rest kept, hx]
      rfl
    · have hfilter : (rest.filter fun y => !(kept ++ [x]).contains y) =
          (rest.filter fun y => !kept.contains y).filter fun y => !y == x := by
        rw [List.filter_filter]
        refine List.filter_congr fun y _ => ?_
        by_cases hy : y = x <;> simp [hy]
      rw [if_neg hx, foldl_append_new rest (kept ++ [x]), if_pos (by simpa using hx),
        List.eraseDups_cons, hfilter, List.append_assoc]
      rfl

theorem foldl_append_new_nil [DecidableEq κ] (l : List κ) :
    l.foldl (fun kept x => if kept.contains x then kept else kept ++ [x]) [] = l.eraseDups := by
  have hnew : (l.filter fun x => !([] : List κ).contains x) = l :=
    List.filter_eq_self.mpr fun _ _ => rfl
  rw [foldl_append_new, hnew, List.nil_append]

theorem nodup_eraseDups [DecidableEq κ] (l : List κ) : l.eraseDups.Nodup := by
  induction h : l.length using Nat.strongRecOn generalizing l with
  | ind n ih =>
    cases l with
    | nil => exact List.nodup_nil
    | cons x rest =>
      rw [List.eraseDups_cons, List.nodup_cons]
      refine ⟨fun hx => ?_, ih _ ?_ _ rfl⟩
      · simpa using (List.mem_filter.mp (List.mem_eraseDups.mp hx)).2
      · rw [← h, List.length_cons]
        exact Nat.lt_succ_of_le (List.length_filter_le ..)

/-- Which items there are does not depend on their order. -/
theorem eraseDups_perm [DecidableEq κ] {l l' : List κ} (h : l.Perm l') :
    l.eraseDups.Perm l'.eraseDups :=
  (List.perm_ext_iff_of_nodup (nodup_eraseDups l) (nodup_eraseDups l')).mpr fun x => by
    rw [List.mem_eraseDups, List.mem_eraseDups, h.mem_iff]

/-- Items group by group are the items, where each is in one group. -/
theorem flatMap_filter_perm {p : κ → α → Bool} : ∀ {keys : List κ},
    keys.Pairwise (fun k k' => ∀ x, p k x = true → p k' x = false) →
    ∀ {l : List α}, (∀ x ∈ l, ∃ k ∈ keys, p k x = true) →
      (keys.flatMap fun k => l.filter (p k)).Perm l
  | [], _, l, h => by
    cases l with
    | nil => exact .nil
    | cons x rest =>
      obtain ⟨k, hk, _⟩ := h x (List.mem_cons_self ..)
      cases hk
  | k :: keys, hapart, l, h => by
    obtain ⟨hk, hkeys⟩ := List.pairwise_cons.mp hapart
    have hothers : ∀ x ∈ l.filter fun x => !p k x, ∃ k' ∈ keys, p k' x = true := fun x hx => by
      obtain ⟨hmem, hne⟩ := List.mem_filter.mp hx
      obtain ⟨k', hk', hx'⟩ := h x hmem
      rcases List.mem_cons.mp hk' with rfl | hk'
      · rw [hx'] at hne
        cases hne
      · exact ⟨k', hk', hx'⟩
    -- the later groups are those of the items outside the first
    have hgroups : (keys.flatMap fun k' => l.filter (p k')) =
        keys.flatMap fun k' => (l.filter fun x => !p k x).filter (p k') := by
      refine List.flatMap_congr fun k' hk' => ?_
      rw [List.filter_filter]
      refine List.filter_congr fun x _ => ?_
      cases hx : p k x with
      | false => rw [Bool.not_false, Bool.and_true]
      | true => rw [hk k' hk' x hx, Bool.false_and]
    rw [List.flatMap_cons, hgroups]
    exact ((flatMap_filter_perm hkeys hothers).append_left _).trans (List.filter_append_perm ..)

end

/-! ## Outcomes -/

namespace Introspection

variable {roots : List Node} {o : Outcome}

/-- Outcomes and one more, unless one of them has its origin. -/
def withOutcome (seen : List Outcome) (o : Outcome) : List Outcome :=
  if seen.any fun s => s.origin == o.origin then seen else seen ++ [o]

theorem outcomes_eq_foldl (roots : List Node) :
    outcomes roots = (roots.filterMap Node.outcome?).foldl withOutcome [] := rfl

theorem mem_withOutcome {seen : List Outcome} {m : Outcome} (h : o ∈ withOutcome seen m) :
    o ∈ seen ∨ o = m ∧ ∀ s ∈ seen, s.origin ≠ o.origin := by
  unfold withOutcome at h
  split at h
  · exact .inl h
  · next hnone =>
    refine (List.mem_append.mp h).imp_right fun hm => ?_
    rw [List.mem_singleton.mp hm]
    exact ⟨rfl, fun s hs heq => hnone (List.any_eq_true.mpr ⟨s, hs, beq_iff_eq.mpr heq⟩)⟩

/-- An origin that is new to some outcomes and one more is new to the outcomes, and to the one. -/
theorem new_of_withOutcome {seen : List Outcome} {m : Outcome}
    (h : ∀ s ∈ withOutcome seen m, s.origin ≠ o.origin) :
    (∀ s ∈ seen, s.origin ≠ o.origin) ∧ m.origin ≠ o.origin := by
  unfold withOutcome at h
  split at h
  · next hsome =>
    obtain ⟨s, hs, heq⟩ := List.any_eq_true.mp hsome
    exact ⟨h, beq_iff_eq.mp heq ▸ h s hs⟩
  · obtain ⟨hseen, hm⟩ := List.forall_mem_append.mp h
    exact ⟨hseen, hm m (List.mem_singleton_self m)⟩

/-- What is kept of outcomes are the first ones of their origins. -/
theorem find?_of_mem_foldl : ∀ {os seen : List Outcome}, o ∈ os.foldl withOutcome seen →
    o ∈ seen ∨ (∀ s ∈ seen, s.origin ≠ o.origin) ∧
      os.find? (fun m => m.origin == o.origin) = some o
  | [], _, h => .inl h
  | m :: rest, seen, h => by
    rw [List.foldl_cons] at h
    rcases find?_of_mem_foldl h with hmem | ⟨hnew, hfind⟩
    · refine (mem_withOutcome hmem).imp_right fun ⟨heq, hseen⟩ => ⟨hseen, ?_⟩
      exact heq ▸ List.find?_cons_of_pos (beq_self_eq_true _)
    · obtain ⟨hseen, hm⟩ := new_of_withOutcome hnew
      exact .inr ⟨hseen, (List.find?_cons_of_neg (by simpa using hm)).trans hfind⟩

/-- Of outcomes with one origin the first is kept. -/
theorem foldl_withOutcome_of_origin (o : Outcome) : ∀ {os : List Outcome},
    (∀ m ∈ os, m.origin = o.origin) → os.foldl withOutcome [o] = [o]
  | [], _ => rfl
  | m :: rest, h => by
    obtain ⟨hm, hrest⟩ := List.forall_mem_cons.mp h
    have hkept : withOutcome [o] m = [o] := by simp [withOutcome, hm]
    rw [List.foldl_cons, hkept, foldl_withOutcome_of_origin o hrest]

theorem filterMap_rootsOf (roots : List Node) (o : Outcome) :
    (rootsOf roots o).filterMap Node.outcome? =
      (roots.filterMap Node.outcome?).filter fun m => m.origin == o.origin := by
  induction roots with
  | nil => rfl
  | cons n rest ih =>
    rw [rootsOf] at ih ⊢
    cases hn : n.outcome? with
    | none => simp [hn, ih]
    | some m => by_cases hm : m.origin = o.origin <;> simp [hn, hm, ih]

/-- **The roots of an outcome have this one outcome.** -/
theorem outcomes_rootsOf (ho : o ∈ outcomes roots) : outcomes (rootsOf roots o) = [o] := by
  rw [outcomes_eq_foldl] at ho
  obtain ⟨_, hfind⟩ := (find?_of_mem_foldl ho).resolve_left List.not_mem_nil
  have hhead : ((rootsOf roots o).filterMap Node.outcome?).head? = some o := by
    rw [filterMap_rootsOf, List.head?_filter, hfind]
  have hsame : ∀ m ∈ (rootsOf roots o).filterMap Node.outcome?, m.origin = o.origin := by
    intro m hm
    rw [filterMap_rootsOf] at hm
    exact beq_iff_eq.mp (List.mem_filter.mp hm).2
  obtain ⟨rest, hrest⟩ := List.head?_eq_some_iff.mp hhead
  rw [outcomes_eq_foldl, hrest, List.foldl_cons]
  exact foldl_withOutcome_of_origin o fun m hm => hsame m (hrest ▸ List.mem_cons_of_mem o hm)

theorem rootsOf_rootsOf (roots : List Node) (o : Outcome) :
    rootsOf (rootsOf roots o) o = rootsOf roots o := by
  rw [rootsOf, rootsOf, List.filter_filter]
  simp

/-- Roots whose outcomes have one origin have the outcome of the first. -/
theorem outcomes_of_origin {n : Node} {rest : List Node} (hn : n.outcome? = some o)
    (hsame : ∀ m ∈ n :: rest, m.outcome?.map Outcome.origin = some o.origin) :
    outcomes (n :: rest) = [o] ∧ rootsOf (n :: rest) o = n :: rest := by
  have hrest : ∀ m ∈ rest.filterMap Node.outcome?, m.origin = o.origin := fun m hm => by
    obtain ⟨root, hroot, hm⟩ := List.mem_filterMap.mp hm
    have := hsame root (List.mem_cons_of_mem n hroot)
    rw [hm] at this
    exact Option.some.inj this
  constructor
  · rw [outcomes_eq_foldl, List.filterMap_cons_some hn, List.foldl_cons]
    exact foldl_withOutcome_of_origin o hrest
  · refine List.filter_eq_self.mpr fun m hm => ?_
    obtain ⟨o', ho', heq⟩ := Option.map_eq_some_iff.mp (hsame m hm)
    rw [ho', Option.any_some, heq, beq_self_eq_true]

theorem mem_of_mem_rootsOf {n : Node} (h : n ∈ rootsOf roots o) : n ∈ roots :=
  (List.mem_filter.mp h).1

theorem constraintsOf_rootsOf_subset (roots : List Node) (o : Outcome) :
    Node.constraintsOf (rootsOf roots o) ⊆ Node.constraintsOf roots := fun c hc => by
  obtain ⟨n, hn, hc⟩ := Node.mem_constraintsOf.mp hc
  exact Node.mem_constraintsOf.mpr ⟨n, mem_of_mem_rootsOf hn, hc⟩

/-- **Each origin of a root's outcome has one outcome**, in the order of the first roots. -/
theorem origins_outcomes (roots : List Node) : (outcomes roots).map Outcome.origin =
    ((roots.filterMap Node.outcome?).map Outcome.origin).eraseDups := by
  have hfold : ∀ os seen : List Outcome, (os.foldl withOutcome seen).map Outcome.origin =
      (os.map Outcome.origin).foldl (fun kept x => if kept.contains x then kept else kept ++ [x])
        (seen.map Outcome.origin) := fun os => by
    induction os with
    | nil => exact fun _ => rfl
    | cons m rest ih =>
      intro seen
      have hcontains : (seen.map Outcome.origin).contains m.origin =
          seen.any fun s => s.origin == m.origin := by
        rw [Bool.eq_iff_iff, List.contains_iff_mem, List.any_eq_true, List.mem_map]
        simp only [beq_iff_eq]
      rw [List.foldl_cons, ih, List.map_cons, List.foldl_cons, hcontains]
      unfold withOutcome
      split <;> simp
  rw [outcomes_eq_foldl, hfold, List.map_nil, foldl_append_new_nil]

/-- **The roots of the outcomes are the roots, each in one group.** -/
theorem grouped_perm (h : ∀ n ∈ roots, n.outcome?.isSome = true) :
    ((outcomes roots).flatMap (rootsOf roots)).Perm roots := by
  have hnodup : ((outcomes roots).map Outcome.origin).Nodup :=
    origins_outcomes roots ▸ nodup_eraseDups _
  refine flatMap_filter_perm ((List.pairwise_map.mp hnodup).imp fun hne n hn => ?_) fun n hn => ?_
  · cases hm : n.outcome? with
    | none =>
      rw [hm] at hn
      cases hn
    | some m =>
      rw [hm, Option.any_some, beq_iff_eq] at hn
      rw [Option.any_some, beq_eq_false_iff_ne, hn]
      exact hne
  · obtain ⟨o, ho⟩ := Option.isSome_iff_exists.mp (h n hn)
    have horigin : o.origin ∈ (outcomes roots).map Outcome.origin := by
      rw [origins_outcomes, List.mem_eraseDups]
      exact List.mem_map_of_mem (List.mem_filterMap.mpr ⟨n, hn, ho⟩)
    obtain ⟨o', ho', heq⟩ := List.mem_map.mp horigin
    exact ⟨o', ho', by rw [ho, Option.any_some, heq, beq_self_eq_true]⟩

end Introspection

end Verdict
