import Verdict.Proofs.Mutation.Independent

/-!
# Proofs/Mutation/Batch — mutating criteria together and one by one

    [c₁ … cₙ] ──mutate──▸ [v₁ … vₙ]
      │ each                ‖
      ▾                     ‖
    cᵢ ──────mutate──────▸ vᵢ

Criteria that are mutated together share runs.  Where they are independent that does not show: each
becomes what it becomes alone, or all fail with the fault of one of them
(`Mutator.mutate_list_of_independent`).
-/

namespace Verdict

namespace Mutator

variable {m : Mutator} {items : List Value}

/-- What criteria become when nothing else is mutated.  A list among criteria stays as it is: only the
items of the list that comes in are mutated, and not those of lists inside of it. -/
def alone (m : Mutator) (c : Value) : Except Fault Value :=
  match c with
  | .list .. => .ok c
  | c => (m.mutate c).1.map Mutated.value

theorem fault?_single (m : Mutator) (c : Value) : m.fault? [c] = (m.placeFault? c).or
    (if m.isCopied c then Field.fault? m.transforms (m.copyOf c) else none) := by
  cases hplaced : m.placeFault? c <;> cases hcopied : m.isCopied c <;>
    simp [fault?, hplaced, hcopied]

/-- Items have no fault together where none has one alone. -/
theorem fault?_eq_none (h : m.fault? items = none) {c : Value} (hc : c ∈ items) :
    m.fault? [c] = none := by
  rw [fault?, Option.or_eq_none_iff, List.findSome?_eq_none_iff, List.findSome?_eq_none_iff] at h
  rw [fault?_single, h.1 c hc, Option.none_or]
  split
  · next hcopied => exact h.2 c (List.mem_filter.mpr ⟨hc, hcopied⟩)
  · rfl

/-- The fault of items together is that of one of them alone. -/
theorem exists_of_fault?_eq_some {f : Fault} (h : m.fault? items = some f) :
    ∃ c ∈ items, m.fault? [c] = some f := by
  rw [fault?, Option.or_eq_some_iff] at h
  rcases h with h | ⟨-, h⟩
  · obtain ⟨c, hc, hf⟩ := List.exists_of_findSome?_eq_some h
    exact ⟨c, hc, by rw [fault?_single, hf, Option.some_or]⟩
  · obtain ⟨c, hc, hf⟩ := List.exists_of_findSome?_eq_some h
    obtain ⟨hmem, hcopied⟩ := List.mem_filter.mp hc
    have hplaced : m.placeFault? c = none := by
      rw [isCopied] at hcopied
      rw [placeFault?]
      split at hcopied
      · rfl
      · cases hcopied
    exact ⟨c, hmem, by rw [fault?_single, hplaced, Option.none_or, if_pos hcopied, hf]⟩

/-- **Independent items that are mutated together** become what each becomes alone, unless one has a
fault. -/
theorem together_eq (hcaching : m.caching = false) (hcache : m.cache = [])
    (hplain : ∀ e ∈ m.transforms, e.2.IsPlain) (hsucceeds : ∀ c ∈ items, m.Succeeds c)
    (hindependent : items.Pairwise m.Independent) :
    m.together items =
      match m.fault? items with
      | some f => .error f
      | none => .ok (items.map m.mutated) := by
  obtain ⟨shift, owner, hcopies⟩ := m.exists_areCopies (items.filter m.isCopied)
  have hpairwise := List.pairwise_iff_getElem.mp (hindependent.filter m.isCopied)
  have hmem : ∀ {i : Nat} {c : Value}, (items.filter m.isCopied)[i]? = some c →
      c ∈ items ∧ m.isCopied c = true := fun hc => List.mem_filter.mp (List.mem_of_getElem? hc)
  have hall : m.AreIndependent (items.filter m.isCopied) _ _ shift owner :=
    ⟨hcopies, fun hc => (hmem hc).2, hplain, fun hc => hsucceeds _ (hmem hc).1,
      fun {i i' c c'} hc hc' hne => by
        obtain ⟨hi, rfl⟩ := List.getElem?_eq_some_iff.mp hc
        obtain ⟨hi', rfl⟩ := List.getElem?_eq_some_iff.mp hc'
        rcases Nat.lt_or_gt_of_ne hne with hlt | hlt
        · exact hpairwise i i' hi hi' hlt
        · exact (hpairwise i' i hi' hi hlt).symm⟩
  obtain ⟨owner', howner, hanswered⟩ := hall.exists_owner
  exact together_of_orderly hcaching hcache (fun e he => (hplain e he).pauses) rfl hcopies
    (fun d hcopies' hruns => hall.isOrderly howner hanswered hcopies' hruns)
    fun i c hc => hall.unmarked_receive hc

theorem alone_eq (hcaching : m.caching = false) (hcache : m.cache = [])
    (hplain : ∀ e ∈ m.transforms, e.2.IsPlain) {c : Value} (hsucceeds : m.Succeeds c) :
    m.alone c =
      match m.fault? [c] with
      | some f => .error f
      | none => .ok (m.mutated c) := by
  have htogether := together_eq hcaching hcache hplain (List.forall_mem_singleton.mpr hsucceeds)
    (List.pairwise_singleton m.Independent c)
  have hsingle : (∀ mark items, c ≠ .list mark items) → (m.mutate c).1.map Mutated.value =
      match m.fault? [c] with
      | some f => .error f
      | none => .ok (m.mutated c) := fun h => by
    rw [mutate_single h, htogether]
    cases m.fault? [c] <;> rfl
  unfold alone
  split
  · rfl
  · next hlist => exact hsingle hlist

/-- **Mutating a list of independent criteria is mutating each of them alone**: with transforms that
are plain and answer, and no results kept, the items become what they become alone, or the call fails
as one of them does. -/
theorem mutate_list_of_independent (hcaching : m.caching = false) (hcache : m.cache = [])
    (hplain : ∀ e ∈ m.transforms, e.2.IsPlain) (hsucceeds : ∀ c ∈ items, m.Succeeds c)
    (hindependent : items.Pairwise m.Independent) (mark : Mark) :
    (∃ values, items.map m.alone = values.map Except.ok ∧
      (m.mutate (.list mark items)).1 = .ok ⟨.ofItems values, false⟩) ∨
    ∃ c ∈ items, ∃ f, m.alone c = .error f ∧ (m.mutate (.list mark items)).1 = .error f := by
  rw [mutate_list, together_eq hcaching hcache hplain hsucceeds hindependent]
  cases hfault : m.fault? items with
  | none =>
    refine .inl ⟨items.map m.mutated, ?_, rfl⟩
    rw [List.map_map]
    refine List.map_congr_left fun c hc => ?_
    rw [alone_eq hcaching hcache hplain (hsucceeds c hc), fault?_eq_none hfault hc]
    rfl
  | some f =>
    obtain ⟨c, hc, hf⟩ := exists_of_fault?_eq_some hfault
    refine .inr ⟨c, hc, f, ?_, rfl⟩
    rw [alone_eq hcaching hcache hplain (hsucceeds c hc), hf]

/-- Two items share the run of one field, and both get the other one from it. -/
theorem mutate_list_of_shared_run :
    let m : Mutator := ⟨[("a", .doubling 0), ("b", .copying (.str "a") 0)], false, [], 0⟩
    let items : List Value := [.object none [("a", .str "x"), ("b", .str "p")],
      .object none [("a", .str "x"), ("b", .str "q")]]
    items.Pairwise m.Independent ∧
    ((∃ values, items.map m.alone = values.map Except.ok ∧
      (m.mutate (.list none items)).1 = .ok ⟨.ofItems values, false⟩) ∨
    ∃ c ∈ items, ∃ f, m.alone c = .error f ∧ (m.mutate (.list none items)).1 = .error f) := by
  intro m items
  let item (s : String) : Value := .object none [("a", .str "x"), ("b", .str s)]
  have hfields : ∀ s, m.fields (item s) =
      [(("a", Digest.ofText "x"), ⟨"a", .doubling 0, .str "x"⟩),
        (("b", Digest.ofText s), ⟨"b", .copying (.str "a") 0, .str s⟩)] := fun _ => rfl
  have hanswer : ∀ s, ∀ q ∈ m.fields (item s), m.answer (item s) q.2 =
      .ok (.str (if q.2.name = "a" then "x" ++ "x" else "x")) := fun s => by
    rw [hfields]
    exact List.forall_mem_cons.mpr ⟨rfl, List.forall_mem_singleton.mpr rfl⟩
  have hsucceeds : ∀ s, m.Succeeds (item s) := fun s q hq => ⟨_, hanswer s q hq⟩
  have hapart : ∀ s, m.IsApart (item s) := fun s => by
    refine ⟨?_, ?_, fun q hq p hp => ?_, fun q hq p hp q' hq' a ha hmem => ?_⟩
    · rw [hfields]
      exact List.pairwise_pair.mpr (show "a" ≠ "b" by decide)
    · rw [hfields]
      refine List.pairwise_pair.mpr fun t ht t' ht' => ?_
      obtain rfl : [Slot.field "a"] = t := Option.some.inj ht
      obtain rfl : [Slot.field "b"] = t' := Option.some.inj ht'
      exact ⟨by decide, by decide⟩
    · obtain rfl : p = 0 := List.mem_singleton.mp hp.mem_marks
      rfl
    · rw [hanswer s q' hq'] at ha
      obtain rfl := Except.ok.inj ha
      cases hmem
  have hindependent : items.Pairwise m.Independent := by
    refine List.pairwise_pair.mpr fun q hq q' hq' hkey => ⟨hapart "p", hapart "q", ?_⟩
    have hname : q.2.name = q'.2.name := by
      rw [← (of_mem_fields hq).2.2, ← (of_mem_fields hq').2.2, hkey]
    rw [hanswer "p" q hq, hanswer "q" q' hq', hname]
  exact ⟨hindependent, mutate_list_of_independent (m := m) rfl rfl
    (List.forall_mem_cons.mpr ⟨Transform.isPlain_doubling,
      List.forall_mem_singleton.mpr (Transform.isPlain_copying _)⟩)
    (List.forall_mem_cons.mpr ⟨hsucceeds "p", List.forall_mem_singleton.mpr (hsucceeds "q")⟩)
    hindependent none⟩

/-! ## Criteria that are not independent -/

/-- Whether items that are mutated together all become what mutating them gives. -/
def EachAlone (m : Mutator) (items : List Value) : Prop :=
  ∃ values, items.map (fun c => (m.mutate c).1.map Mutated.value) = values.map Except.ok ∧
    (m.mutate (.ofItems items)).1 = .ok ⟨.ofItems values, false⟩

/-- The number at a place of what comes of a call. -/
def numberAt? (result : Except Fault Value) (place : Place) : Option Int :=
  match result.toOption.bind fun v => v.at? place with
  | some (.int i) => some i
  | _ => none

theorem EachAlone.numberAt?_eq (h : m.EachAlone items) {i : Nat} {c : Value}
    (hc : items[i]? = some c) (place : Place) :
    numberAt? ((m.mutate (.ofItems items)).1.map Mutated.value) (.item i :: place) =
      numberAt? ((m.mutate c).1.map Mutated.value) place := by
  obtain ⟨values, heach, hall⟩ := h
  have hi := congrArg (fun l : List (Except Fault Value) => l[i]?) heach
  rw [List.getElem?_map, List.getElem?_map, hc, Option.map_some] at hi
  cases hv : values[i]? with
  | none =>
    rw [hv] at hi
    cases hi
  | some v =>
    rw [hv] at hi
    have hslot : (Value.ofItems values).inSlot? (.item i) = some v := hv
    rw [hall, Option.some.inj hi]
    simp only [numberAt?, Except.map, Except.toOption, Option.bind_some, Value.at?_cons hslot]

/-- Transforms that are plain and answer, with no results kept, for items that do not all become
together what each becomes alone. -/
structure Departs (m : Mutator) (items : List Value) : Prop where
  caching : m.caching = false
  cache : m.cache = []
  plain : ∀ e ∈ m.transforms, e.2.IsPlain
  succeeds : ∀ c ∈ items, m.Succeeds c
  differs : ¬ m.EachAlone items

/-- **Items that are mutated together show in each other** where one condition of independence is
missing: the transform answers differently, a field is inside another one, an answer holds the
container around a field, or that container occurs twice.  And a list inside of a list stays as it
is. -/
theorem departs :
    Departs ⟨[("a", .copying (.str "b") 0)], false, [], 0⟩
      [.object none [("a", .int 1), ("b", .int 2)], .object none [("a", .int 1), ("b", .int 3)]] ∧
    Departs ⟨[("a", .constant (.object none [("x", .int 0)]) 0), ("a.x", .doubling 0)], false, [], 0⟩
      [.object none [("a.x", .int 1)], .object none [("a", .object none [("x", .int 1)])]] ∧
    Departs ⟨[("a", .copying (.str "b") 0), ("b.x", .doubling 0)], false, [], 0⟩
      [.object none [("a", .int 1), ("b", .object none [("x", .int 1)])],
        .object none [("a", .int 1), ("b", .object none [("x", .int 1)]), ("b.x", .int 9)]] ∧
    Departs ⟨[("a.x", .copying (.str "c") 0), ("b.x", .copying (.str "d") 0)], false, [], 1⟩
      [.object none [("b", .object none [("x", .int 1)]), ("d", .int 7)],
        .object none [("a", .object (some 0) [("x", .int 1)]),
          ("b", .object (some 0) [("x", .int 1)]), ("c", .int 5), ("d", .int 7)]] ∧
    Departs ⟨[("a", .doubling 0)], false, [], 0⟩ [.ofItems [.object none [("a", .int 1)]]] := by
  refine ⟨⟨rfl, rfl, ?_, by decide, fun h => ?_⟩,
    ⟨rfl, rfl, ?_, by decide, fun h => ?_⟩,
    ⟨rfl, rfl, ?_, by decide, fun h => ?_⟩,
    ⟨rfl, rfl, ?_, by decide, fun h => ?_⟩,
    ⟨rfl, rfl, ?_, by decide, fun h => ?_⟩⟩
  · exact List.forall_mem_singleton.mpr (Transform.isPlain_copying _)
  · exact absurd (h.numberAt?_eq (i := 1) rfl [.field "a"]) (by decide +kernel)
  · exact List.forall_mem_cons.mpr ⟨Transform.isPlain_constant _,
      List.forall_mem_singleton.mpr Transform.isPlain_doubling⟩
  · exact absurd (h.numberAt?_eq (i := 1) rfl [.field "a", .field "x"]) (by decide +kernel)
  · exact List.forall_mem_cons.mpr ⟨Transform.isPlain_copying _,
      List.forall_mem_singleton.mpr Transform.isPlain_doubling⟩
  · exact absurd (h.numberAt?_eq (i := 1) rfl [.field "a", .field "x"]) (by decide +kernel)
  · exact List.forall_mem_cons.mpr ⟨Transform.isPlain_copying _,
      List.forall_mem_singleton.mpr (Transform.isPlain_copying _)⟩
  · exact absurd (h.numberAt?_eq (i := 1) rfl [.field "a", .field "x"]) (by decide +kernel)
  · exact List.forall_mem_singleton.mpr Transform.isPlain_doubling
  · exact absurd (h.numberAt?_eq (i := 0) rfl [.item 0, .field "a"]) (by decide)

end Mutator

end Verdict
