import Mathlib.Data.List.Induction
import Verdict.Proofs.Introspection.Merge
import Verdict.Proofs.Value.Equivalence

/-!
# Proofs/Introspection/Distinct — values put together, each once

    items   x₁  x₂  x₃  x₄  …    lists one level deep
    kept    x₁      x₃      …    those that equal no item before them

Putting values together keeps the first of equal items (`dedupFlatten_eq_firsts`).  As equality is
transitive, an item that equals one left out equals one that is kept, so it does not matter which of
the values were put together before (`appendNew_distinct`), and putting values in again adds only
items that do not equal themselves (`appendNew_of_isAmong`).  Merging does this field by field
(`Alternative.find?_mergeInto`) and inherits both.
-/

namespace Verdict

namespace Value

/-! ## First occurrences -/

/-- The items that equal none of the items before them. -/
def firsts (items : List Value) : List Value :=
  (items.zipIdx.filter fun p => !(items.take p.2).any p.1.equal).map Prod.fst

/-- The items of a list without repetitions. -/
def distinct (items : List Value) : List Value := appendNew [] items

variable {x : Value} {kept items : List Value}

theorem appendNew_append : ∀ (xs kept ys : List Value),
    appendNew kept (xs ++ ys) = appendNew (appendNew kept xs) ys
  | [], _, _ => rfl
  | x :: xs, kept, ys => by
    rw [List.cons_append, appendNew, appendNew]
    split
    · exact appendNew_append xs kept ys
    · exact appendNew_append xs (kept ++ [x]) ys

/-- Values put together are the distinct ones of their items. -/
theorem dedupFlatten_eq_distinct (vs : List Value) :
    dedupFlatten vs = distinct (vs.flatMap flat) := by
  have hfold : ∀ (vs kept : List Value),
      vs.foldl (fun kept v => appendNew kept v.flat) kept = appendNew kept (vs.flatMap flat) := by
    intro vs
    induction vs with
    | nil => exact fun _ => rfl
    | cons v rest ih =>
      intro kept
      rw [List.foldl_cons, ih, List.flatMap_cons, appendNew_append]
  exact hfold vs []

/-- What equals an item equals one that is kept, and the other way round. -/
theorem any_equal_appendNew (x : Value) (kept items : List Value) :
    (appendNew kept items).any x.equal = (kept.any x.equal || items.any x.equal) :=
  any_appendNew fun _ _ _ _ h => Bool.eq_iff_iff.mpr
    ⟨fun hx => equal_trans hx h, fun hx => equal_of_equal hx h⟩

theorem any_equal_distinct (x : Value) (items : List Value) :
    (distinct items).any x.equal = items.any x.equal := any_equal_appendNew x [] items

/-- One more item is kept where it equals none before it. -/
theorem appendNew_concat (kept items : List Value) (x : Value) :
    appendNew kept (items ++ [x]) = if kept.any x.equal || items.any x.equal
      then appendNew kept items else appendNew kept items ++ [x] := by
  rw [appendNew_append, appendNew, ← any_equal_appendNew]
  rfl

theorem firsts_concat (items : List Value) (x : Value) :
    firsts (items ++ [x]) = if items.any x.equal then firsts items else firsts items ++ [x] := by
  have hbefore : (items.zipIdx.filter fun p => !((items ++ [x]).take p.2).any p.1.equal) =
      items.zipIdx.filter fun p => !(items.take p.2).any p.1.equal := by
    refine List.filter_congr fun p hp => ?_
    have hlt : p.2 < items.length := by simpa using (List.mem_zipIdx hp).2.1
    rw [List.take_append_of_le_length (Nat.le_of_lt hlt)]
  have hlast : (items ++ [x]).take items.length = items := by simp
  rw [firsts, List.zipIdx_append, List.filter_append, hbefore, List.map_append, ← firsts]
  cases h : items.any x.equal <;> simp [h, hlast]

/-- **The distinct items are the first ones of equal items.** -/
theorem distinct_eq_firsts (items : List Value) : distinct items = firsts items := by
  induction items using List.reverseRecOn with
  | nil => rfl
  | append_singleton items x ih =>
    rw [distinct, appendNew_concat, firsts_concat, ← ih]
    rfl

theorem firsts_sublist (items : List Value) : (firsts items).Sublist items := by
  have h : ((items.zipIdx.filter fun p => !(items.take p.2).any p.1.equal).map Prod.fst).Sublist
      (items.zipIdx.map Prod.fst) := List.filter_sublist.map Prod.fst
  rwa [List.zipIdx_map_fst] at h

/-- No item that is kept equals one that is kept before it. -/
theorem pairwise_distinct (items : List Value) :
    (distinct items).Pairwise fun x y => y.equal x = false := by
  induction items using List.reverseRecOn with
  | nil => exact List.Pairwise.nil
  | append_singleton items x ih =>
    rw [distinct, appendNew_concat]
    split
    · exact ih
    · next hnew =>
      rw [List.any_nil, Bool.false_or, ← any_equal_distinct, Bool.not_eq_true] at hnew
      refine List.pairwise_append.mpr ⟨ih, List.pairwise_singleton .., fun y hy z hz => ?_⟩
      rw [List.mem_singleton.mp hz]
      exact Bool.eq_false_iff.mpr (List.any_eq_false.mp hnew y hy)

/-! ## Putting together what was put together -/

/-- **Items are kept the same whether or not repetitions among them were left out before.** -/
theorem appendNew_distinct (kept items : List Value) :
    appendNew kept (distinct items) = appendNew kept items := by
  -- From the end: the last item is left out of both or of neither.
  induction items using List.reverseRecOn with
  | nil => rfl
  | append_singleton items x ih =>
    have hdistinct : distinct (items ++ [x]) =
        if items.any x.equal then distinct items else distinct items ++ [x] :=
      appendNew_concat [] items x
    rw [hdistinct]
    cases hx : items.any x.equal with
    | true => rw [if_pos rfl, ih, appendNew_concat, hx, Bool.or_true, if_pos rfl]
    | false => rw [if_neg (by simp), appendNew_append, ih, ← appendNew_append]

/-- **Items that are there up to equality are kept only where they do not equal themselves.** -/
theorem appendNew_of_isAmong : ∀ {items kept : List Value}, (∀ x ∈ items, x.IsAmong kept) →
    appendNew kept items = kept ++ items.filter fun x => !x.equal x
  | [], kept, _ => (List.append_nil kept).symm
  | x :: rest, kept, h => by
    obtain ⟨⟨y, hy, hxy⟩, hrest⟩ := List.forall_mem_cons.mp h
    rw [appendNew, List.filter_cons]
    cases hself : x.equal x with
    | true =>
      have hknown : (kept.any fun seen => x.equal seen) = true :=
        List.any_eq_true.mpr ⟨y, hy, hxy.elim (fun heq => heq ▸ hself) fun h => h⟩
      rw [if_pos hknown, appendNew_of_isAmong hrest]
      rfl
    | false =>
      have hnew : ¬ (kept.any fun seen => x.equal seen) = true := fun hany => by
        obtain ⟨z, _, hxz⟩ := List.any_eq_true.mp hany
        rw [equal_self_of_equal hxz] at hself
        cases hself
      have hrest' : ∀ z ∈ rest, z.IsAmong (kept ++ [x]) := fun z hz =>
        (hrest z hz).mono (List.subset_append_left ..)
      rw [if_neg hnew, appendNew_of_isAmong hrest', List.append_assoc]
      rfl

variable {v w : Value} {vs ws : List Value}

/-- Putting values together does not depend on which of the first were put together before. -/
theorem dedupFlatten_group_left (mark : Mark) (vs ws : List Value) :
    dedupFlatten (.list mark (dedupFlatten vs) :: ws) = dedupFlatten (vs ++ ws) := by
  calc dedupFlatten (.list mark (dedupFlatten vs) :: ws)
      = distinct (dedupFlatten vs ++ ws.flatMap flat) := dedupFlatten_eq_distinct _
    _ = appendNew (distinct (distinct (vs.flatMap flat))) (ws.flatMap flat) := by
      rw [dedupFlatten_eq_distinct, distinct, appendNew_append, ← distinct]
    _ = appendNew (distinct (vs.flatMap flat)) (ws.flatMap flat) := by
      rw [distinct, appendNew_distinct, ← distinct]
    _ = dedupFlatten (vs ++ ws) := by
      rw [dedupFlatten_eq_distinct, List.flatMap_append, distinct, ← appendNew_append, ← distinct]

/-- Nor does it depend on which of the last were. -/
theorem dedupFlatten_group_right (mark : Mark) (vs ws : List Value) :
    dedupFlatten (vs ++ [.list mark (dedupFlatten ws)]) = dedupFlatten (vs ++ ws) := by
  have hflat : [list mark (dedupFlatten ws)].flatMap flat = distinct (ws.flatMap flat) :=
    (List.append_nil _).trans (dedupFlatten_eq_distinct ws)
  calc dedupFlatten (vs ++ [.list mark (dedupFlatten ws)])
      = distinct (vs.flatMap flat ++ distinct (ws.flatMap flat)) := by
        rw [dedupFlatten_eq_distinct, List.flatMap_append, hflat]
    _ = appendNew (distinct (vs.flatMap flat)) (ws.flatMap flat) := by
      rw [distinct, appendNew_append, appendNew_distinct, ← distinct]
    _ = dedupFlatten (vs ++ ws) := by
      rw [dedupFlatten_eq_distinct, List.flatMap_append, distinct, ← appendNew_append, ← distinct]

/-- Values that are put in again add the items that do not equal themselves. -/
theorem dedupFlatten_again (vs ws : List Value) : dedupFlatten (vs ++ ws ++ ws) =
    dedupFlatten (vs ++ ws) ++ (ws.flatMap flat).filter fun x => !x.equal x := by
  rw [dedupFlatten_eq_distinct, dedupFlatten_eq_distinct, List.flatMap_append, distinct,
    appendNew_append, ← distinct]
  refine appendNew_of_isAmong fun x hx => isAmong_appendNew ?_
  rw [List.nil_append, List.flatMap_append]
  exact List.mem_append_right _ hx

/-! ## Requirements of one field -/

/-- Two requirements of one field together. -/
def together (v w : Value) : Value := .ofItems (dedupFlatten [v, w])

theorem together_assoc (u v w : Value) : (u.together v).together w = u.together (v.together w) := by
  calc (u.together v).together w
      = .ofItems (dedupFlatten ([u, v] ++ [w])) :=
        congrArg ofItems (dedupFlatten_group_left none [u, v] [w])
    _ = u.together (v.together w) :=
        congrArg ofItems (dedupFlatten_group_right none [u] [v, w]).symm

/-- A requirement in which a value is already has its distinct entries and, once more, what does not
equal itself. -/
theorem together_of_hasEntries (h : v.HasEntries w) :
    v.together w = .ofItems (dedupFlatten [v] ++ w.flat.filter fun x => !x.equal x) := by
  refine congrArg ofItems (appendNew_of_isAmong fun x hx => ?_)
  exact (h x hx).trans fun y hy => isAmong_appendNew hy

end Value

namespace Alternative

/-! ## Merging is field by field -/

variable {a es : Alternative} {field v : Value} {name : String}

theorem find?_require_self (name : String) (v : Value) (a : Alternative) :
    (a.require (.str name) v).find? (.str name) =
      Option.merge Value.together (a.find? (.str name)) (some v) := by
  unfold Alternative.require
  cases hfind : a.find? (.str name) with
  | some known => exact find?_put_self name _ a
  | none =>
    rw [find?_append, hfind]
    exact find?_cons_self v name []

theorem find?_require_other (hne : field ≠ .str name) (v : Value) (a : Alternative) :
    (a.require field v).find? (.str name) = a.find? (.str name) := by
  have hother : ¬ field.loosely (.str name) = true := fun h =>
    hne (Value.loosely_str_right_iff.mp h)
  unfold Alternative.require
  split
  · exact find?_put_other hne _ a
  · rw [find?_append, find?, if_neg hother, find?, Option.or_none]

theorem fields_require (field v : Value) (a : Alternative) :
    (a.require field v).fields = a.fields ++ if (a.find? field).isNone then [field] else [] := by
  unfold Alternative.require fields
  cases hfind : a.find? field with
  | some known => simp [map_fst_put_of_find? hfind]
  | none => simp

/-- What is required of a field after merging is what both require of it. -/
theorem find?_mergeInto (hes : es.IsTable) (name : String) (a : Alternative) :
    (a.mergeInto es).find? (.str name) =
      Option.merge Value.together (a.find? (.str name)) (es.find? (.str name)) := by
  induction es generalizing a with
  | nil => exact (Option.merge_none_right ..).symm
  | cons e rest ih =>
    obtain ⟨⟨name', hname⟩, hnew, hrest⟩ := isTable_cons_iff.mp hes
    obtain ⟨f, v⟩ := e
    cases hname
    have hstep : (a.mergeInto ((.str name', v) :: rest)).find? (.str name) = Option.merge
        Value.together ((a.require (.str name') v).find? (.str name)) (find? (.str name) rest) :=
      ih hrest (a.require (.str name') v)
    rw [hstep]
    by_cases hne : Value.str name' = .str name
    · obtain rfl := Value.str.inj hne
      have hnone : find? (.str name') rest = none :=
        (find?_eq_none_iff hrest.named).mpr fun e he heq => hnew (List.mem_map.mpr ⟨e, he, heq⟩)
      rw [find?_require_self, hnone, find?_cons_self, Option.merge_none_right]
    · have hother : ¬ (Value.str name').loosely (.str name) = true := fun h =>
        hne (Value.loosely_str_right_iff.mp h)
      rw [find?_require_other hne, find?, if_neg hother]

/-- The fields after merging are those there before and, behind them, the new ones. -/
theorem fields_mergeInto (hes : es.IsTable) (a : Alternative) :
    (a.mergeInto es).fields = a.fields ++ es.fields.filter fun f => (a.find? f).isNone := by
  induction es generalizing a with
  | nil => exact (List.append_nil _).symm
  | cons e rest ih =>
    obtain ⟨⟨name', hname⟩, hnew, hrest⟩ := isTable_cons_iff.mp hes
    obtain ⟨f, v⟩ := e
    cases hname
    have hsame : ((fields rest).filter fun f => ((a.require (.str name') v).find? f).isNone) =
        (fields rest).filter fun f => (a.find? f).isNone := by
      refine List.filter_congr fun f hf => ?_
      obtain ⟨name, rfl⟩ := isNamed_iff.mp hrest.named f hf
      have hne : Value.str name' ≠ .str name := fun heq => hnew (heq ▸ hf)
      rw [find?_require_other hne]
    have hstep : (a.mergeInto ((.str name', v) :: rest)).fields =
        (a.require (.str name') v).fields ++
          (fields rest).filter fun f => ((a.require (.str name') v).find? f).isNone :=
      ih hrest (a.require (.str name') v)
    rw [hstep, hsame, fields_require, List.append_assoc]
    cases hfind : (a.find? (.str name')).isNone <;> simp [fields, hfind]

theorem find?_eq_none_iff_fields (ha : a.IsNamed) : a.find? field = none ↔ field ∉ a.fields := by
  rw [find?_eq_none_iff ha, fields, List.mem_map]
  exact ⟨fun h ⟨e, he, heq⟩ => h e he heq, fun h e he heq => h ⟨e, he, heq⟩⟩

theorem IsTable.mergeInto (ha : a.IsTable) (hes : es.IsTable) : (a.mergeInto es).IsTable := by
  have hfields := fields_mergeInto hes a
  refine ⟨isNamed_iff.mpr ?_, ?_⟩
  · rw [← fields, hfields]
    exact List.forall_mem_append.mpr ⟨isNamed_iff.mp ha.named,
      fun f hf => isNamed_iff.mp hes.named f (List.mem_filter.mp hf).1⟩
  · rw [← fields, hfields, List.nodup_append]
    refine ⟨ha.nodup, hes.nodup.filter _, fun f hf f' hf' heq => ?_⟩
    have hnone := Option.isNone_iff_eq_none.mp (List.mem_filter.mp hf').2
    exact (find?_eq_none_iff_fields ha.named).mp hnone (heq ▸ hf)

/-- Tables of the same fields in the same order, with the same requirements, are the same. -/
theorem IsTable.ext : ∀ {a b : Alternative}, a.IsTable → b.IsTable → a.fields = b.fields →
    (∀ name, a.find? (.str name) = b.find? (.str name)) → a = b
  | [], b, _, _, hfields, _ => (List.map_eq_nil_iff.mp hfields.symm).symm
  | _ :: _, [], _, _, hfields, _ => by cases hfields
  | e :: a, e' :: b, htable, htable', hfields, hfind => by
    obtain ⟨⟨name, hname⟩, hnew, ha⟩ := isTable_cons_iff.mp htable
    obtain ⟨_, hnew', hb⟩ := isTable_cons_iff.mp htable'
    obtain ⟨hfield, hrest⟩ := List.cons.inj hfields
    obtain ⟨f, v⟩ := e
    obtain ⟨f', w⟩ := e'
    obtain rfl : f = f' := hfield
    obtain rfl : f = .str name := hname
    have hhead := hfind name
    rw [find?_cons_self, find?_cons_self, Option.some.injEq] at hhead
    have htail : ∀ name', find? (.str name') a = find? (.str name') b := fun name' => by
      by_cases heq : name = name'
      · subst heq
        exact ((find?_eq_none_iff_fields ha.named).mpr hnew).trans
          ((find?_eq_none_iff_fields hb.named).mpr hnew').symm
      · have hother : ¬ (Value.str name).loosely (.str name') = true := fun h =>
          heq (Value.str.inj (Value.loosely_str_right_iff.mp h))
        have h := hfind name'
        rwa [find?, if_neg hother, find?, if_neg hother] at h
    rw [hhead, IsTable.ext ha hb hrest htail]

variable {b t : Alternative}

/-- **Merging one after another does not depend on how it is grouped.** -/
theorem mergeInto_assoc (ht : t.IsTable) (ha : a.IsTable) (hb : b.IsTable) :
    (t.mergeInto a).mergeInto b = t.mergeInto (a.mergeInto b) := by
  have hab : (a.mergeInto b).IsTable := ha.mergeInto hb
  refine ((ht.mergeInto ha).mergeInto hb).ext (ht.mergeInto hab) ?_ fun name => ?_
  · rw [fields_mergeInto hb, fields_mergeInto ha, fields_mergeInto hab, fields_mergeInto hb,
      List.filter_append, List.filter_filter, List.append_assoc]
    congr 2
    refine List.filter_congr fun f hf => ?_
    obtain ⟨name, rfl⟩ := isNamed_iff.mp hb.named f hf
    rw [find?_mergeInto ha]
    cases t.find? (.str name) <;> cases a.find? (.str name) <;> rfl
  · rw [find?_mergeInto hb, find?_mergeInto ha, find?_mergeInto hab, find?_mergeInto hb]
    cases t.find? (.str name) <;> cases a.find? (.str name) <;> cases b.find? (.str name) <;>
      simp [Value.together_assoc]

/-- What an alternative with the requirements of another is after these are merged in again: the
fields stay; a requirement of both has its distinct entries and, once more, what does not equal
itself, where these entries are the requirement unless the field came in with the first merge; and
all other requirements stay. -/
structure IsRepeated (t es : Alternative) : Prop where
  fields : ((t.mergeInto es).mergeInto es).fields = (t.mergeInto es).fields
  required : ∀ name v, es.find? (.str name) = some v → ∃ known,
    (t.mergeInto es).find? (.str name) = some known ∧
      ((t.mergeInto es).mergeInto es).find? (.str name) =
        some (.ofItems (dedupFlatten [known] ++ v.flat.filter fun x => !x.equal x)) ∧
      ((t.find? (.str name)).isSome = true → known = .ofItems (dedupFlatten [known]))
  other : ∀ name, es.find? (.str name) = none →
    ((t.mergeInto es).mergeInto es).find? (.str name) = (t.mergeInto es).find? (.str name)

/-- **Merging again adds nothing but what does not equal itself.** -/
theorem isRepeated_mergeInto (hes : es.IsTable) (t : Alternative) : t.IsRepeated es where
  fields := by
    have hnone : (es.fields.filter fun f => ((t.mergeInto es).find? f).isNone) = [] := by
      refine List.filter_eq_nil_iff.mpr fun f hf hnew => ?_
      obtain ⟨name, rfl⟩ := isNamed_iff.mp hes.named f hf
      rw [Option.isNone_iff_eq_none, find?_mergeInto hes] at hnew
      refine (find?_eq_none_iff_fields hes.named).mp ?_ hf
      cases hfind : es.find? (.str name) with
      | none => rfl
      | some v =>
        rw [hfind] at hnew
        cases h : t.find? (.str name) <;> simp [h] at hnew
    rw [fields_mergeInto hes, hnone, List.append_nil]
  required name v hv := by
    obtain ⟨known, hknown, hentries⟩ := covers_mergeInto (mem_of_find? hes.named hv) rfl t
    refine ⟨known, hknown, ?_, fun hsome => ?_⟩
    · rw [find?_mergeInto hes, hknown, hv]
      exact congrArg some (Value.together_of_hasEntries hentries)
    · obtain ⟨k, hk⟩ := Option.isSome_iff_exists.mp hsome
      rw [find?_mergeInto hes, hk, hv] at hknown
      obtain rfl : k.together v = known := Option.some.inj hknown
      exact congrArg Value.ofItems (Value.dedupFlatten_group_left none [k, v] []).symm
  other name hnone := by
    rw [find?_mergeInto hes, hnone, Option.merge_none_right]

end Alternative

namespace Value

/-- **Values are put together in order, each once, however they are grouped.**  What is kept is the
first of equal items, lists being flattened one level; no item that is kept equals one before it,
and each item is kept or equals one that is.  Values put together before may be put together with
others, and values that are put in again add only what does not equal itself: what holds a `nan`.
So alternatives can be merged in any grouping, and merged again. -/
theorem dedupFlatten_regroups (mark : Mark) (vs ws : List Value) :
    (dedupFlatten vs = firsts (vs.flatMap flat) ∧
      (dedupFlatten vs).Sublist (vs.flatMap flat) ∧
      (∀ (x : Value) (items : List Value),
        (dedupFlatten [.ofItems items]).any x.equal = items.any x.equal) ∧
      (dedupFlatten vs).Pairwise (fun x y => y.equal x = false) ∧
      ∀ x ∈ vs.flatMap flat, x ∈ dedupFlatten vs ∨ ∃ y ∈ dedupFlatten vs, x.equal y = true) ∧
    (dedupFlatten (.list mark (dedupFlatten vs) :: ws) = dedupFlatten (vs ++ ws) ∧
      dedupFlatten (vs ++ [.list mark (dedupFlatten ws)]) = dedupFlatten (vs ++ ws) ∧
      dedupFlatten (vs ++ ws ++ ws) =
        dedupFlatten (vs ++ ws) ++ (ws.flatMap flat).filter (fun x => !x.equal x) ∧
      ∀ x : Value, x.NamesOnce → (x.equal x = true ↔ x.IsNanFree)) ∧
    ∀ t a b : Alternative, t.IsTable → a.IsTable → b.IsTable →
      (t.mergeInto a).mergeInto b = t.mergeInto (a.mergeInto b) ∧ t.IsRepeated a := by
  have hdistinct := dedupFlatten_eq_distinct vs
  refine ⟨⟨hdistinct.trans (distinct_eq_firsts _), ?_, fun x items => any_equal_distinct x items,
    ?_, fun x hx => ?_⟩, ⟨dedupFlatten_group_left mark vs ws, dedupFlatten_group_right mark vs ws,
      dedupFlatten_again vs ws, fun x => equal_self_iff⟩, fun t a b ht ha hb =>
        ⟨Alternative.mergeInto_assoc ht ha hb, Alternative.isRepeated_mergeInto ha t⟩⟩
  · rw [hdistinct, distinct_eq_firsts]
    exact firsts_sublist _
  · rw [hdistinct]
    exact pairwise_distinct _
  · obtain ⟨y, hy, rfl | hequal⟩ : x.IsAmong (distinct (vs.flatMap flat)) := isAmong_appendNew hx
    · exact .inl (hdistinct ▸ hy)
    · exact .inr ⟨y, hdistinct ▸ hy, hequal⟩

/-- Lists in lists, equal numbers of two kinds, and a `nan` that is merged again. -/
theorem dedupFlatten_regroups_of_nan :
    let one : Value := .float (.ofInt 1)
    let nan : Value := .float .nan
    let vs : List Value := [.ofItems [.int 1, .ofItems [.int 1]], nan]
    let ws : List Value := [one, .ofItems [.ofItems [one], nan]]
    let t : Alternative := [(.str "a", .int 1)]
    let a : Alternative := [(.str "a", .ofItems [one, nan]), (.str "b", .int 2)]
    let b : Alternative := [(.str "b", .int 3)]
    (t.IsTable ∧ a.IsTable ∧ b.IsTable ∧ one.NamesOnce) ∧
    (dedupFlatten vs).length = 3 ∧ (dedupFlatten (vs ++ ws)).length = 4 ∧
    dedupFlatten (vs ++ ws ++ ws) = dedupFlatten (vs ++ ws) ++ [nan] ∧
    one.IsNanFree ∧
    (t.mergeInto a).mergeInto b = t.mergeInto (a.mergeInto b) ∧
    ∃ known, (t.mergeInto a).find? (.str "a") = some known ∧
      ((t.mergeInto a).mergeInto a).find? (.str "a") =
        some (.ofItems (dedupFlatten [known] ++ [nan])) := by
  intro one nan vs ws t a b
  have hself : one.equal one = true := by decide +kernel
  have ht : t.IsTable := ⟨by simp [t, Alternative.IsNamed], by simp [t]⟩
  have ha : a.IsTable := ⟨by simp [a, Alternative.IsNamed], by simp [a]⟩
  have hb : b.IsTable := ⟨by simp [b, Alternative.IsNamed], by simp [b]⟩
  have hone : one.NamesOnce := namesOnce_of_isScalar rfl
  obtain ⟨-, ⟨-, -, hagain, hiff⟩, hmerge⟩ := dedupFlatten_regroups none vs ws
  obtain ⟨hassoc, hrepeated⟩ := hmerge t a b ht ha hb
  obtain ⟨known, hknown, htwice, -⟩ := hrepeated.required "a" (.ofItems [one, nan]) rfl
  have hlist : (list none [one]).equal (.list none [one]) = true := by decide +kernel
  have hnan : nan.equal nan = false := rfl
  have hws : (ws.flatMap flat).filter (fun x => !x.equal x) = [nan] := by
    simp [ws, flat, ofItems, hself, hnan, hlist]
  have hva : (ofItems [one, nan]).flat.filter (fun x => !x.equal x) = [nan] := by
    simp [flat, ofItems, hself, hnan]
  rw [hws] at hagain
  rw [hva] at htwice
  exact ⟨⟨ht, ha, hb, hone⟩, by decide +kernel, by decide +kernel, hagain, (hiff one hone).mp hself,
    hassoc, known, hknown, htwice⟩

end Value

end Verdict
