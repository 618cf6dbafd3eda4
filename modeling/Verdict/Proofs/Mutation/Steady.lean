import Verdict.Proofs.Mutation.Course
import Verdict.Proofs.Path.Reading

/-!
# Proofs/Mutation/Steady — fields that do not notice each other are apart

    put anything at q ──▸ the path of q' leads to what it led to

Where each path leads to what it led to, whatever is put at the other fields, the places of fields are
apart and no field holds a container around another one: else something else would be read there
(`Field.IsSteady.areApart`).
-/

namespace Verdict

namespace Field

variable {transforms : List (String × Transform)} {root : Value} {q q' : CacheKey × Field}
  {s s' : Place} {p : Nat}

/-- What one field is, when something is put at another one. -/
theorem IsSteady.resolve_setAt (h : IsSteady transforms root) (hq : q ∈ requests transforms root)
    (hq' : q' ∈ requests transforms root) (hne : q.2.name ≠ q'.2.name)
    (hs : Path.place? q.2.name root = some s) (w : Value) :
    Path.resolve q'.2.name (Value.setAt w s root) = .ok (some q'.2.input) := by
  have hsteady := h [(q.2.name, w)] (fun e he => ⟨q, hq, by rw [List.mem_singleton.mp he]⟩)
    (q'.2.name, q'.2.transform) (of_mem_requests hq').1
    fun hmem => hne (List.mem_singleton.mp hmem).symm
  rw [(of_mem_requests hq').2.1, Value.putEach, List.foldl_cons, List.foldl_nil] at hsteady
  dsimp only at hsteady
  rwa [hs, Value.putIn] at hsteady

/-- No field is inside another one. -/
theorem IsSteady.not_prefix (h : IsSteady transforms root) (hq : q ∈ requests transforms root)
    (hq' : q' ∈ requests transforms root) (hne : q.2.name ≠ q'.2.name)
    (hs : Path.place? q.2.name root = some s) (hs' : Path.place? q'.2.name root = some s') :
    ¬ s <+: s' := by
  rintro ⟨t, rfl⟩
  have hnil := Path.place?_ne_nil hs
  by_cases helsewhere : Path.ReadsElsewhere q'.2.name root
  · -- The field of that name is read by the other path.
    have heq := Option.some.inj (hs'.symm.trans (Path.place?_of_readsElsewhere helsewhere))
    obtain ⟨rfl, rfl⟩ := (List.append_eq_singleton_iff.mp heq).resolve_left fun h => hnil h.1
    refine Path.not_forall_resolve_setAt hnil (t := []) hs (fun helsewhere' => hne ?_)
      fun w => h.resolve_setAt hq' hq (Ne.symm hne) hs' w
    have heq' := Option.some.inj (hs.symm.trans (Path.place?_of_readsElsewhere helsewhere'))
    exact (Slot.field.inj (List.cons.inj heq').1).symm
  · exact Path.not_forall_resolve_setAt hnil hs' helsewhere
      fun w => h.resolve_setAt hq hq' hne hs w

/-- No field holds a container around another one. -/
theorem IsSteady.not_mem_marks (h : IsSteady transforms root) (honce : root.marks.Nodup)
    (hq : q ∈ requests transforms root) (hq' : q' ∈ requests transforms root)
    (hne : q.2.name ≠ q'.2.name) (hinto : Path.IsInto q.2.name root p) : p ∉ q'.2.input.marks := by
  obtain ⟨outer, slot, c, hplace, hc, hp⟩ := hinto
  obtain ⟨inner, hinner⟩ := Path.exists_at?_of_place? hplace
  have hslot := Value.inSlot?_of_at?_append hc hinner
  intro hmem
  obtain ⟨u, hu, hmark⟩ := Value.mem_marks_iff_occurs.mp hmem
  -- Whatever is put there, the field holds the container with it.
  have hfill : ∀ w : Value, w.marks = [] → u = c.fill slot w := by
    intro w hw
    have hnodup : (Value.setAt w (outer ++ [slot]) root).marks.Nodup := by
      refine List.nodup_iff_count_le_one.mpr fun n => ?_
      have hcount := Value.count_marks_setAt hinner w n
      have hle := List.nodup_iff_count_le_one.mp honce n
      rw [hw, List.count_nil] at hcount
      omega
    have hreads := h.resolve_setAt hq hq' hne hplace w
    have hfilled : (Value.setAt w (outer ++ [slot]) root).at? outer = some (c.fill slot w) := by
      rw [Value.setAt_append hc, Value.setAt_cons_of_some hslot, Value.setAt]
      exact Value.at?_setAt_self hc _
    exact Value.Occurs.eq_of_mark hnodup (Path.occurs_of_resolve hreads hu hmark)
      (Value.occurs_of_at? hfilled) hmark (Value.mark_fill.trans hp)
  have hheld : ∀ w : Value, w.marks = [] → u.inSlot? slot = some w := fun w hw => by
    rw [hfill w hw]
    exact Value.inSlot?_fill_self hslot
  cases (hheld .null rfl).symm.trans (hheld (.bool true) rfl)

/-- A field that holds the container around it is the root as a field of itself. -/
theorem of_mem_marks_own (honce : root.marks.Nodup) (hq : q ∈ requests transforms root)
    (hinto : Path.IsInto q.2.name root p) (hmem : p ∈ q.2.input.marks) :
    q.2.name = "$" ∧ root.hasField "$" = true ∧ q.2.input = root ∧ root.mark = some p := by
  obtain ⟨outer, slot, c, hplace, hc, hp⟩ := hinto
  obtain ⟨-, hresolve, -⟩ := of_mem_requests hq
  by_cases helsewhere : Path.ReadsElsewhere q.2.name root
  · have heq := Option.some.inj (hplace.symm.trans (Path.place?_of_readsElsewhere helsewhere))
    obtain ⟨rfl, -⟩ : outer = [] ∧ [slot] = [.field q.2.name] := by
      simpa [List.append_eq_singleton_iff] using heq
    obtain rfl := Option.some.inj hc
    rw [Path.resolve, Path.literal?, if_pos helsewhere.1] at hresolve
    dsimp only at hresolve
    split at hresolve
    · cases hresolve
    · cases hresolve
    · next ss hsegments =>
      have hresolve := Except.ok.inj hresolve
      cases ss with
      | nil =>
        have hname := Path.eq_of_segments_eq_nil hsegments helsewhere.1
        exact ⟨hname, hname ▸ helsewhere.2, (Option.some.inj hresolve).symm, hp⟩
      | cons x rest =>
        obtain ⟨u, hu, hmark⟩ := Value.mem_marks_iff_occurs.mp hmem
        obtain ⟨w, hw, hu⟩ := Segment.exists_walk_of_resolve hresolve hu hmark
        rw [Segment.walk_cons] at hw
        obtain ⟨inner, hinner, hw⟩ := List.mem_flatMap.mp hw
        refine absurd ?_ (Segment.not_mem_marks_of_step honce hp hinner)
        exact (hu.trans (Segment.occurs_of_walk hw)).mem_marks (Value.mem_marks_of_mark hmark)
  · rw [Path.resolve_of_place? hplace helsewhere] at hresolve
    have hlt := Value.count_marks_lt_of_at? (Except.ok.inj hresolve) hc hp
      fun hinside => absurd hinside.length_le (by simp)
    have hone := List.nodup_iff_count_le_one.mp honce p
    have hheld := List.count_pos_iff.mpr hmem
    omega

/-- **Fields that do not notice what is put at the other ones do not get in each other's way.** -/
theorem IsSteady.areApart (h : IsSteady transforms root) (honce : root.marks.Nodup) :
    AreApart transforms root where
  apart := fun hq hq' hne _ hs _ hs' =>
    ⟨h.not_prefix hq hq' hne hs hs', h.not_prefix hq' hq (Ne.symm hne) hs' hs⟩
  outside := fun hq hq' hne _ hinto => h.not_mem_marks honce hq hq' hne hinto
  steady := h

/-! ## Fields by their names -/

/-- What is put into a place does not show in the fields beside it. -/
theorem get?_setAt_other {name key : String} (hne : name ≠ key) (w root : Value) :
    (Value.setAt w [.field key] root).get? name = root.get? name := by
  have hslot : Slot.field name ≠ .field key := fun heq => hne (Slot.field.inj heq)
  rw [Value.get?_eq_inSlot?, Value.get?_eq_inSlot?]
  cases hkey : root.inSlot? (.field key) with
  | none => rw [Value.setAt_cons_of_none hkey]
  | some inner => rw [Value.setAt_cons_of_some hkey, Value.inSlot?_fill_other hslot]

theorem get?_putEach_other {place? : String → Option Place} {name : String} :
    ∀ {errands : List (String × Value)}, (∀ e ∈ errands, place? e.1 = some [.field e.1]) →
      name ∉ errands.map Prod.fst → ∀ root : Value,
      (Value.putEach place? errands root).get? name = root.get? name
  | [], _, _, _ => rfl
  | e :: rest, hplaces, hnot, root => by
    obtain ⟨hplace, hrest⟩ := List.forall_mem_cons.mp hplaces
    rw [List.map_cons, List.mem_cons, not_or] at hnot
    have hlater := get?_putEach_other hrest hnot.2 (Value.putIn (place? e.1) e.2 root)
    rw [hplace, Value.putIn, get?_setAt_other hnot.1] at hlater
    rw [Value.putEach, List.foldl_cons, hplace, Value.putIn]
    exact hlater

/-- **Fields that are named do not notice each other**, where all of them are there. -/
theorem isSteady_of_hasField (hnamed : ∀ e ∈ transforms, Path.isRooted e.1 = false)
    (hthere : ∀ e ∈ transforms, root.hasField e.1 = true) : IsSteady transforms root := by
  intro errands herrands e he hnot
  have hplaces : ∀ e ∈ errands, Path.place? e.1 root = some [.field e.1] := fun e he => by
    obtain ⟨q, hq, hname⟩ := herrands e he
    rw [← hname, Path.place?, if_pos (hthere _ (of_mem_requests hq).1)]
  obtain ⟨v, hv⟩ := Option.isSome_iff_exists.mp (hthere e he)
  have hread : ∀ root' : Value, root'.get? e.1 = some v → Path.resolve e.1 root' = .ok (some v) :=
    fun root' hv => by rw [Path.resolve, Path.literal?, hnamed e he, if_neg Bool.false_ne_true, hv]
  rw [hread _ hv, hread _ ((get?_putEach_other hplaces hnot root).trans hv)]

end Field

end Verdict
