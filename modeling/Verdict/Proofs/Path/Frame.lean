import Verdict.Proofs.Limit
import Verdict.Proofs.Path.Location

/-!
# Proofs/Path/Frame — an update changes one slot, or nothing

    root  ──place of the path──▸ old         around the place: the same fields and items,
    root' ──place of the path──▸ new         beside it: the same values

An update puts the new value at the place of its path, and changes nothing where there is none
(`Path.update_cases`).  So the root afterwards **differs** from the root before in one slot, or not at
all (`Path.update_frame`).
-/

namespace Verdict

namespace Value

/-- A value that differs from another one in what is at one place.  Around that place there are the same
containers with the same fields or items in the same order, and beside it the same values. -/
inductive DiffersAt (old new : Value) : Place → Value → Value → Prop
  | here : DiffersAt old new [] old new
  /-- It differs in one field, the first of its name. -/
  | field {mark : Mark} {before after : List (String × Value)} {name : String} {v v' : Value}
      {s : Place} : name ∉ before.map Prod.fst → DiffersAt old new s v v' →
      DiffersAt old new (.field name :: s) (.object mark (before ++ (name, v) :: after))
        (.object mark (before ++ (name, v') :: after))
  /-- It differs in one item. -/
  | item {mark : Mark} {before after : List Value} {v v' : Value} {s : Place} :
      DiffersAt old new s v v' →
      DiffersAt old new (.item before.length :: s) (.list mark (before ++ v :: after))
        (.list mark (before ++ v' :: after))

variable {v u : Value} {s : Place}

/-- **A value with another one at a place differs from what it was at that place only.** -/
theorem differsAt_setAt (new : Value) (h : at? s v = some u) :
    DiffersAt u new s v (setAt new s v) := by
  induction s generalizing v with
  | nil =>
    obtain rfl := Option.some.inj h
    exact .here
  | cons slot rest ih =>
    obtain ⟨inner, hslot, hinner⟩ := inSlot?_of_at? h
    rw [setAt_cons_of_some hslot]
    cases v with
    | object mark fields =>
      cases slot with
      | item n => cases hslot
      | field name =>
        obtain ⟨before, after, rfl, hfirst⟩ := Entries.exists_first_of_find? hslot
        rw [fill, Entries.put_first hfirst]
        exact .field hfirst (ih hinner)
    | list mark items =>
      cases slot with
      | field name => cases hslot
      | item n =>
        obtain ⟨before, after, rfl, rfl, hset⟩ := exists_of_getElem? hslot
        rw [fill, hset]
        exact .item (ih hinner)
    | _ => cases hslot

end Value

namespace Segment

variable {ss : List Segment} {v : Value} {s : Place}

/-- Segments lead to the same place once it is filled. -/
theorem place?_setAt_self (new : Value) (h : place? ss v = some s) :
    place? ss (Value.setAt new s v) = some s := by
  induction ss generalizing v s with
  | nil =>
    obtain rfl := Option.some.inj h
    rfl
  | cons x rest ih =>
    obtain ⟨slot, inner, place, hslot, hinner, hrest, rfl⟩ := place?_cons h
    rw [Value.setAt_cons_of_some hinner]
    exact place?_cons_of_slot? ((Value.slot?_fill hinner x).trans hslot)
      (Value.inSlot?_fill_self hinner) (ih hrest)

end Segment

namespace Path

variable {path : String} {root root' new : Value} {place : Place}

/-- A path leads to the same place once it is filled. -/
theorem place?_setAt_self (new : Value) (h : place? path root = some place) :
    place? path (Value.setAt new place root) = some place := by
  have hfield := hasField_setAt path root new (place?_ne_nil h)
  rcases place?_cases h with ⟨hsome, rfl⟩ | ⟨hnone, x, ss, hsegments, hplace⟩
  · rw [place?, if_pos (hfield.trans hsome)]
  · rw [place?, if_neg (by simp [hfield, hnone]), hsegments]
    exact Segment.place?_setAt_self new hplace

/-! ## What an update does -/

/-- Segments that can be written to lead to a place. -/
theorem exists_place?_of_writeAt? {ss : List Segment} {w : Write}
    (h : writeAt? ss root new = some w) : ss ≠ [] ∧ ∃ place, Segment.place? ss root = some place := by
  rw [writeAt?] at h
  split at h
  · cases h
  · next last hlast =>
    obtain ⟨init, rfl⟩ := List.getLast?_eq_some_iff.mp hlast
    split at h
    · cases h
    · next hwildcard =>
      rw [List.dropLast_concat] at h
      split at h
      · cases h
      · next c hc =>
        obtain ⟨slot, hslot, -⟩ := Option.map_eq_some_iff.mp h
        obtain ⟨inner, -, hstep, -⟩ := Segment.step_of_slot? hslot
        have hinner : inner ∈ Segment.walk (init ++ [last]) root := by
          rw [Segment.walk_append]
          refine List.mem_flatMap.mpr ⟨c, List.mem_of_head? hc, ?_⟩
          rw [hstep]
          exact List.mem_singleton_self inner
        exact ⟨List.concat_ne_nil last init,
          Segment.exists_place?_of_mem_walk (Bool.not_eq_true _ ▸ hwildcard) hinner⟩

/-- Nothing is written where a path has no place. -/
theorem exists_place?_of_write? {w : Write} (h : write? path root new = .ok (some w)) :
    ∃ place, place? path root = some place := by
  rw [write?] at h
  rw [place?]
  split at h
  · next hfield => exact ⟨_, if_pos hfield⟩
  · next hfield =>
    rw [if_neg hfield]
    split at h
    · cases h
    · cases h
    · next ss hsegments =>
      obtain ⟨hne, place, hplace⟩ := exists_place?_of_writeAt? (Except.ok.inj h)
      obtain ⟨s, rest, rfl⟩ := List.exists_cons_of_ne_nil hne
      refine ⟨place, ?_⟩
      rw [hsegments]
      exact hplace

/-- **An update puts the new value at the place of its path.** -/
theorem update_of_place? (honce : root.marks.Nodup) (new : Value)
    (h : place? path root = some place) :
    update (.str path) root new = .ok (true, Value.setAt new place root) := by
  obtain ⟨ss, outer, slot, c, inner, rfl, houter, hc, hinner, hwrite⟩ := write?_of_place? new h
  have hcount : ∀ p, c.mark = some p → root.marks.count p = 1 := fun p hp =>
    Nat.le_antisymm (List.nodup_iff_count_le_one.mp honce p)
      (Nat.le_trans (Value.one_le_count_of_mark hp) (Value.count_marks_le_of_at? hc p))
  rw [update, hwrite]
  exact congrArg (fun root' => Except.ok (true, root'))
    (Write.applyTo_eq_setAt houter hc hinner hcount)

/-- An update that puts nothing leaves the root as it was. -/
theorem update_of_place?_eq_none {p : Value} {written : Bool}
    (hnone : ∀ path, p = .str path → place? path root = none)
    (h : update p root new = .ok (written, root')) : written = false ∧ root' = root := by
  cases p with
  | str path =>
    obtain ⟨found, hfound, heq⟩ := Except.map_eq_ok_iff.mp h
    cases found with
    | some w =>
      obtain ⟨place, hplace⟩ := exists_place?_of_write? hfound
      cases (hnone path rfl).symm.trans hplace
    | none =>
      cases heq
      exact ⟨rfl, rfl⟩
  | _ =>
    cases h
    exact ⟨rfl, rfl⟩

/-- An update puts the new value at the place of a path, or changes nothing. -/
theorem update_cases {p : Value} {written : Bool} (honce : root.marks.Nodup)
    (h : update p root new = .ok (written, root')) :
    (∃ path place, p = .str path ∧ place? path root = some place ∧ written = true ∧
      root' = Value.setAt new place root) ∨ written = false ∧ root' = root := by
  by_cases hplace : ∃ path place, p = .str path ∧ place? path root = some place
  · obtain ⟨path, place, rfl, hplace⟩ := hplace
    rw [update_of_place? honce new hplace] at h
    cases h
    exact .inl ⟨path, place, rfl, hplace, rfl, rfl⟩
  · refine .inr (update_of_place?_eq_none (fun path hp => ?_) h)
    exact Option.eq_none_iff_forall_ne_some.mpr fun place hsome => hplace ⟨path, place, hp, hsome⟩

/-- **An update replaces what is in one slot of a container, or leaves the root as it was**, in a
document, where no container occurs twice. -/
theorem update_frame {p : Value} {written : Bool} (honce : root.marks.Nodup)
    (h : update p root new = .ok (written, root')) :
    (written = true → ∃ outer slot old, Value.DiffersAt old new (outer ++ [slot]) root root') ∧
      (written = false → root' = root) := by
  rcases update_cases honce h with ⟨path, place, rfl, hplace, rfl, rfl⟩ | ⟨rfl, rfl⟩
  · refine ⟨fun _ => ?_, nofun⟩
    obtain ⟨old, hold⟩ := exists_at?_of_place? hplace
    have hsplit := List.dropLast_concat_getLast (place?_ne_nil hplace)
    refine ⟨place.dropLast, place.getLast (place?_ne_nil hplace), old, ?_⟩
    rw [hsplit]
    exact Value.differsAt_setAt new hold
  · exact ⟨nofun, fun _ => rfl⟩

/-- An item counted from the back, in a field. -/
theorem update_frame_of_item :
    let root := Value.ofFields [("a", .ofItems [.int 1, .int 2]), ("b", .int 3)]
    let root' := Value.ofFields [("a", .ofItems [.int 1, .int 9]), ("b", .int 3)]
    (root.marks.Nodup ∧ update (.str "a[-1]") root (.int 9) = .ok (true, root')) ∧
    (true = true → ∃ outer slot old,
      Value.DiffersAt old (.int 9) (outer ++ [slot]) root root') ∧
    (true = false → root' = root) := by
  intro root root'
  have honce : root.marks.Nodup := List.nodup_nil
  have h : update (.str "a[-1]") root (.int 9) = .ok (true, root') := by rfl
  exact ⟨⟨honce, h⟩, update_frame honce h⟩

end Path

end Verdict
