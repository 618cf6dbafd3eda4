import Verdict.Proofs.Path.Writable

/-!
# Proofs/Path/Reading — what is read after a write

    root ──place of the path, or a place around it──▸ w        the path now leads to w, or nowhere

A path leads to what is at its place (`Path.resolve_of_place?`), but for one that is a field of the root
and starts with a dollar sign: it is written to the field and read from where its segments lead.  Once
something else is put in or around its place, a path leads elsewhere (`Path.resolve_setAt`).
-/

namespace Verdict

namespace Value

variable {v w inner root u : Value} {slot : Slot} {s : Place} {p : Nat}

theorem get?_eq_inSlot? (key : String) (v : Value) : v.get? key = v.inSlot? (.field key) := by
  cases v <;> rfl

theorem step_eq_nil_of_isScalar (h : w.isScalar = true) (s : Segment) : s.step w = [] := by
  cases w <;> first | (cases s <;> rfl) | cases h

theorem at?_setAt_self (h : at? s v = some u) (new : Value) : at? s (setAt new s v) = some new := by
  induction s generalizing v with
  | nil => rfl
  | cons slot rest ih =>
    obtain ⟨inner, hslot, hinner⟩ := inSlot?_of_at? h
    rw [setAt_cons_of_some hslot, at?_cons (inSlot?_fill_self hslot), ih hinner]

theorem at?_append_eq (s t : Place) (v : Value) : at? (s ++ t) v = (at? s v).bind (at? t) := by
  induction s generalizing v with
  | nil => rfl
  | cons slot rest ih =>
    rw [List.cons_append, at?, at?, Option.bind_assoc]
    exact congrArg _ (funext ih)

/-- What is at a place is in a slot of the container around it. -/
theorem inSlot?_of_at?_append {c : Value} (hc : at? s v = some c)
    (h : at? (s ++ [slot]) v = some inner) : c.inSlot? slot = some inner := by
  rw [at?_append_eq, hc, Option.bind_some] at h
  obtain ⟨inner', hslot, hinner⟩ := inSlot?_of_at? h
  rwa [← Option.some.inj hinner]

theorem occurs_of_inSlot? (h : v.inSlot? slot = some inner) : inner.Occurs v := by
  cases v with
  | object mark fields =>
    cases slot with
    | field name => exact .field (Entries.mem_of_find? h) .here
    | item n => cases h
  | list mark items =>
    cases slot with
    | field name => cases h
    | item n => exact .item (List.mem_of_getElem? h) .here
  | _ => cases h

theorem occurs_of_at? (h : at? s v = some u) : u.Occurs v := by
  induction s generalizing v with
  | nil => exact Option.some.inj h ▸ .here
  | cons slot rest ih =>
    obtain ⟨inner, hslot, hinner⟩ := inSlot?_of_at? h
    exact (ih hinner).trans (occurs_of_inSlot? hslot)

end Value

namespace Segment

variable {v w inner : Value} {ss : List Segment} {s t : Place} {p : Nat}

/-- A container does not occur in what a segment leads to from it. -/
theorem not_mem_marks_of_step (hnodup : v.marks.Nodup) (hp : v.mark = some p) {s : Segment}
    (h : inner ∈ s.step v) : p ∉ inner.marks := by
  intro hmem
  cases v with
  | list mark items =>
    have hinside := (Value.nodup_marks_list hnodup).2
    have hitem : inner ∈ items := by
      cases s with
      | key name => cases h
      | index i =>
        obtain ⟨k, -, hk⟩ := Option.bind_eq_some_iff.mp (Option.mem_toList.mp h)
        exact List.mem_of_getElem? hk
      | every => exact h
    exact hinside inner hitem p hmem hp
  | object mark fields =>
    have hinside := (Value.nodup_marks_object hnodup).2
    have hfield : ∃ e ∈ fields, e.2 = inner := by
      cases s with
      | key name => exact ⟨_, Entries.mem_of_find? (Option.mem_toList.mp h), rfl⟩
      | index i => cases h
      | every => exact List.mem_map.mp h
    obtain ⟨e, he, rfl⟩ := hfield
    exact hinside e he p hmem hp
  | _ => cases hp

/-- Segments whose place is in or inside of one that is filled lead to the new value, or nowhere. -/
theorem walk_setAt (hw : w.isScalar = true) (h : place? ss v = some (s ++ t)) :
    walk ss (Value.setAt w s v) = if t = [] then [w] else [] := by
  induction s generalizing ss v with
  | nil =>
    cases ss with
    | nil =>
      obtain rfl := Option.some.inj h
      rw [if_pos rfl]
      rfl
    | cons x rest =>
      obtain ⟨slot, inner, place, -, -, -, rfl⟩ := place?_cons h
      rw [Value.setAt, walk_cons, Value.step_eq_nil_of_isScalar hw, if_neg (List.cons_ne_nil _ _)]
      rfl
  | cons slot s ih =>
    cases ss with
    | nil => cases h
    | cons x rest =>
      obtain ⟨slot', inner, place, hslot, hinner, hrest, heq⟩ := place?_cons h
      obtain ⟨rfl, rfl⟩ := List.cons.inj heq
      have hfilled : (v.fill slot (Value.setAt w s inner)).slot? x = some slot :=
        (Value.slot?_fill hinner x).trans hslot
      obtain ⟨inner', hinner', hstep, -⟩ := step_of_slot? hfilled
      obtain rfl := Option.some.inj ((Value.inSlot?_fill_self hinner).symm.trans hinner')
      rw [Value.setAt_cons_of_some hinner, walk_cons, hstep, List.flatMap_singleton, ih hrest]

theorem withPoint_ne_nil (c : Char) (rest : List Char) : withPoint (c :: rest) ≠ [] := by
  rw [withPoint]
  split <;> exact List.cons_ne_nil _ _

/-- A text that is read to its end without a segment is empty. -/
theorem readAll_ne_nil {fuel : Nat} {cs : List Char} (hcs : cs ≠ []) {ss : List Segment}
    (h : readAll fuel cs = .ok (some ss)) : ss ≠ [] := by
  obtain ⟨c, rest, rfl⟩ := List.exists_cons_of_ne_nil hcs
  cases fuel with
  | zero => cases h
  | succ fuel =>
    rw [readAll] at h
    split at h
    · cases h
    · cases h
    · split at h
      · cases h
      · cases h
      · rw [← Option.some.inj (Except.ok.inj h)]
        exact List.cons_ne_nil _ _

end Segment

namespace Path

variable {path : String} {root w : Value} {place s t : Place}

/-- A path that is a field of the root but reads elsewhere, since it starts with a dollar sign. -/
def ReadsElsewhere (path : String) (root : Value) : Prop :=
  isRooted path = true ∧ root.hasField path = true

theorem place?_of_readsElsewhere (h : ReadsElsewhere path root) :
    place? path root = some [.field path] := by
  rw [place?, if_pos h.2]

/-- The two ways to a place: as the name of a field, and by segments. -/
theorem place?_cases (h : place? path root = some place) :
    (root.hasField path = true ∧ place = [.field path]) ∨
    (root.hasField path = false ∧ ∃ x ss, segments path = .ok (some (x :: ss)) ∧
      Segment.place? (x :: ss) root = some place) := by
  rw [place?] at h
  split at h
  · next hfield => exact .inl ⟨hfield, (Option.some.inj h).symm⟩
  · next hfield =>
    split at h
    · next x ss hsegments => exact .inr ⟨Bool.eq_false_iff.mpr hfield, x, ss, hsegments, h⟩
    · cases h

theorem place?_ne_nil (h : place? path root = some place) : place ≠ [] := by
  rcases place?_cases h with ⟨-, rfl⟩ | ⟨-, x, ss, -, hplace⟩
  · exact List.cons_ne_nil _ _
  · obtain ⟨_, _, _, -, -, -, rfl⟩ := Segment.place?_cons hplace
    exact List.cons_ne_nil _ _

theorem literal?_eq_none (h : root.hasField path = false) : literal? path root = none := by
  rw [literal?]
  split
  · rfl
  · exact Option.not_isSome_iff_eq_none.mp (Bool.eq_false_iff.mp h)

theorem literal?_eq_get? (h : root.hasField path = true) (hown : ¬ ReadsElsewhere path root) :
    literal? path root = root.get? path :=
  if_neg fun hrooted => hown ⟨hrooted, h⟩

theorem exists_at?_of_place? (h : place? path root = some place) : ∃ v, root.at? place = some v := by
  rcases place?_cases h with ⟨hfield, rfl⟩ | ⟨-, x, ss, -, hplace⟩
  · obtain ⟨v, hv⟩ := Option.isSome_iff_exists.mp hfield
    exact ⟨v, Value.at?_cons (Value.get?_eq_inSlot? path root ▸ hv) []⟩
  · obtain ⟨v, hv, -⟩ := Segment.walk_of_place? hplace
    exact ⟨v, hv⟩

/-- **A path leads to what is at its place.** -/
theorem resolve_of_place? (h : place? path root = some place) (hown : ¬ ReadsElsewhere path root) :
    resolve path root = .ok (root.at? place) := by
  rcases place?_cases h with ⟨hfield, rfl⟩ | ⟨hfield, x, ss, hsegments, hplace⟩
  · obtain ⟨v, hv⟩ := Option.isSome_iff_exists.mp hfield
    rw [resolve, literal?_eq_get? hfield hown, hv,
      Value.at?_cons (Value.get?_eq_inSlot? path root ▸ hv)]
    rfl
  · obtain ⟨v, hv, hwalk, -⟩ := Segment.walk_of_place? hplace
    rw [resolve, literal?_eq_none hfield, hsegments, hv]
    dsimp only
    rw [Segment.resolve, hwalk]

/-- **Once a scalar is put in or around its place, a path leads there, or nowhere.** -/
theorem resolve_setAt (hw : w.isScalar = true) (hs : s ≠ [])
    (h : place? path root = some (s ++ t)) (hown : ¬ ReadsElsewhere path root) :
    resolve path (Value.setAt w s root) = .ok (if t = [] then some w else none) := by
  have hsame := hasField_setAt path root w hs
  rcases place?_cases h with ⟨hfield, heq⟩ | ⟨hfield, x, ss, hsegments, hplace⟩
  · obtain ⟨rfl, rfl⟩ := (List.append_eq_singleton_iff.mp heq).resolve_left fun h => hs h.1
    have hown' : ¬ ReadsElsewhere path (Value.setAt w [.field path] root) := fun h =>
      hown ⟨h.1, hfield⟩
    obtain ⟨v, hv⟩ := Option.isSome_iff_exists.mp hfield
    rw [Value.get?_eq_inSlot?] at hv
    rw [resolve, literal?_eq_get? (hsame.trans hfield) hown', Value.get?_eq_inSlot?,
      Value.setAt_cons_of_some hv, Value.setAt, Value.inSlot?_fill_self hv, if_pos rfl]
  · rw [resolve, literal?_eq_none (hsame.trans hfield), hsegments]
    dsimp only
    rw [Segment.resolve, Segment.walk_setAt hw hplace]
    by_cases ht : t = []
    · rw [if_pos ht, if_pos ht]
    · rw [if_neg ht, if_neg ht]

/-- So it does not lead to one and the same, whatever is put there. -/
theorem not_forall_resolve_setAt (hs : s ≠ []) (h : place? path root = some (s ++ t))
    (hown : ¬ ReadsElsewhere path root) {v : Value} :
    ¬ ∀ w, resolve path (Value.setAt w s root) = .ok (some v) := by
  intro hall
  have hnull := (hall .null).symm.trans (resolve_setAt rfl hs h hown)
  have htrue := (hall (.bool true)).symm.trans (resolve_setAt rfl hs h hown)
  split at hnull
  · cases hnull
    split at htrue <;> cases htrue
  · cases hnull

/-- Only the dollar sign alone is a path without segments that starts with one. -/
theorem eq_of_segments_eq_nil (h : segments path = .ok (some [])) (hrooted : isRooted path = true) :
    path = "$" := by
  rw [segments, if_pos hrooted] at h
  have hdrop : path.toList.drop 1 = [] := by
    cases hcs : path.toList.drop 1 with
    | nil => rfl
    | cons c rest =>
      rw [hcs, Segment.ofChars] at h
      have hsome := Segment.readAll_ne_nil (Segment.withPoint_ne_nil c rest) h
      exact absurd rfl hsome
  rw [isRooted, beq_iff_eq] at hrooted
  refine String.toList_inj.mp ?_
  obtain ⟨rest, hrest⟩ := List.head?_eq_some_iff.mp hrooted
  rw [hrest] at hdrop ⊢
  rw [List.drop_one, List.tail_cons] at hdrop
  rw [hdrop]
  rfl

end Path

end Verdict
