import Verdict.Proofs.Path.Marks

/-!
# Proofs/Path/Place — places in a value

    v ──place = slots from the root──▸ what is there
    │
    ▾ setAt
    v with another value in that place

A container of a certain mark that occurs once is replaced where it stands
(`Value.replaceMarked_eq_setAt`).  Places **apart** from each other, none inside another, can be filled
in any order (`Value.setAt_comm`); filling one changes no container that is not around it or in it
(`Value.mark_at?_setAt`).
-/

namespace Verdict

/-- The slots that lead from a root to a place. -/
abbrev Place := List Slot

/-- Neither of two places is inside the other one, or the same. -/
def Place.Apart (s t : Place) : Prop := ¬ s <+: t ∧ ¬ t <+: s

theorem Place.Apart.symm {s t : Place} (h : s.Apart t) : t.Apart s := ⟨h.2, h.1⟩

/-- Places apart begin with different slots, or with one slot and are apart behind it. -/
theorem Place.Apart.cases {s t : Place} (h : s.Apart t) : ∃ x s' y t', s = x :: s' ∧ t = y :: t' ∧
    (x ≠ y ∨ x = y ∧ Place.Apart s' t') := by
  obtain ⟨hst, hts⟩ := h
  cases s with
  | nil => exact absurd (List.nil_prefix) hst
  | cons x s' =>
    cases t with
    | nil => exact absurd (List.nil_prefix) hts
    | cons y t' =>
      refine ⟨x, s', y, t', rfl, rfl, ?_⟩
      by_cases hxy : x = y
      · subst hxy
        exact .inr ⟨rfl, fun hp => hst (List.cons_prefix_cons.mpr ⟨rfl, hp⟩),
          fun hp => hts (List.cons_prefix_cons.mpr ⟨rfl, hp⟩)⟩
      · exact .inl hxy

namespace Value

/-! ## Slots -/

/-- What is in a slot. -/
def inSlot? (v : Value) (slot : Slot) : Option Value :=
  match v, slot with
  | .object _ fields, .field name => Entries.find? name fields
  | .list _ items, .item n => items[n]?
  | _, _ => none

variable {v inner new : Value} {slot other : Slot}

theorem inSlot?_fill_self (h : v.inSlot? slot = some inner) :
    (v.fill slot new).inSlot? slot = some new := by
  cases v with
  | object mark fields =>
    cases slot with
    | field name => exact Entries.find?_put_self ..
    | item n => cases h
  | list mark items =>
    cases slot with
    | field name => cases h
    | item n =>
      exact List.getElem?_set_self (List.getElem?_eq_some_iff.mp h).1
  | _ => cases h

theorem inSlot?_fill_other (h : other ≠ slot) : (v.fill slot new).inSlot? other = v.inSlot? other := by
  cases v with
  | object mark fields =>
    cases slot with
    | item n => rfl
    | field name =>
      cases other with
      | item m => rfl
      | field name' => exact Entries.find?_put_other (fun heq => h (congrArg _ heq)) ..
  | list mark items =>
    cases slot with
    | field name => rfl
    | item n =>
      cases other with
      | field name' => rfl
      | item m => exact List.getElem?_set_ne fun heq => h (congrArg _ heq.symm)
  | _ => rfl

theorem mark_fill : (v.fill slot new).mark = v.mark := by
  cases v <;> cases slot <;> rfl

theorem slot?_fill (h : v.inSlot? slot = some inner) (s : Segment) :
    (v.fill slot new).slot? s = v.slot? s := by
  cases v with
  | object mark fields =>
    cases slot with
    | item n => rfl
    | field name =>
      cases s with
      | key name' =>
        rw [fill, slot?, slot?, Entries.isSome_find?_put name' new (Option.isSome_of_eq_some h)]
      | _ => rfl
  | list mark items =>
    cases slot with
    | field name => rfl
    | item n =>
      cases s with
      | index i => rw [fill, slot?, slot?, List.length_set]
      | _ => rfl
  | _ => rfl

theorem hasField_fill (h : v.inSlot? slot = some inner) (name : String) :
    (v.fill slot new).hasField name = v.hasField name := by
  cases v with
  | object mark fields =>
    cases slot with
    | item n => rfl
    | field name' => exact Entries.isSome_find?_put name new (Option.isSome_of_eq_some h)
  | list mark items => cases slot <;> rfl
  | _ => rfl

theorem fill_fill (h : v.inSlot? slot = some inner) (a b : Value) :
    (v.fill slot a).fill slot b = v.fill slot b := by
  cases v with
  | object mark fields =>
    cases slot with
    | item n => rfl
    | field name => exact congrArg _ (Entries.put_put ..)
  | list mark items =>
    cases slot with
    | field name => rfl
    | item n => exact congrArg _ (List.set_set ..)
  | _ => rfl

theorem fill_comm {inner' : Value} (hne : slot ≠ other) (h : v.inSlot? slot = some inner)
    (h' : v.inSlot? other = some inner') (a b : Value) :
    (v.fill slot a).fill other b = (v.fill other b).fill slot a := by
  cases v with
  | object mark fields =>
    cases slot with
    | item n => cases h
    | field name =>
      cases other with
      | item m => cases h'
      | field name' =>
        exact congrArg _ (Entries.put_comm (fun heq => hne (congrArg _ heq.symm)) b a
          (Option.isSome_of_eq_some h') (Option.isSome_of_eq_some h))
  | list mark items =>
    cases slot with
    | field name => cases h
    | item n =>
      cases other with
      | field name' => cases h'
      | item m => exact congrArg _ (List.set_comm _ _ fun heq => hne (congrArg _ heq))
  | _ => cases h

theorem Remarks.inSlot? {f : Value → Value} {g : Mark → Mark} (h : Remarks f g) (v : Value)
    (slot : Slot) : (f v).inSlot? slot = (v.inSlot? slot).map f := by
  cases v with
  | object mark fields =>
    rw [h.object]
    cases slot with
    | item n => rfl
    | field name => exact Entries.find?_map f name fields
  | list mark items =>
    rw [h.list]
    cases slot with
    | field name => rfl
    | item n => exact List.getElem?_map
  | _ => rw [h.scalar rfl]; rfl

/-- An item that is found stands behind so many others, and is replaced there. -/
theorem exists_of_getElem? {items : List Value} {n : Nat} (h : items[n]? = some inner) :
    ∃ before after, items = before ++ inner :: after ∧ before.length = n ∧
      ∀ new, items.set n new = before ++ new :: after := by
  obtain ⟨hlt, hget⟩ := List.getElem?_eq_some_iff.mp h
  refine ⟨items.take n, items.drop (n + 1), ?_, List.length_take_of_le (Nat.le_of_lt hlt),
    fun new => ?_⟩
  · rw [← hget, ← List.drop_eq_getElem_cons hlt, List.take_append_drop]
  · rw [List.set_eq_take_append_cons_drop, if_pos hlt]

/-- The marks of a container are its own, and those of what is in its slots. -/
theorem marks_eq_of_inSlot? (h : v.inSlot? slot = some inner) : ∃ before after,
    v.marks = v.mark.toList ++ (before ++ inner.marks ++ after) ∧
      ∀ new, (v.fill slot new).marks = v.mark.toList ++ (before ++ new.marks ++ after) := by
  cases v with
  | object mark fields =>
    cases slot with
    | item n => cases h
    | field name =>
      obtain ⟨before, after, rfl, hput⟩ := Entries.exists_of_find? h
      refine ⟨marksOfFields before, marksOfFields after, ?_, fun new => ?_⟩
      · rw [marks, marksOfFields_eq_flatMap, marksOfFields_eq_flatMap, marksOfFields_eq_flatMap,
          List.flatMap_append, List.flatMap_cons, List.append_assoc]
        rfl
      · rw [fill, hput, marks, marksOfFields_eq_flatMap, marksOfFields_eq_flatMap,
          marksOfFields_eq_flatMap, List.flatMap_append, List.flatMap_cons, List.append_assoc]
        rfl
  | list mark items =>
    cases slot with
    | field name => cases h
    | item n =>
      obtain ⟨before, after, rfl, -, hset⟩ := exists_of_getElem? h
      refine ⟨marksOfItems before, marksOfItems after, ?_, fun new => ?_⟩
      · rw [marks, marksOfItems_eq_flatMap, marksOfItems_eq_flatMap, marksOfItems_eq_flatMap,
          List.flatMap_append, List.flatMap_cons, List.append_assoc]
        rfl
      · rw [fill, hset, marks, marksOfItems_eq_flatMap, marksOfItems_eq_flatMap,
          marksOfItems_eq_flatMap, List.flatMap_append, List.flatMap_cons, List.append_assoc]
        rfl
  | _ => cases h

/-- How often a mark occurs when a slot is filled. -/
theorem count_marks_fill (h : v.inSlot? slot = some inner) (new : Value) (p : Nat) :
    (v.fill slot new).marks.count p + inner.marks.count p =
      v.marks.count p + new.marks.count p := by
  obtain ⟨before, after, hmarks, hfill⟩ := marks_eq_of_inSlot? h
  rw [hmarks, hfill]
  simp only [List.count_append]
  omega

theorem count_marks_of_inSlot? (h : v.inSlot? slot = some inner) (p : Nat) :
    v.mark.toList.count p + inner.marks.count p ≤ v.marks.count p := by
  obtain ⟨before, after, hmarks, -⟩ := marks_eq_of_inSlot? h
  rw [hmarks]
  simp only [List.count_append]
  omega

theorem count_marks_of_inSlot?_ne {inner' : Value} (hne : slot ≠ other)
    (h : v.inSlot? slot = some inner) (h' : v.inSlot? other = some inner') (p : Nat) :
    inner.marks.count p + inner'.marks.count p ≤ v.marks.count p := by
  have hother : (v.fill slot .null).inSlot? other = some inner' :=
    (inSlot?_fill_other (Ne.symm hne)).trans h'
  have hfill := count_marks_fill h .null p
  have hle := count_marks_of_inSlot? hother p
  have hnull : Value.null.marks.count p = 0 := rfl
  omega

/-! ## Places -/

/-- What is at a place. -/
def at? : Place → Value → Option Value
  | [], v => some v
  | slot :: rest, v => (v.inSlot? slot).bind (at? rest)

/-- A value with another one at a place; one without such a place is as it was. -/
def setAt (new : Value) : Place → Value → Value
  | [], _ => new
  | slot :: rest, v =>
    match v.inSlot? slot with
    | some inner => v.fill slot (setAt new rest inner)
    | none => v

theorem setAt_cons_of_some (h : v.inSlot? slot = some inner) (rest : Place) :
    setAt new (slot :: rest) v = v.fill slot (setAt new rest inner) := by
  rw [setAt, h]

theorem setAt_cons_of_none (h : v.inSlot? slot = none) (rest : Place) :
    setAt new (slot :: rest) v = v := by
  rw [setAt, h]

theorem at?_cons (h : v.inSlot? slot = some inner) (rest : Place) :
    at? (slot :: rest) v = at? rest inner := by
  rw [at?, h, Option.bind_some]

theorem inSlot?_of_at? {rest : Place} {u : Value} (h : at? (slot :: rest) v = some u) :
    ∃ inner, v.inSlot? slot = some inner ∧ at? rest inner = some u :=
  Option.bind_eq_some_iff.mp h

theorem Remarks.at? {f : Value → Value} {g : Mark → Mark} (h : Remarks f g) (s : Place)
    (v : Value) : (f v).at? s = (v.at? s).map f := by
  induction s generalizing v with
  | nil => rfl
  | cons slot rest ih =>
    have hslot := h.inSlot? v slot
    cases hv : v.inSlot? slot with
    | none => rw [Value.at?, Value.at?, hslot, hv]; rfl
    | some inner =>
      rw [hv] at hslot
      rw [at?_cons hv, at?_cons hslot, ih]

/-- **Places apart can be filled in any order.** -/
theorem setAt_comm (a b : Value) {s t : Place} (h : s.Apart t) (v : Value) :
    setAt a s (setAt b t v) = setAt b t (setAt a s v) := by
  induction s generalizing t v with
  | nil => exact absurd List.nil_prefix h.1
  | cons x s ih =>
    obtain ⟨_, _, y, t, ⟨⟩, rfl, hne | ⟨rfl, hrest⟩⟩ := h.cases
    · cases hx : v.inSlot? x with
      | none =>
        rw [setAt_cons_of_none hx]
        refine setAt_cons_of_none ?_ s
        cases hy : v.inSlot? y with
        | none => rwa [setAt_cons_of_none hy]
        | some inner' => rwa [setAt_cons_of_some hy, inSlot?_fill_other hne]
      | some inner =>
        cases hy : v.inSlot? y with
        | none =>
          have hy' : (v.fill x (setAt a s inner)).inSlot? y = none :=
            (inSlot?_fill_other (Ne.symm hne)).trans hy
          rw [setAt_cons_of_none hy, setAt_cons_of_some hx, setAt_cons_of_none hy']
        | some inner' =>
          have hx' : (v.fill y (setAt b t inner')).inSlot? x = some inner :=
            (inSlot?_fill_other hne).trans hx
          have hy' : (v.fill x (setAt a s inner)).inSlot? y = some inner' :=
            (inSlot?_fill_other (Ne.symm hne)).trans hy
          rw [setAt_cons_of_some hy, setAt_cons_of_some hx', setAt_cons_of_some hx,
            setAt_cons_of_some hy']
          exact fill_comm (Ne.symm hne) hy hx _ _
    · cases hx : v.inSlot? x with
      | none => rw [setAt_cons_of_none hx, setAt_cons_of_none hx, setAt_cons_of_none hx]
      | some inner =>
        rw [setAt_cons_of_some hx, setAt_cons_of_some hx,
          setAt_cons_of_some (inSlot?_fill_self hx), setAt_cons_of_some (inSlot?_fill_self hx),
          fill_fill hx, fill_fill hx, ih hrest]

theorem Remarks.setAt {f : Value → Value} {g : Mark → Mark} (h : Remarks f g) (new : Value)
    (s : Place) (v : Value) : f (setAt new s v) = Value.setAt (f new) s (f v) := by
  induction s generalizing v with
  | nil => rfl
  | cons slot rest ih =>
    have hslot := h.inSlot? v slot
    cases hv : v.inSlot? slot with
    | none =>
      rw [hv] at hslot
      rw [setAt_cons_of_none hv, setAt_cons_of_none hslot]
    | some inner =>
      rw [hv] at hslot
      rw [setAt_cons_of_some hv, setAt_cons_of_some hslot, ← h.fill, ih]

theorem at?_append {c u : Value} {init rest : Place} (h : at? init v = some c)
    (hu : at? rest c = some u) : at? (init ++ rest) v = some u := by
  induction init generalizing v with
  | nil => rw [List.nil_append, Option.some.inj h, hu]
  | cons slot init ih =>
    obtain ⟨inner, hslot, hinner⟩ := inSlot?_of_at? h
    rw [List.cons_append, at?_cons hslot, ih hinner]

theorem setAt_append {c : Value} {init : Place} (h : at? init v = some c) (rest : Place) :
    setAt new (init ++ rest) v = setAt (setAt new rest c) init v := by
  induction init generalizing v with
  | nil => rw [List.nil_append, Option.some.inj h]; rfl
  | cons slot init ih =>
    obtain ⟨inner, hslot, hinner⟩ := inSlot?_of_at? h
    rw [List.cons_append, setAt_cons_of_some hslot, setAt_cons_of_some hslot, ih hinner]

/-! ## Marks and places -/

theorem count_marks_le_of_at? {s : Place} {u : Value} (h : at? s v = some u) (p : Nat) :
    u.marks.count p ≤ v.marks.count p := by
  induction s generalizing v with
  | nil => exact Nat.le_of_eq (by rw [Option.some.inj h])
  | cons slot rest ih =>
    obtain ⟨inner, hslot, hinner⟩ := inSlot?_of_at? h
    have := ih hinner
    have := count_marks_of_inSlot? hslot p
    omega

theorem one_le_count_of_mark {p : Nat} (h : v.mark = some p) : 1 ≤ v.marks.count p :=
  List.count_pos_iff.mpr (mem_marks_of_mark h)

/-- How often a mark occurs when a place is filled. -/
theorem count_marks_setAt {s : Place} {u : Value} (h : at? s v = some u) (new : Value) (p : Nat) :
    (setAt new s v).marks.count p + u.marks.count p = v.marks.count p + new.marks.count p := by
  induction s generalizing v with
  | nil => rw [Option.some.inj h, setAt, Nat.add_comm]
  | cons slot rest ih =>
    obtain ⟨inner, hslot, hinner⟩ := inSlot?_of_at? h
    have hfill := count_marks_fill hslot (setAt new rest inner) p
    have hrest := ih hinner
    rw [setAt_cons_of_some hslot]
    omega

/-- A container that is not inside a place occurs outside of it. -/
theorem count_marks_lt_of_at? {s init : Place} {u c : Value} {p : Nat} (hu : at? s v = some u)
    (hc : at? init v = some c) (hp : c.mark = some p) (hs : ¬ s <+: init) :
    u.marks.count p < v.marks.count p := by
  induction s generalizing v init with
  | nil => exact absurd List.nil_prefix hs
  | cons x s ih =>
    obtain ⟨inner, hx, hinner⟩ := inSlot?_of_at? hu
    have hle := count_marks_le_of_at? hinner p
    cases init with
    | nil =>
      obtain rfl := Option.some.inj hc
      have hcount := count_marks_of_inSlot? hx p
      rw [hp, Option.toList_some, List.count_singleton_self] at hcount
      omega
    | cons y init =>
      obtain ⟨inner', hy, hinner'⟩ := inSlot?_of_at? hc
      by_cases hxy : x = y
      · subst hxy
        obtain rfl := Option.some.inj (hx.symm.trans hy)
        have hlt := ih hinner hinner' fun hp => hs (List.cons_prefix_cons.mpr ⟨rfl, hp⟩)
        have hcount := count_marks_of_inSlot? hx p
        omega
      · have hcount := count_marks_of_inSlot?_ne hxy hx hy p
        have hone := one_le_count_of_mark hp
        have hle' := count_marks_le_of_at? hinner' p
        omega

/-- A container that occurs in no item of a list goes nowhere in it. -/
theorem map_replaceMarked {p : Nat} (items : List Value) (h : (marksOfItems items).count p = 0) :
    items.map (replaceMarked p new) = items := by
  rw [marksOfItems_eq_flatMap, List.count_eq_zero] at h
  refine (List.map_congr_left fun w hw => ?_).trans (List.map_id items)
  exact replaceMarked_of_not_mem fun hp => h (List.mem_flatMap.mpr ⟨w, hw, hp⟩)

theorem map_replaceMarked_fields {p : Nat} (fields : List (String × Value))
    (h : (marksOfFields fields).count p = 0) :
    fields.map (fun e => (e.1, replaceMarked p new e.2)) = fields := by
  rw [marksOfFields_eq_flatMap, List.count_eq_zero] at h
  refine (List.map_congr_left fun e he => ?_).trans (List.map_id fields)
  exact Prod.ext rfl (replaceMarked_of_not_mem fun hp => h (List.mem_flatMap.mpr ⟨e, he, hp⟩))

/-- A container that occurs only in a slot goes there. -/
theorem replaceMarked_of_inSlot? {p : Nat} (h : v.inSlot? slot = some inner)
    (hmark : v.mark ≠ some p) (hcount : v.marks.count p = inner.marks.count p) :
    replaceMarked p new v = v.fill slot (replaceMarked p new inner) := by
  have hnone : v.mark.toList.count p = 0 := List.count_eq_zero.mpr fun hmem =>
    hmark (Option.mem_toList.mp hmem)
  -- The count leaves no occurrence for the entries before and after the slot.
  cases v with
  | object mark fields =>
    cases slot with
    | item n => cases h
    | field name =>
      obtain ⟨before, after, rfl, hput⟩ := Entries.exists_of_find? h
      rw [marks, marksOfFields_eq_flatMap, List.flatMap_append, List.flatMap_cons,
        ← marksOfFields_eq_flatMap, ← marksOfFields_eq_flatMap] at hcount
      rw [Value.mark] at hnone hmark
      simp only [List.count_append] at hcount
      rw [replaceMarked, if_neg hmark, replaceMarkedFields_eq_map, List.map_append, List.map_cons,
        map_replaceMarked_fields before (by omega), map_replaceMarked_fields after (by omega), fill,
        hput]
  | list mark items =>
    cases slot with
    | field name => cases h
    | item n =>
      obtain ⟨before, after, rfl, -, hset⟩ := exists_of_getElem? h
      rw [marks, marksOfItems_eq_flatMap, List.flatMap_append, List.flatMap_cons,
        ← marksOfItems_eq_flatMap, ← marksOfItems_eq_flatMap] at hcount
      rw [Value.mark] at hnone hmark
      simp only [List.count_append] at hcount
      rw [replaceMarked, if_neg hmark, replaceMarkedItems_eq_map, List.map_append, List.map_cons,
        map_replaceMarked before (by omega), map_replaceMarked after (by omega), fill, hset]
  | _ => cases h

/-- A container that occurs in one place goes there. -/
theorem replaceMarked_eq_setAt {p : Nat} {init : Place} {c : Value} (hc : at? init v = some c)
    (hp : c.mark = some p) (hcount : v.marks.count p = 1) :
    replaceMarked p new v = setAt new init v := by
  induction init generalizing v with
  | nil =>
    obtain rfl := Option.some.inj hc
    cases v with
    | list mark items =>
      rw [Value.mark] at hp
      rw [replaceMarked, if_pos hp, setAt]
    | object mark fields =>
      rw [Value.mark] at hp
      rw [replaceMarked, if_pos hp, setAt]
    | _ => cases hp
  | cons slot init ih =>
    obtain ⟨inner, hslot, hinner⟩ := inSlot?_of_at? hc
    have hone := one_le_count_of_mark hp
    have hle := count_marks_le_of_at? hinner p
    have hself := count_marks_of_inSlot? hslot p
    have hmark : v.mark ≠ some p := fun heq => by
      rw [heq, Option.toList_some, List.count_singleton_self] at hself
      omega
    rw [setAt_cons_of_some hslot, ← ih hinner (by omega)]
    exact replaceMarked_of_inSlot? hslot hmark (by omega)

/-- Filling a place changes no container that the place is not above, but for what is in it. -/
theorem mark_at?_setAt {a c : Value} {init other : Place} (h : at? init v = some c)
    (hother : ¬ other <+: init) : ∃ c', at? init (setAt a other v) = some c' ∧ c'.mark = c.mark := by
  induction init generalizing v other with
  | nil =>
    obtain rfl := Option.some.inj h
    cases other with
    | nil => exact absurd List.nil_prefix hother
    | cons y other =>
      refine ⟨_, rfl, ?_⟩
      cases hy : v.inSlot? y with
      | none => rw [setAt_cons_of_none hy]
      | some inner => rw [setAt_cons_of_some hy, mark_fill]
  | cons x init ih =>
    obtain ⟨inner, hx, hinner⟩ := inSlot?_of_at? h
    cases other with
    | nil => exact absurd List.nil_prefix hother
    | cons y other =>
      by_cases hxy : x = y
      · subst hxy
        rw [setAt_cons_of_some hx, at?_cons (inSlot?_fill_self hx)]
        exact ih hinner fun hp => hother (List.cons_prefix_cons.mpr ⟨rfl, hp⟩)
      · cases hy : v.inSlot? y with
        | none => rw [setAt_cons_of_none hy]; exact ⟨c, h, rfl⟩
        | some inner' =>
          rw [setAt_cons_of_some hy, at?_cons ((inSlot?_fill_other hxy).trans hx)]
          exact ⟨c, hinner, rfl⟩

end Value

end Verdict
