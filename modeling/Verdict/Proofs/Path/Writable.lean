import Verdict.Proofs.Path.Place

/-!
# Proofs/Path/Writable — where paths are written to

    root ──path──▸ place? ──some──▸ a write fills the place
                      └────none──▸ the path leads nowhere, or nothing is ever written to it

A path that leads somewhere names a place, unless it has a wildcard or no segments
(`Path.place?_of_resolve`).  A write fills the place (`Path.write?_of_place?`,
`Write.applyTo_eq_setAt`), and filling another place, apart from it, does not change where the path
leads (`Path.place?_setAt`).
-/

namespace Verdict

/-! ## The places of paths -/

namespace Segment

/-- The place that segments lead to: one slot each. -/
def place? : List Segment → Value → Option Place
  | [], _ => some []
  | s :: rest, v => do
    let slot ← v.slot? s
    let inner ← v.inSlot? slot
    let place ← place? rest inner
    some (slot :: place)

variable {s : Segment} {ss : List Segment} {v : Value} {slot : Slot} {place : Place}

/-- A segment that names a slot leads to what is in it. -/
theorem step_of_slot? (h : v.slot? s = some slot) :
    ∃ inner, v.inSlot? slot = some inner ∧ s.step v = [inner] ∧ s ≠ .every := by
  cases v with
  | object mark fields =>
    cases s with
    | key name =>
      rw [Value.slot?] at h
      split at h
      · next hsome =>
        obtain rfl := Option.some.inj h
        obtain ⟨inner, hinner⟩ := Option.isSome_iff_exists.mp hsome
        refine ⟨inner, hinner, ?_, fun h => by cases h⟩
        rw [step, Value.get?, hinner]
        rfl
      · cases h
    | _ => cases h
  | list mark items =>
    cases s with
    | index i =>
      obtain ⟨n, hn, rfl⟩ := Option.map_eq_some_iff.mp h
      have hlt : n < items.length := by
        rw [position?] at hn
        split at hn <;> split at hn <;> cases hn <;> omega
      refine ⟨items[n], List.getElem?_eq_getElem hlt, ?_, fun h => by cases h⟩
      rw [step, hn, Option.bind_some, List.getElem?_eq_getElem hlt]
      rfl
    | _ => cases h
  | _ => cases s <;> cases h

theorem place?_cons (h : place? (s :: ss) v = some place) : ∃ slot inner rest,
    v.slot? s = some slot ∧ v.inSlot? slot = some inner ∧ place? ss inner = some rest ∧
      place = slot :: rest := by
  rw [place?] at h
  obtain ⟨slot, hslot, h⟩ := Option.bind_eq_some_iff.mp h
  obtain ⟨inner, hinner, h⟩ := Option.bind_eq_some_iff.mp h
  obtain ⟨rest, hrest, h⟩ := Option.bind_eq_some_iff.mp h
  exact ⟨slot, inner, rest, hslot, hinner, hrest, (Option.some.inj h).symm⟩

theorem place?_cons_of_slot? {inner : Value} {rest : Place} (hslot : v.slot? s = some slot)
    (hinner : v.inSlot? slot = some inner) (hrest : place? ss inner = some rest) :
    place? (s :: ss) v = some (slot :: rest) := by
  rw [place?, hslot, Option.bind_eq_bind, Option.bind_some, hinner, Option.bind_eq_bind,
    Option.bind_some, hrest]
  rfl

/-- Segments with a place lead to what is there, and hold no wildcard. -/
theorem walk_of_place? (h : place? ss v = some place) :
    ∃ c, v.at? place = some c ∧ walk ss v = [c] ∧ hasWildcard ss = false := by
  induction ss generalizing v place with
  | nil =>
    obtain rfl := Option.some.inj h
    exact ⟨v, rfl, rfl, rfl⟩
  | cons s rest ih =>
    obtain ⟨slot, inner, place', hslot, hinner, hrest, rfl⟩ := place?_cons h
    obtain ⟨inner', hinner', hstep, hevery⟩ := step_of_slot? hslot
    obtain rfl := Option.some.inj (hinner.symm.trans hinner')
    obtain ⟨c, hc, hwalk, hwildcard⟩ := ih hrest
    refine ⟨c, (Value.at?_cons hinner _).trans hc, ?_, ?_⟩
    · rw [walk, List.foldl_cons, List.flatMap_singleton, hstep]
      exact hwalk
    · rw [hasWildcard, List.contains_cons, Bool.or_eq_false_iff]
      exact ⟨beq_eq_false_iff_ne.mpr (Ne.symm hevery), hwildcard⟩

/-- Where segments are written to does not depend on marks. -/
theorem place?_remark {f : Value → Value} {g : Mark → Mark} (h : Value.Remarks f g)
    (ss : List Segment) (v : Value) : place? ss (f v) = place? ss v := by
  induction ss generalizing v with
  | nil => rfl
  | cons s rest ih =>
    rw [place?, place?, h.slot?]
    refine congrArg _ (funext fun slot => ?_)
    rw [h.inSlot?]
    cases v.inSlot? slot with
    | none => rfl
    | some inner =>
      rw [Option.map_some, Option.bind_eq_bind, Option.bind_some, ih]
      rfl

/-- The last segment of a place names a slot of the container that the others lead to. -/
theorem place?_concat {init : List Segment} {last : Segment}
    (h : place? (init ++ [last]) v = some place) : ∃ outer slot c, place? init v = some outer ∧
      v.at? outer = some c ∧ c.slot? last = some slot ∧ place = outer ++ [slot] := by
  induction init generalizing v place with
  | nil =>
    obtain ⟨slot, inner, rest, hslot, -, hrest, rfl⟩ := place?_cons h
    obtain rfl := Option.some.inj hrest
    exact ⟨[], slot, v, rfl, rfl, hslot, rfl⟩
  | cons s init ih =>
    obtain ⟨slot, inner, rest, hslot, hinner, hrest, rfl⟩ := place?_cons h
    obtain ⟨outer, slot', c, houter, hc, hlast, rfl⟩ := ih hrest
    exact ⟨slot :: outer, slot', c, place?_cons_of_slot? hslot hinner houter,
      (Value.at?_cons hinner _).trans hc, hlast, rfl⟩

/-- A segment without a wildcard leads through a slot. -/
theorem slot?_of_mem_step {inner : Value} (hs : s ≠ .every) (h : inner ∈ s.step v) :
    ∃ slot, v.slot? s = some slot ∧ v.inSlot? slot = some inner := by
  cases s with
  | every => exact absurd rfl hs
  | key name =>
    rw [step, Option.mem_toList] at h
    cases v with
    | object mark fields =>
      exact ⟨.field name, if_pos (Option.isSome_of_eq_some h), h⟩
    | _ => cases h
  | index i =>
    cases v with
    | list mark items =>
      rw [step, Option.mem_toList] at h
      obtain ⟨n, hn, hitem⟩ := Option.bind_eq_some_iff.mp h
      exact ⟨.item n, congrArg (Option.map Slot.item) hn, hitem⟩
    | _ => cases h

/-- Segments without a wildcard that lead somewhere have a place. -/
theorem exists_place?_of_mem_walk {inner : Value} (hss : hasWildcard ss = false)
    (h : inner ∈ walk ss v) : ∃ place, place? ss v = some place := by
  suffices hall : ∀ (ss : List Segment) (vs : List Value), hasWildcard ss = false →
      inner ∈ ss.foldl (fun values s => values.flatMap s.step) vs →
      ∃ v ∈ vs, ∃ place, place? ss v = some place by
    obtain ⟨v', hv', hplace⟩ := hall ss [v] hss h
    exact List.mem_singleton.mp hv' ▸ hplace
  intro ss
  induction ss with
  | nil => exact fun vs _ h => ⟨inner, h, [], rfl⟩
  | cons s rest ih =>
    intro vs hwildcard h
    rw [hasWildcard, List.contains_cons, Bool.or_eq_false_iff] at hwildcard
    obtain ⟨v', hv', place, hplace⟩ := ih _ hwildcard.2 h
    obtain ⟨v, hv, hstep⟩ := List.mem_flatMap.mp hv'
    obtain ⟨slot, hslot, hinner⟩ := slot?_of_mem_step (beq_eq_false_iff_ne.mp hwildcard.1).symm hstep
    exact ⟨v, hv, slot :: place, place?_cons_of_slot? hslot hinner hplace⟩

/-- Putting a value where segments lead is filling their place. -/
theorem putAt_of_place? (new : Value) (h : place? ss v = some place) :
    Value.putAt new ss v = Value.setAt new place v := by
  induction ss generalizing v place with
  | nil =>
    obtain rfl := Option.some.inj h
    rfl
  | cons s rest ih =>
    obtain ⟨slot, inner, place', hslot, hinner, hrest, rfl⟩ := place?_cons h
    obtain ⟨inner', hinner', hstep, -⟩ := step_of_slot? hslot
    obtain rfl := Option.some.inj (hinner.symm.trans hinner')
    rw [Value.putAt, hslot, hstep, Value.setAt_cons_of_some hinner]
    dsimp only [List.head?_cons]
    rw [ih hrest]

/-- **Filling another place does not change where segments lead.** -/
theorem place?_setAt {other : Place} (a : Value) (h : place? ss v = some place)
    (hapart : place.Apart other) : place? ss (Value.setAt a other v) = some place := by
  induction ss generalizing v place other with
  | nil =>
    obtain rfl := Option.some.inj h
    exact absurd List.nil_prefix hapart.1
  | cons s rest ih =>
    obtain ⟨slot, inner, place', hslot, hinner, hrest, rfl⟩ := place?_cons h
    obtain ⟨_, _, y, other, ⟨⟩, rfl, hne | ⟨rfl, hbehind⟩⟩ := hapart.cases
    · cases hy : v.inSlot? y with
      | none => rwa [Value.setAt_cons_of_none hy]
      | some inner' =>
        rw [Value.setAt_cons_of_some hy]
        exact place?_cons_of_slot? ((Value.slot?_fill hy s).trans hslot)
          ((Value.inSlot?_fill_other hne).trans hinner) hrest
    · rw [Value.setAt_cons_of_some hinner]
      exact place?_cons_of_slot? ((Value.slot?_fill hinner s).trans hslot)
        (Value.inSlot?_fill_self hinner) (ih hrest hbehind)

end Segment

namespace Path

/-- The place that a path can be written to: the field it names literally, else where it leads. -/
def place? (path : String) (root : Value) : Option Place :=
  if root.hasField path then some [.field path]
  else
    match segments path with
    | .ok (some (s :: ss)) => Segment.place? (s :: ss) root
    | _ => none

variable {path : String} {root new : Value} {place : Place}

/-- **Where a path is written to does not depend on marks.** -/
theorem place?_remark {f : Value → Value} {g : Mark → Mark} (h : Value.Remarks f g) (path : String)
    (root : Value) : place? path (f root) = place? path root := by
  rw [place?, place?, h.hasField]
  refine congrArg (ite _ _) ?_
  split
  · exact Segment.place?_remark h _ root
  · rfl

/-- **A path with a place is written to there**: into the container around it, which segments lead
to. -/
theorem write?_of_place? (new : Value) (h : place? path root = some place) :
    ∃ ss outer slot c inner, place = outer ++ [slot] ∧ Segment.place? ss root = some outer ∧
      root.at? outer = some c ∧ c.inSlot? slot = some inner ∧
      write? path root new = .ok (some ⟨ss, c, c.fill slot new⟩) := by
  rw [place?] at h
  split at h
  · next hfield =>
    obtain rfl := Option.some.inj h
    cases root with
    | object mark fields =>
      obtain ⟨inner, hinner⟩ := Option.isSome_iff_exists.mp hfield
      exact ⟨[], [], .field path, _, inner, rfl, rfl, rfl, hinner, by rw [write?, if_pos hfield]⟩
    | _ => cases hfield
  · next hfield =>
    split at h
    · next s ss hsegments =>
      have hsplit := List.dropLast_concat_getLast (List.cons_ne_nil s ss)
      have hwildcard := (Segment.walk_of_place? h).choose_spec.2.2
      rw [← hsplit] at h
      obtain ⟨outer, slot, c, houter, hc, hslot, rfl⟩ := Segment.place?_concat h
      obtain ⟨inner, hinner, -⟩ := Segment.step_of_slot? hslot
      obtain ⟨c', hc', hwalk, -⟩ := Segment.walk_of_place? houter
      obtain rfl := Option.some.inj (hc.symm.trans hc')
      refine ⟨_, outer, slot, c, inner, rfl, houter, hc, hinner, ?_⟩
      rw [write?, if_neg hfield, hsegments]
      dsimp only
      rw [writeAt?, List.getLast?_eq_some_getLast (List.cons_ne_nil s ss)]
      dsimp only
      rw [hwildcard, if_neg Bool.false_ne_true, hwalk]
      dsimp only [List.head?_cons]
      rw [hslot]
      rfl
    · cases h

/-- Filling a place below a root does not change which fields there are. -/
theorem hasField_setAt (path : String) (root a : Value) {other : Place} (h : other ≠ []) :
    (Value.setAt a other root).hasField path = root.hasField path := by
  cases other with
  | nil => exact absurd rfl h
  | cons y other =>
    cases hy : root.inSlot? y with
    | none => rw [Value.setAt_cons_of_none hy]
    | some inner => rw [Value.setAt_cons_of_some hy, Value.hasField_fill hy]

/-- **Filling another place does not change where a path is written to.** -/
theorem place?_setAt {other : Place} (a : Value) (h : place? path root = some place)
    (hapart : place.Apart other) : place? path (Value.setAt a other root) = some place := by
  have hother : other ≠ [] := fun heq => hapart.2 (heq ▸ List.nil_prefix)
  have hfield := hasField_setAt path root a hother
  rw [place?] at h
  rw [place?, hfield]
  split at h
  · next hsome => rwa [if_pos hsome]
  · next hnone =>
    rw [if_neg hnone]
    split at h
    · exact Segment.place?_setAt a h hapart
    · cases h

/-! ## Paths that nothing can be written to -/

/-- A path that is no field of the root, and has a wildcard or no segments. -/
structure IsReadOnly (path : String) (root : Value) : Prop where
  field : root.hasField path = false
  segments : ∀ ss, segments path = .ok (some ss) → ss = [] ∨ Segment.hasWildcard ss = true

/-- **A path that leads somewhere has a place, or nothing can be written to it.** -/
theorem place?_of_resolve {v : Value} (h : resolve path root = .ok (some v))
    (hnone : place? path root = none) : IsReadOnly path root := by
  rw [place?] at hnone
  split at hnone
  · cases hnone
  · next hfield =>
    refine ⟨Bool.eq_false_iff.mpr hfield, fun ss hss => ?_⟩
    have hliteral : literal? path root = none := by
      rw [literal?]
      split
      · rfl
      · exact Option.not_isSome_iff_eq_none.mp hfield
    rw [resolve, hliteral, hss] at h
    rw [hss] at hnone
    cases ss with
    | nil => exact .inl rfl
    | cons s rest =>
      refine .inr ((Bool.eq_false_or_eq_true _).resolve_right fun hwildcard => ?_)
      have hresolve := Except.ok.inj h
      rw [Segment.resolve] at hresolve
      cases hwalk : Segment.walk (s :: rest) root with
      | nil => rw [hwalk] at hresolve; cases hresolve
      | cons inner others =>
        obtain ⟨place, hplace⟩ := Segment.exists_place?_of_mem_walk hwildcard
          (hwalk ▸ List.mem_cons_self ..)
        cases hnone.symm.trans hplace

namespace IsReadOnly

theorem place?_eq_none (h : IsReadOnly path root) : place? path root = none := by
  rw [place?, h.field, if_neg Bool.false_ne_true]
  split
  · next s ss hsegments =>
    rcases h.segments _ hsegments with heq | hwildcard
    · cases heq
    · refine Option.eq_none_iff_forall_ne_some.mpr fun place hplace => ?_
      have hfalse := (Segment.walk_of_place? hplace).choose_spec.2.2
      rw [hwildcard] at hfalse
      cases hfalse
  · rfl

theorem write?_ne (h : IsReadOnly path root) (v : Value) (w : Write) :
    write? path root v ≠ .ok (some w) := by
  rw [write?, h.field, if_neg Bool.false_ne_true]
  intro hw
  split at hw
  · cases hw
  · cases hw
  · next ss hsegments =>
    have hwrite := Except.ok.inj hw
    rw [writeAt?] at hwrite
    rcases h.segments ss hsegments with rfl | hwildcard
    · cases hwrite
    · split at hwrite
      · cases hwrite
      · rw [if_pos hwildcard] at hwrite
        cases hwrite

theorem setAt (h : IsReadOnly path root) (a : Value) {other : Place} (hother : other ≠ []) :
    IsReadOnly path (Value.setAt a other root) :=
  ⟨(hasField_setAt path root a hother).trans h.field, h.segments⟩

end IsReadOnly

end Path

/-- **A write fills the place of its path**, where its container occurs only there. -/
theorem Write.applyTo_eq_setAt {root new c inner : Value} {ss : List Segment} {outer : Place}
    {slot : Slot} (houter : Segment.place? ss root = some outer) (hc : root.at? outer = some c)
    (hinner : c.inSlot? slot = some inner)
    (honce : ∀ p, c.mark = some p → root.marks.count p = 1) :
    (Write.mk ss c (c.fill slot new)).applyTo root = Value.setAt new (outer ++ [slot]) root := by
  rw [Value.setAt_append hc, Value.setAt_cons_of_some hinner, Value.setAt, applyTo]
  cases hmark : c.mark with
  | none => exact Segment.putAt_of_place? _ houter
  | some p => exact Value.replaceMarked_eq_setAt hc hmark (honce p hmark)

end Verdict
