import Verdict.Path.Update
import Verdict.Proofs.Entries
import Verdict.Proofs.Value.Occurs

/-!
# Proofs/Path/Marks — paths and writes with other marks, and what writes do not touch

    root ────write name new────▸ root'
     │ rename ρ                   │ rename ρ          ρ injective
     ▾                            ▾
    root.rename ρ ──────────────▸ root'.rename ρ

What paths lead to does not depend on marks (`Value.Remarks.resolve`), and what writes change does not
depend on what the marks are (`Path.write?_rename`, `Write.applyTo_rename`).  A write shows only where
its container occurs (`Write.applyElsewhere_of_avoids`), and brings in no other marks than those of the
root and of the new value (`Write.mem_marks_applyTo`).
-/

namespace Verdict

/-! ## Slots, segments and paths with other marks -/

namespace Value

variable {f : Value → Value} {g : Mark → Mark}

namespace Remarks

theorem get? (h : Remarks f g) (key : String) (v : Value) : (f v).get? key = (v.get? key).map f := by
  cases v with
  | object mark fields =>
    rw [h.object]
    exact Entries.find?_map f key fields
  | list mark items => rw [h.list]; rfl
  | _ => rw [h.scalar rfl]; rfl

theorem hasField (h : Remarks f g) (key : String) (v : Value) :
    (f v).hasField key = v.hasField key := by
  rw [Value.hasField, Value.hasField, h.get?, Option.isSome_map]

theorem mark (h : Remarks f g) (v : Value) : (f v).mark = g v.mark := by
  cases v with
  | object mark fields => rw [h.object]; rfl
  | list mark items => rw [h.list]; rfl
  | _ => rw [h.scalar rfl]; exact h.unmarked.symm

theorem slot? (h : Remarks f g) (s : Segment) (v : Value) : (f v).slot? s = v.slot? s := by
  cases v with
  | object mark fields =>
    rw [h.object]
    cases s with
    | key name => rw [Value.slot?, Value.slot?, Entries.find?_map, Option.isSome_map]
    | _ => rfl
  | list mark items =>
    rw [h.list]
    cases s with
    | index i => rw [Value.slot?, Value.slot?, List.length_map]
    | _ => rfl
  | _ => rw [h.scalar rfl]

theorem fill (h : Remarks f g) (slot : Slot) (new v : Value) :
    (f v).fill slot (f new) = f (v.fill slot new) := by
  cases v with
  | object mark fields =>
    cases slot with
    | field name => rw [h.object, Value.fill, Value.fill, h.object, Entries.put_map]
    | item n =>
      rw [h.object]
      exact (h.object mark fields).symm
  | list mark items =>
    cases slot with
    | field name =>
      rw [h.list]
      exact (h.list mark items).symm
    | item n => rw [h.list, Value.fill, Value.fill, h.list, List.map_set]
  | _ =>
    rw [h.scalar rfl]
    exact (h.scalar rfl).symm

theorem step (h : Remarks f g) (s : Segment) (v : Value) : s.step (f v) = (s.step v).map f := by
  cases s with
  | key name =>
    rw [Segment.step, Segment.step, h.get?]
    cases v.get? name <;> rfl
  | index i =>
    cases v with
    | list mark items =>
      rw [h.list, Segment.step, Segment.step, List.length_map]
      cases Segment.position? items.length i with
      | none => rfl
      | some n =>
        simp only [Option.bind_some, List.getElem?_map]
        cases items[n]? <;> rfl
    | object mark fields => rw [h.object]; rfl
    | _ => rw [h.scalar rfl]; rfl
  | every =>
    cases v with
    | list mark items => rw [h.list]; rfl
    | object mark fields =>
      rw [h.object, Segment.step, Segment.step, List.map_map, List.map_map]
      rfl
    | _ => rw [h.scalar rfl]; rfl

theorem walk (h : Remarks f g) (ss : List Segment) (v : Value) :
    Segment.walk ss (f v) = (Segment.walk ss v).map f := by
  suffices hall : ∀ values : List Value,
      ss.foldl (fun values s => values.flatMap s.step) (values.map f) =
        (ss.foldl (fun values s => values.flatMap s.step) values).map f from hall [v]
  induction ss with
  | nil => exact fun _ => rfl
  | cons s rest ih =>
    intro values
    have hstep : (values.map f).flatMap s.step = (values.flatMap s.step).map f := by
      rw [List.flatMap_map, List.map_flatMap]
      exact congrArg List.flatten (List.map_congr_left fun v _ => h.step s v)
    rw [List.foldl_cons, List.foldl_cons, hstep, ih]

theorem resolveSegments (h : Remarks f g) (ss : List Segment) (v : Value) :
    Segment.resolve ss (f v) = (Segment.resolve ss v).map f := by
  rw [Segment.resolve, Segment.resolve, h.walk]
  rcases Segment.walk ss v with _ | ⟨x, _ | ⟨y, rest⟩⟩
  · rfl
  · rfl
  · have hitems : f (.ofItems (x :: y :: rest)) = .ofItems ((x :: y :: rest).map f) := by
      rw [ofItems, h.list, h.unmarked, ofItems]
    rw [List.map_cons, List.map_cons, Option.map_some, apply_ite f, hitems]
    rfl

/-- **What a path leads to does not depend on marks.** -/
theorem resolve (h : Remarks f g) (path : String) (v : Value) :
    Path.resolve path (f v) = (Path.resolve path v).map (Option.map f) := by
  have hliteral : Path.literal? path (f v) = (Path.literal? path v).map f := by
    rw [Path.literal?, Path.literal?, h.get?, apply_ite (Option.map f)]
    rfl
  rw [Path.resolve, Path.resolve, hliteral]
  cases Path.literal? path v with
  | some w => rfl
  | none =>
    cases Path.segments path with
    | error f => rfl
    | ok ss =>
      cases ss with
      | none => rfl
      | some ss => exact congrArg Except.ok (h.resolveSegments ss v)

end Remarks

end Value

/-! ## Writes under renaming -/

/-- A write with its containers changed. -/
def Write.through (f : Value → Value) (w : Write) : Write := ⟨w.place, f w.before, f w.after⟩

/-- A write with other marks. -/
def Write.rename (ρ : Nat → Nat) (w : Write) : Write :=
  ⟨w.place, w.before.rename ρ, w.after.rename ρ⟩

namespace Value

variable {ρ : Nat → Nat}

theorem replaceMarkedItems_eq_map (n : Nat) (new : Value) (items : List Value) :
    replaceMarkedItems n new items = items.map (replaceMarked n new) := by
  induction items with
  | nil => rfl
  | cons v rest ih => rw [replaceMarkedItems, ih, List.map_cons]

theorem replaceMarkedFields_eq_map (n : Nat) (new : Value) (fields : List (String × Value)) :
    replaceMarkedFields n new fields = fields.map fun e => (e.1, replaceMarked n new e.2) := by
  induction fields with
  | nil => rfl
  | cons e rest ih => rw [replaceMarkedFields, ih, List.map_cons]

theorem replaceMarked_rename (hρ : Function.Injective ρ) (n : Nat) (new v : Value) :
    replaceMarked (ρ n) (new.rename ρ) (v.rename ρ) = (replaceMarked n new v).rename ρ := by
  have hmark : ∀ mark : Mark, mark.map ρ = some (ρ n) ↔ mark = some n := fun mark => by
    cases mark with
    | none => simp
    | some k => exact ⟨fun h => congrArg some (hρ (Option.some.inj h)), fun h => congrArg _ h⟩
  induction v using inductionOn with
  | scalar v hv => cases v <;> first | rfl | cases hv
  | list mark items ih =>
    simp only [rename, replaceMarked, hmark]
    split
    · rfl
    · rw [rename, replaceMarkedItems_eq_map, replaceMarkedItems_eq_map, renameItems_eq_map,
        renameItems_eq_map, List.map_map, List.map_map]
      exact congrArg _ (List.map_congr_left ih)
  | object mark fields ih =>
    simp only [rename, replaceMarked, hmark]
    split
    · rfl
    · rw [rename, replaceMarkedFields_eq_map, replaceMarkedFields_eq_map, renameFields_eq_map,
        renameFields_eq_map, List.map_map, List.map_map]
      exact congrArg _ (List.map_congr_left fun e he => congrArg (Prod.mk e.1) (ih e he))

theorem putAt_rename (ss : List Segment) (new v : Value) :
    putAt (new.rename ρ) ss (v.rename ρ) = (putAt new ss v).rename ρ := by
  have hρ := remarks_rename ρ
  induction ss generalizing v with
  | nil => rfl
  | cons s rest ih =>
    rw [putAt, putAt, hρ.slot?, hρ.step, List.head?_map]
    cases v.slot? s with
    | none => rfl
    | some slot =>
      cases (s.step v).head? with
      | none => rfl
      | some inner =>
        dsimp only [Option.map_some]
        rw [ih, hρ.fill]

end Value

namespace Write

variable {ρ : Nat → Nat}

theorem applyTo_rename (hρ : Function.Injective ρ) (w : Write) (root : Value) :
    (w.rename ρ).applyTo (root.rename ρ) = (w.applyTo root).rename ρ := by
  rw [applyTo, applyTo, rename, (Value.remarks_rename ρ).mark]
  cases w.before.mark with
  | none => exact Value.putAt_rename ..
  | some n => exact Value.replaceMarked_rename hρ ..

theorem applyElsewhere_rename (hρ : Function.Injective ρ) (w : Write) (v : Value) :
    (w.rename ρ).applyElsewhere (v.rename ρ) = (w.applyElsewhere v).rename ρ := by
  rw [applyElsewhere, applyElsewhere, rename, (Value.remarks_rename ρ).mark]
  cases w.before.mark with
  | none => rfl
  | some n => exact Value.replaceMarked_rename hρ ..

end Write

namespace Path

/-- **A write does not depend on marks**, but for the marks of its container. -/
theorem write?_remark {f : Value → Value} {g : Mark → Mark} (h : Value.Remarks f g) (path : String)
    (root new : Value) : write? path (f root) (f new) =
      (write? path root new).map (Option.map (Write.through f)) := by
  have hwriteAt : ∀ ss, writeAt? ss (f root) (f new) = (writeAt? ss root new).map (Write.through f) := by
    intro ss
    rw [writeAt?, writeAt?]
    cases ss.getLast? with
    | none => rfl
    | some last =>
      dsimp only
      split
      · rfl
      · rw [h.walk, List.head?_map]
        cases (Segment.walk ss.dropLast root).head? with
        | none => rfl
        | some container =>
          dsimp only [Option.map_some]
          rw [h.slot?, Option.map_map]
          refine Option.map_congr fun slot _ => ?_
          exact congrArg (Write.mk _ _) (h.fill slot new container)
  rw [write?, write?, h.hasField, h.fill]
  split
  · rfl
  · cases segments path with
    | error f => rfl
    | ok ss =>
      cases ss with
      | none => rfl
      | some ss => exact congrArg Except.ok (hwriteAt ss)

theorem write?_rename {ρ : Nat → Nat} (path : String) (root new : Value) :
    write? path (root.rename ρ) (new.rename ρ) =
      (write? path root new).map (Option.map (Write.rename ρ)) :=
  write?_remark (Value.remarks_rename ρ) path root new

end Path

/-! ## What paths reach -/

section Occurs

variable {u v inner root : Value} {n : Nat}

theorem Value.occurs_of_get? {key : String} (h : v.get? key = some inner) : inner.Occurs v := by
  cases v with
  | object mark fields => exact .field (Entries.mem_of_find? h) .here
  | _ => cases h

namespace Segment

/-- A segment leads to what occurs in a value. -/
theorem occurs_of_step {s : Segment} (h : inner ∈ s.step v) : inner.Occurs v := by
  cases s with
  | key name => exact Value.occurs_of_get? (Option.mem_toList.mp h)
  | index i =>
    cases v with
    | list mark items =>
      obtain ⟨k, -, hk⟩ := Option.bind_eq_some_iff.mp (Option.mem_toList.mp h)
      exact .item (List.mem_of_getElem? hk) .here
    | _ => cases h
  | every =>
    cases v with
    | list mark items => exact .item h .here
    | object mark fields =>
      obtain ⟨e, he, rfl⟩ := List.mem_map.mp h
      exact .field he .here
    | _ => cases h

theorem walk_cons (s : Segment) (ss : List Segment) (root : Value) :
    walk (s :: ss) root = (s.step root).flatMap (walk ss) := by
  suffices h : ∀ values : List Value,
      ss.foldl (fun values s => values.flatMap s.step) values = values.flatMap (walk ss) by
    rw [walk, List.foldl_cons, List.flatMap_singleton, h]
  induction ss with
  | nil => exact fun values => (List.flatMap_singleton' values).symm
  | cons s rest ih =>
    intro values
    have hwalk : walk (s :: rest) = fun v => (s.step v).flatMap (walk rest) := funext fun v => by
      rw [walk, List.foldl_cons, List.flatMap_singleton, ih]
    rw [List.foldl_cons, ih, hwalk, List.flatMap_assoc]

/-- **Segments lead to what occurs in a value.** -/
theorem occurs_of_walk {ss : List Segment} (h : v ∈ walk ss root) : v.Occurs root := by
  induction ss generalizing root with
  | nil => exact List.mem_singleton.mp h ▸ .here
  | cons s rest ih =>
    rw [walk_cons] at h
    obtain ⟨inner, hinner, hv⟩ := List.mem_flatMap.mp h
    exact (ih hv).trans (occurs_of_step hinner)

/-- What segments lead to is one of the values at their end, or holds only these. -/
theorem exists_walk_of_resolve {ss : List Segment} (h : resolve ss root = some v)
    (hu : u.Occurs v) (hmark : u.mark = some n) : ∃ w ∈ walk ss root, u.Occurs w := by
  rw [resolve] at h
  generalize walk ss root = values at h ⊢
  rcases values with _ | ⟨x, _ | ⟨y, rest⟩⟩
  · cases h
  · exact ⟨x, List.mem_cons_self .., Option.some.inj h ▸ hu⟩
  · obtain rfl := Option.some.inj h
    split at hu
    · rcases Value.occurs_list.mp hu with rfl | ⟨w, hw, hu⟩
      · cases hmark
      · exact ⟨w, hw, hu⟩
    · exact ⟨x, List.mem_cons_self .., hu⟩

end Segment

/-- **The containers in what a path leads to occur in the root.** -/
theorem Path.occurs_of_resolve {path : String} (h : resolve path root = .ok (some v))
    (hu : u.Occurs v) (hmark : u.mark = some n) : u.Occurs root := by
  rw [resolve] at h
  cases hliteral : literal? path root with
  | some w =>
    rw [hliteral] at h
    rw [literal?] at hliteral
    split at hliteral
    · cases hliteral
    · obtain rfl := Option.some.inj (Except.ok.inj h)
      exact hu.trans (Value.occurs_of_get? hliteral)
  | none =>
    rw [hliteral] at h
    dsimp only at h
    split at h
    · cases h
    · cases h
    · obtain ⟨w, hw, hu⟩ := Segment.exists_walk_of_resolve (Except.ok.inj h) hu hmark
      exact hu.trans (Segment.occurs_of_walk hw)

theorem Path.mem_marks_of_resolve {path : String} (h : resolve path root = .ok (some v))
    (hn : n ∈ v.marks) : n ∈ root.marks := by
  obtain ⟨u, hu, hmark⟩ := Value.mem_marks_iff_occurs.mp hn
  exact Value.mem_marks_iff_occurs.mpr ⟨u, occurs_of_resolve h hu hmark, hmark⟩

end Occurs

/-! ## The marks that writes reach -/

namespace Value

variable {n k : Nat} {new v : Value}

theorem mem_marks_fill {slot : Slot} (h : n ∈ (v.fill slot new).marks) :
    n ∈ v.marks ∨ n ∈ new.marks := by
  cases v with
  | object mark fields =>
    cases slot with
    | item i => exact .inl h
    | field name =>
      rcases mem_marks_object.mp h with h | ⟨e, he, h⟩
      · exact .inl (mem_marks_object.mpr (.inl h))
      · rcases Entries.mem_of_mem_put he with heq | he
        · exact .inr (heq ▸ h)
        · exact .inl (mem_marks_object.mpr (.inr ⟨e, he, h⟩))
  | list mark items =>
    cases slot with
    | field name => exact .inl h
    | item i =>
      rcases mem_marks_list.mp h with h | ⟨w, hw, h⟩
      · exact .inl (mem_marks_list.mpr (.inl h))
      · rcases List.mem_or_eq_of_mem_set hw with hw | heq
        · exact .inl (mem_marks_list.mpr (.inr ⟨w, hw, h⟩))
        · exact .inr (heq ▸ h)
  | _ => exact .inl h

theorem mem_marks_replaceMarked (h : n ∈ (replaceMarked k new v).marks) :
    n ∈ v.marks ∨ n ∈ new.marks := by
  induction v using inductionOn with
  | scalar v hv => cases v <;> first | exact .inl h | cases hv
  | list mark items ih =>
    rw [replaceMarked, replaceMarkedItems_eq_map] at h
    split at h
    · exact .inr h
    · rcases mem_marks_list.mp h with h | ⟨w, hw, h⟩
      · exact .inl (mem_marks_list.mpr (.inl h))
      · obtain ⟨v, hv, rfl⟩ := List.mem_map.mp hw
        exact (ih v hv h).imp_left fun h => mem_marks_list.mpr (.inr ⟨v, hv, h⟩)
  | object mark fields ih =>
    rw [replaceMarked, replaceMarkedFields_eq_map] at h
    split at h
    · exact .inr h
    · rcases mem_marks_object.mp h with h | ⟨w, hw, h⟩
      · exact .inl (mem_marks_object.mpr (.inl h))
      · obtain ⟨e, he, rfl⟩ := List.mem_map.mp hw
        exact (ih e he h).imp_left fun h => mem_marks_object.mpr (.inr ⟨e, he, h⟩)

/-- A container goes only where its mark is. -/
theorem replaceMarked_of_not_mem (h : k ∉ v.marks) : replaceMarked k new v = v := by
  induction v using inductionOn with
  | scalar v hv => cases v <;> first | rfl | cases hv
  | list mark items ih =>
    rw [mem_marks_list, not_or] at h
    rw [replaceMarked, replaceMarkedItems_eq_map, if_neg h.1,
      List.map_congr_left fun v hv => ih v hv fun hk => h.2 ⟨v, hv, hk⟩, List.map_id']
  | object mark fields ih =>
    rw [mem_marks_object, not_or] at h
    rw [replaceMarked, replaceMarkedFields_eq_map, if_neg h.1,
      List.map_congr_left fun e he => congrArg (Prod.mk e.1) (ih e he fun hk => h.2 ⟨e, he, hk⟩),
      List.map_id']

theorem mem_marks_putAt {ss : List Segment} (h : n ∈ (putAt new ss v).marks) :
    n ∈ v.marks ∨ n ∈ new.marks := by
  induction ss generalizing v with
  | nil => exact .inr h
  | cons s rest ih =>
    rw [putAt] at h
    split at h
    · next slot inner hslot hinner =>
      rcases mem_marks_fill h with h | h
      · exact .inl h
      · exact (ih h).imp_left (Segment.occurs_of_step (List.mem_of_head? hinner)).mem_marks
    · exact .inl h

end Value

namespace Write

variable {w : Write} {root new v : Value} {n : Nat}

/-- A write avoids what its container does not occur in. -/
def Avoids (w : Write) (v : Value) : Prop := ∀ n, w.before.mark = some n → n ∉ v.marks

theorem applyElsewhere_of_avoids (h : w.Avoids v) : w.applyElsewhere v = v := by
  rw [applyElsewhere]
  split
  · next n hmark => exact Value.replaceMarked_of_not_mem (h n hmark)
  · rfl

theorem applyElsewhere_of_not_mem {p : Nat} (hp : w.before.mark = some p) (h : p ∉ v.marks) :
    w.applyElsewhere v = v :=
  applyElsewhere_of_avoids fun n hn => by
    obtain rfl := Option.some.inj (hp.symm.trans hn)
    exact h

theorem mem_marks_applyTo (h : n ∈ (w.applyTo root).marks) : n ∈ root.marks ∨ n ∈ w.after.marks := by
  rw [applyTo] at h
  split at h
  · exact Value.mem_marks_replaceMarked h
  · exact Value.mem_marks_putAt h

theorem mem_marks_applyElsewhere (h : n ∈ (w.applyElsewhere v).marks) :
    n ∈ v.marks ∨ n ∈ w.after.marks := by
  rw [applyElsewhere] at h
  split at h
  · exact Value.mem_marks_replaceMarked h
  · exact .inl h

end Write

namespace Path

variable {root new : Value} {w : Write} {n : Nat}

theorem mem_marks_of_writeAt? {ss : List Segment} (h : writeAt? ss root new = some w) :
    (n ∈ w.before.marks → n ∈ root.marks) ∧
      (n ∈ w.after.marks → n ∈ root.marks ∨ n ∈ new.marks) := by
  rw [writeAt?] at h
  split at h
  · cases h
  · split at h
    · cases h
    · split at h
      · cases h
      · next container hcontainer =>
        obtain ⟨slot, -, rfl⟩ := Option.map_eq_some_iff.mp h
        have hroot : n ∈ container.marks → n ∈ root.marks :=
          (Segment.occurs_of_walk (List.mem_of_head? hcontainer)).mem_marks
        exact ⟨hroot, fun hn => (Value.mem_marks_fill hn).imp_left hroot⟩

/-- A write is into a container of the root, and fills it with what is in the root and the new
value. -/
theorem mem_marks_of_write? {path : String} (h : write? path root new = .ok (some w)) :
    (n ∈ w.before.marks → n ∈ root.marks) ∧
      (n ∈ w.after.marks → n ∈ root.marks ∨ n ∈ new.marks) := by
  rw [write?] at h
  split at h
  · obtain rfl := Option.some.inj (Except.ok.inj h)
    exact ⟨id, Value.mem_marks_fill⟩
  · split at h
    · cases h
    · cases h
    · exact mem_marks_of_writeAt? (Except.ok.inj h)

end Path

end Verdict
