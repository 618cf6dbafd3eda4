import Mathlib.Data.List.Nodup
import Mathlib.Data.List.Pairwise
import Verdict.Proofs.Value.Marks

/-!
# Proofs/Value/Occurs — the values inside of a value

    root ──▸ … ──▸ u        u occurs in root, at any depth

The marks of a value are those of the containers that occur in it (`Value.mem_marks_iff_occurs`), and
where no two containers are one, a mark says which container it is (`Value.Occurs.eq_of_mark`).
-/

namespace Verdict

namespace Value

/-- A value that is another one, or occurs in one of its items or fields. -/
inductive Occurs (u : Value) : Value → Prop
  | here : Occurs u u
  | item {mark : Mark} {items : List Value} {v : Value} :
      v ∈ items → Occurs u v → Occurs u (.list mark items)
  | field {mark : Mark} {fields : List (String × Value)} {e : String × Value} :
      e ∈ fields → Occurs u e.2 → Occurs u (.object mark fields)

variable {u u' v w : Value} {n : Nat}

theorem Occurs.trans (h : u.Occurs v) (h' : v.Occurs w) : u.Occurs w := by
  induction h' with
  | here => exact h
  | item hmem _ ih => exact .item hmem ih
  | field hmem _ ih => exact .field hmem ih

theorem Occurs.mem_marks (h : u.Occurs v) (hn : n ∈ u.marks) : n ∈ v.marks := by
  induction h with
  | here => exact hn
  | item hmem _ ih => exact mem_marks_list.mpr (.inr ⟨_, hmem, ih⟩)
  | field hmem _ ih => exact mem_marks_object.mpr (.inr ⟨_, hmem, ih⟩)

theorem mem_marks_of_mark (h : v.mark = some n) : n ∈ v.marks := by
  cases v with
  | list mark items => exact mem_marks_list.mpr (.inl h)
  | object mark fields => exact mem_marks_object.mpr (.inl h)
  | _ => cases h

theorem occurs_list {mark : Mark} {items : List Value} :
    u.Occurs (.list mark items) ↔ u = .list mark items ∨ ∃ v ∈ items, u.Occurs v := by
  constructor
  · intro h
    cases h with
    | here => exact .inl rfl
    | item hv h => exact .inr ⟨_, hv, h⟩
  · rintro (rfl | ⟨v, hv, h⟩)
    · exact .here
    · exact .item hv h

theorem occurs_object {mark : Mark} {fields : List (String × Value)} :
    u.Occurs (.object mark fields) ↔ u = .object mark fields ∨ ∃ e ∈ fields, u.Occurs e.2 := by
  constructor
  · intro h
    cases h with
    | here => exact .inl rfl
    | field he h => exact .inr ⟨_, he, h⟩
  · rintro (rfl | ⟨e, he, h⟩)
    · exact .here
    · exact .field he h

/-- **The marks of a value are those of the containers in it.** -/
theorem mem_marks_iff_occurs : n ∈ v.marks ↔ ∃ u : Value, u.Occurs v ∧ u.mark = some n := by
  constructor
  · intro h
    induction v using inductionOn with
    | scalar v hv => cases v <;> first | cases h | cases hv
    | list mark items ih =>
      rcases mem_marks_list.mp h with hmark | ⟨v, hv, hn⟩
      · exact ⟨_, .here, hmark⟩
      · obtain ⟨u, hu, hmark⟩ := ih v hv hn
        exact ⟨u, .item hv hu, hmark⟩
    | object mark fields ih =>
      rcases mem_marks_object.mp h with hmark | ⟨e, he, hn⟩
      · exact ⟨_, .here, hmark⟩
      · obtain ⟨u, hu, hmark⟩ := ih e he hn
        exact ⟨u, .field he hu, hmark⟩
  · rintro ⟨u, hu, hmark⟩
    exact hu.mem_marks (mem_marks_of_mark hmark)

/-- Parts with a mark in common are one, where no mark occurs twice. -/
theorem eq_of_mem_marks {α : Type} {f : α → List Nat} {parts : List α}
    (hnodup : (parts.flatMap f).Nodup) {x y : α} (hx : x ∈ parts) (hy : y ∈ parts)
    (hnx : n ∈ f x) (hny : n ∈ f y) : x = y := by
  have : Std.Symm (Function.onFun List.Disjoint f) := ⟨fun _ _ h _ hy hx => h hx hy⟩
  have hdisjoint := (List.nodup_flatMap.mp hnodup).2
  exact by_contra fun hne => hdisjoint.forall hx hy hne hnx hny

theorem nodup_marks_list {mark : Mark} {items : List Value} (h : (list mark items).marks.Nodup) :
    (items.flatMap marks).Nodup ∧ ∀ v ∈ items, ∀ n ∈ v.marks, mark ≠ some n := by
  rw [marks, marksOfItems_eq_flatMap] at h
  obtain ⟨-, hitems, hdisjoint⟩ := List.nodup_append.mp h
  refine ⟨hitems, fun v hv n hn hmark => ?_⟩
  exact hdisjoint n (Option.mem_toList.mpr hmark) n (List.mem_flatMap.mpr ⟨v, hv, hn⟩) rfl

theorem nodup_marks_object {mark : Mark} {fields : List (String × Value)}
    (h : (object mark fields).marks.Nodup) :
    (fields.flatMap fun e => e.2.marks).Nodup ∧ ∀ e ∈ fields, ∀ n ∈ e.2.marks, mark ≠ some n := by
  rw [marks, marksOfFields_eq_flatMap] at h
  obtain ⟨-, hfields, hdisjoint⟩ := List.nodup_append.mp h
  refine ⟨hfields, fun e he n hn hmark => ?_⟩
  exact hdisjoint n (Option.mem_toList.mpr hmark) n (List.mem_flatMap.mpr ⟨e, he, hn⟩) rfl

/-- **Where no mark occurs twice, a mark says which container it is of.** -/
theorem Occurs.eq_of_mark (hnodup : v.marks.Nodup) (h : u.Occurs v) (h' : u'.Occurs v)
    (hu : u.mark = some n) (hu' : u'.mark = some n) : u = u' := by
  have hn : n ∈ u.marks := mem_marks_of_mark hu
  have hn' : n ∈ u'.marks := mem_marks_of_mark hu'
  induction v using inductionOn with
  | scalar v hv =>
    have hmark := h.mem_marks hn
    cases v <;> first | cases hmark | cases hv
  | list mark items ih =>
    obtain ⟨hitems, hinside⟩ := nodup_marks_list hnodup
    rcases occurs_list.mp h with rfl | ⟨w, hw, h⟩ <;>
      rcases occurs_list.mp h' with rfl | ⟨w', hw', h'⟩
    · rfl
    · exact absurd hu (hinside w' hw' n (h'.mem_marks hn'))
    · exact absurd hu' (hinside w hw n (h.mem_marks hn))
    · obtain rfl := eq_of_mem_marks hitems hw hw' (h.mem_marks hn) (h'.mem_marks hn')
      exact ih w hw ((List.nodup_flatMap.mp hitems).1 w hw) h h'
  | object mark fields ih =>
    obtain ⟨hfields, hinside⟩ := nodup_marks_object hnodup
    rcases occurs_object.mp h with rfl | ⟨e, he, h⟩ <;>
      rcases occurs_object.mp h' with rfl | ⟨e', he', h'⟩
    · rfl
    · exact absurd hu (hinside e' he' n (h'.mem_marks hn'))
    · exact absurd hu' (hinside e he n (h.mem_marks hn))
    · obtain rfl := eq_of_mem_marks hfields he he' (h.mem_marks hn) (h'.mem_marks hn')
      exact ih e he ((List.nodup_flatMap.mp hfields).1 e he) h h'

end Value

end Verdict
