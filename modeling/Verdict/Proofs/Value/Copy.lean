import Verdict.Proofs.Entries
import Verdict.Proofs.Value.Marks

/-!
# Proofs/Value/Copy — copies of values without shared containers

    containers of v:    c₀     c₁     c₂   …     no two of them one
    marks of its copy:  next, next+1, next+2, …

A value in which no container occurs twice has a copy in which none does either: copying numbers its
containers one after another (`Value.nodup_marks_copied`).
-/

namespace Verdict

/-- A marking that has come across containers of old marks, each for the first time, and has numbered
them with new ones. -/
structure Marking.Numbers (m : Marking) (old new : List Nat) (m' : Marking) : Prop where
  consecutive : ∃ k, new = List.range' m.next k ∧ m'.next = m.next + k
  others {n : Nat} : n ∉ old → Entries.find? n m'.renamed = Entries.find? n m.renamed

/-- A marking that has not come across containers yet. -/
def Marking.IsNewTo (m : Marking) (old : List Nat) : Prop :=
  old.Nodup ∧ ∀ n ∈ old, Entries.find? n m.renamed = none

namespace Marking

variable {m m' m'' : Marking} {old old' new new' : List Nat}

theorem Numbers.nil (m : Marking) : m.Numbers [] [] m := ⟨⟨0, rfl, rfl⟩, fun _ => rfl⟩

theorem Numbers.append (h : m.Numbers old new m') (h' : m'.Numbers old' new' m'') :
    m.Numbers (old ++ old') (new ++ new') m'' := by
  obtain ⟨k, rfl, hnext⟩ := h.consecutive
  obtain ⟨k', rfl, hnext'⟩ := h'.consecutive
  refine ⟨⟨k + k', ?_, by omega⟩, fun hn => ?_⟩
  · rw [hnext]
    exact List.range'_append_1
  · rw [List.mem_append, not_or] at hn
    rw [h'.others hn.2, h.others hn.1]

theorem IsNewTo.of_append (h : m.IsNewTo (old ++ old')) :
    m.IsNewTo old ∧ ∀ {new m'}, m.Numbers old new m' → m'.IsNewTo old' := by
  obtain ⟨hnodup, hnew⟩ := h
  obtain ⟨hold, hold', hdisjoint⟩ := List.nodup_append.mp hnodup
  refine ⟨⟨hold, fun n hn => hnew n (List.mem_append_left _ hn)⟩, fun h => ⟨hold', fun n hn => ?_⟩⟩
  rw [h.others fun hn' => hdisjoint n hn' n hn rfl]
  exact hnew n (List.mem_append_right _ hn)

/-- A container that is new gets a mark of its own. -/
theorem numbers_rename (mark : Mark) (h : m.IsNewTo mark.toList) :
    m.Numbers mark.toList [(m.rename mark).1] (m.rename mark).2 := by
  cases mark with
  | none => exact ⟨⟨1, rfl, rfl⟩, fun _ => rfl⟩
  | some old =>
    have hnone := h.2 old (List.mem_singleton_self old)
    rcases m.rename_some old with ⟨n, hfind, -⟩ | ⟨-, heq⟩
    · cases hnone.symm.trans hfind
    · rw [heq]
      refine ⟨⟨1, rfl, rfl⟩, fun {n} hn => Entries.find?_put_other (fun heq => hn ?_) ..⟩
      rw [heq]
      exact List.mem_singleton_self old

/-- Containers that are new, each of them once, are numbered one after another. -/
theorem numbers_giveEach : ∀ {marks : List Mark} {m : Marking}, m.IsNewTo (marks.filterMap id) →
    m.Numbers (marks.filterMap id) (Value.giveEach rename m marks).1 (Value.giveEach rename m marks).2
  | [], m, _ => .nil m
  | mark :: rest, m, h => by
    have hcons : (mark :: rest).filterMap id = mark.toList ++ rest.filterMap id := by
      cases mark <;> rfl
    rw [hcons] at h ⊢
    obtain ⟨hmark, hrest⟩ := h.of_append
    have hnumbers := numbers_rename mark hmark
    exact hnumbers.append (numbers_giveEach (hrest hnumbers))

end Marking

namespace Value

/-- **A value in which no container occurs twice has such a copy.** -/
theorem nodup_marks_copied {v : Value} (h : v.marks.Nodup) (next : Nat) :
    (v.copied next).1.marks.Nodup := by
  have hnew : (Marking.startingAt next).IsNewTo (v.containers.filterMap id) :=
    ⟨marks_eq_containers v ▸ h, fun _ _ => rfl⟩
  obtain ⟨k, hmarks, -⟩ := (Marking.numbers_giveEach hnew).consecutive
  rw [← marks_remark] at hmarks
  have heq : (v.copied next).1.marks = List.range' next k := hmarks
  rw [heq]
  exact List.nodup_range'

@[simp] theorem unmarked_copied (v : Value) (next : Nat) : (v.copied next).1.unmarked = v.unmarked :=
  unmarked_remark v _

/-- A value that holds the same, and in which no container occurs twice. -/
structure IsCopyOf (root v : Value) : Prop where
  same : root.unmarked = v.unmarked
  once : root.marks.Nodup

theorem isCopyOf_copied {v : Value} (h : v.marks.Nodup) (next : Nat) : (v.copied next).1.IsCopyOf v :=
  ⟨unmarked_copied v next, nodup_marks_copied h next⟩

end Value

end Verdict
