import Verdict.Proofs.Value.Marks

/-!
# Proofs/Value/Seen — values with some of their marks

    v ──seen g──▸ v.seen g          mark n ↦ g n, which may be none

A value is **seen** through a function that keeps some marks, changes others and drops the rest.
Renaming a value and dropping its marks are cases of this: all that change marks and nothing else agree
where they agree on marks (`Value.Remarks.congr`).
-/

namespace Verdict

namespace Value

variable {f f' : Value → Value} {k k' : Mark → Mark}

/-- **Functions that change marks alike are alike.** -/
theorem Remarks.congr (h : Remarks f k) (h' : Remarks f' k') {v : Value}
    (hmarks : ∀ n ∈ v.marks, k (some n) = k' (some n)) : f v = f' v := by
  have hmark : ∀ mark : Mark, (∀ n, mark = some n → k (some n) = k' (some n)) →
      k mark = k' mark := fun mark hsome => by
    cases mark with
    | none => rw [h.unmarked, h'.unmarked]
    | some n => exact hsome n rfl
  induction v using inductionOn with
  | scalar v hv => rw [h.scalar hv, h'.scalar hv]
  | list mark items ih =>
    rw [h.list, h'.list, hmark mark fun n hn => hmarks n (mem_marks_list.mpr (.inl hn))]
    exact congrArg (Value.list _) (List.map_congr_left fun v hv =>
      ih v hv fun n hn => hmarks n (mem_marks_list.mpr (.inr ⟨v, hv, hn⟩)))
  | object mark fields ih =>
    rw [h.object, h'.object, hmark mark fun n hn => hmarks n (mem_marks_object.mpr (.inl hn))]
    exact congrArg (Value.object _) (List.map_congr_left fun e he => congrArg (Prod.mk e.1)
      (ih e he fun n hn => hmarks n (mem_marks_object.mpr (.inr ⟨e, he, hn⟩))))

theorem Remarks.comp (h : Remarks f k) (h' : Remarks f' k') :
    Remarks (fun v => f' (f v)) fun mark => k' (k mark) where
  unmarked := by rw [h.unmarked, h'.unmarked]
  scalar := fun {v} hv => by rw [h.scalar hv, h'.scalar hv]
  list := fun mark items => by rw [h.list, h'.list, List.map_map]; rfl
  object := fun mark fields => by rw [h.object, h'.object, List.map_map]; rfl

mutual

/-- A value with its marks seen through a function. -/
def seen (g : Nat → Mark) : Value → Value
  | .list mark items => .list (mark.bind g) (seenItems g items)
  | .object mark fields => .object (mark.bind g) (seenFields g fields)
  | v => v

/-- Items with their marks seen through a function. -/
def seenItems (g : Nat → Mark) : List Value → List Value
  | [] => []
  | v :: rest => seen g v :: seenItems g rest

/-- Fields with their marks seen through a function. -/
def seenFields (g : Nat → Mark) : List (String × Value) → List (String × Value)
  | [] => []
  | (k, v) :: rest => (k, seen g v) :: seenFields g rest

end

theorem seenItems_eq_map (g : Nat → Mark) (items : List Value) :
    seenItems g items = items.map (seen g) := by
  induction items with
  | nil => rfl
  | cons v rest ih => rw [seenItems, ih, List.map_cons]

theorem seenFields_eq_map (g : Nat → Mark) (fields : List (String × Value)) :
    seenFields g fields = fields.map fun e => (e.1, e.2.seen g) := by
  induction fields with
  | nil => rfl
  | cons e rest ih => rw [seenFields, ih, List.map_cons]

theorem remarks_seen (g : Nat → Mark) : Remarks (seen g) (·.bind g) where
  unmarked := rfl
  scalar := fun {v} hv => by cases v <;> first | rfl | cases hv
  list := fun mark items => by rw [seen, seenItems_eq_map]
  object := fun mark fields => by rw [seen, seenFields_eq_map]

variable {g g' : Nat → Mark} {v : Value}

theorem seen_congr (h : ∀ n ∈ v.marks, g n = g' n) : v.seen g = v.seen g' :=
  (remarks_seen g).congr (remarks_seen g') h

theorem seen_seen (g g' : Nat → Mark) (v : Value) :
    (v.seen g).seen g' = v.seen fun n => (g n).bind g' :=
  ((remarks_seen g).comp (remarks_seen g')).congr (remarks_seen _) fun _ _ => rfl

theorem seen_rename (ρ : Nat → Nat) (g : Nat → Mark) (v : Value) :
    (v.rename ρ).seen g = v.seen fun n => g (ρ n) :=
  ((remarks_rename ρ).comp (remarks_seen g)).congr (remarks_seen _) fun _ _ => rfl

@[simp] theorem unmarked_seen (g : Nat → Mark) (v : Value) : (v.seen g).unmarked = v.unmarked :=
  (remarks_seen g).unmarked_eq v

end Value

end Verdict
