import Verdict.Introspection.Range
import Verdict.Mutation.Mutator
import Verdict.Value.Marking

/-!
# Proofs/Value/Marks — renaming marks

    v ──remark next──▸ v'
    │                  │ rename ρ          ρ (next + k) = next' + k
    ▾                  ▾
    v ──remark next'─▸ v'.rename ρ

Marks say which containers are one, and nothing depends on what they are: copies from different marks
on are renamings of each other (`copied_eq_rename`), and so are values whose new containers get marks
(`settled_rename`).  Neither marking nor renaming changes what a value holds.
-/

namespace Verdict

namespace Value

/-- Induction on a value, by its items or fields. -/
@[elab_as_elim]
theorem inductionOn {motive : Value → Prop} (v : Value)
    (scalar : ∀ v, v.isScalar = true → motive v)
    (list : ∀ mark items, (∀ v ∈ items, motive v) → motive (.list mark items))
    (object : ∀ mark fields, (∀ e ∈ fields, motive e.2) → motive (.object mark fields)) :
    motive v := by
  refine @Value.rec motive (fun items => ∀ v ∈ items, motive v)
    (fun fields => ∀ e ∈ fields, motive e.2) (fun e => motive e.2) (scalar _ rfl)
    (fun _ => scalar _ rfl) (fun _ => scalar _ rfl) (fun _ => scalar _ rfl)
    (fun _ => scalar _ rfl) (fun _ => scalar _ rfl) (fun _ => scalar _ rfl)
    list object ?_ ?_ ?_ ?_ ?_ v
  · exact List.forall_mem_nil _
  · exact fun v items hv hitems => List.forall_mem_cons.mpr ⟨hv, hitems⟩
  · exact List.forall_mem_nil _
  · exact fun e fields he hfields => List.forall_mem_cons.mpr ⟨he, hfields⟩
  · exact fun _ _ hv => hv

/-! ## The marks of a value, and renaming them -/

mutual

/-- The marks of the containers of a value. -/
def marks : Value → List Nat
  | .list mark items => mark.toList ++ marksOfItems items
  | .object mark fields => mark.toList ++ marksOfFields fields
  | _ => []

/-- The marks of items. -/
def marksOfItems : List Value → List Nat
  | [] => []
  | v :: rest => marks v ++ marksOfItems rest

/-- The marks of fields. -/
def marksOfFields : List (String × Value) → List Nat
  | [] => []
  | (_, v) :: rest => marks v ++ marksOfFields rest

end

mutual

/-- The marks of the containers of a value, or that they have none, from the outside in. -/
def containers : Value → List Mark
  | .list mark items => mark :: containersOfItems items
  | .object mark fields => mark :: containersOfFields fields
  | _ => []

/-- The marks of the containers of items, or that they have none. -/
def containersOfItems : List Value → List Mark
  | [] => []
  | v :: rest => containers v ++ containersOfItems rest

/-- The marks of the containers of fields, or that they have none. -/
def containersOfFields : List (String × Value) → List Mark
  | [] => []
  | (_, v) :: rest => containers v ++ containersOfFields rest

end

mutual

/-- A value with other marks. -/
def rename (ρ : Nat → Nat) : Value → Value
  | .list mark items => .list (mark.map ρ) (renameItems ρ items)
  | .object mark fields => .object (mark.map ρ) (renameFields ρ fields)
  | v => v

/-- Items with other marks. -/
def renameItems (ρ : Nat → Nat) : List Value → List Value
  | [] => []
  | v :: rest => rename ρ v :: renameItems ρ rest

/-- Fields with other marks. -/
def renameFields (ρ : Nat → Nat) : List (String × Value) → List (String × Value)
  | [] => []
  | (k, v) :: rest => (k, rename ρ v) :: renameFields ρ rest

end

theorem marksOfItems_eq_flatMap (items : List Value) : marksOfItems items = items.flatMap marks := by
  induction items with
  | nil => rfl
  | cons v rest ih => rw [marksOfItems, ih, List.flatMap_cons]

theorem marksOfFields_eq_flatMap (fields : List (String × Value)) :
    marksOfFields fields = fields.flatMap fun e => e.2.marks := by
  induction fields with
  | nil => rfl
  | cons e rest ih => rw [marksOfFields, ih, List.flatMap_cons]

theorem containersOfItems_eq_flatMap (items : List Value) :
    containersOfItems items = items.flatMap containers := by
  induction items with
  | nil => rfl
  | cons v rest ih => rw [containersOfItems, ih, List.flatMap_cons]

theorem containersOfFields_eq_flatMap (fields : List (String × Value)) :
    containersOfFields fields = fields.flatMap fun e => e.2.containers := by
  induction fields with
  | nil => rfl
  | cons e rest ih => rw [containersOfFields, ih, List.flatMap_cons]

theorem marks_eq_containers (v : Value) : v.marks = v.containers.filterMap id := by
  induction v using inductionOn with
  | scalar v hv => cases v <;> first | rfl | cases hv
  | list mark items ih =>
    rw [marks, containers, marksOfItems_eq_flatMap, containersOfItems_eq_flatMap,
      List.filterMap_cons, List.filterMap_flatMap, List.flatMap_def, List.flatMap_def,
      List.map_congr_left ih]
    cases mark <;> rfl
  | object mark fields ih =>
    rw [marks, containers, marksOfFields_eq_flatMap, containersOfFields_eq_flatMap,
      List.filterMap_cons, List.filterMap_flatMap, List.flatMap_def, List.flatMap_def,
      List.map_congr_left ih]
    cases mark <;> rfl

theorem renameItems_eq_map (ρ : Nat → Nat) (items : List Value) :
    renameItems ρ items = items.map (rename ρ) := by
  induction items with
  | nil => rfl
  | cons v rest ih => rw [renameItems, ih, List.map_cons]

theorem renameFields_eq_map (ρ : Nat → Nat) (fields : List (String × Value)) :
    renameFields ρ fields = fields.map fun e => (e.1, e.2.rename ρ) := by
  induction fields with
  | nil => rfl
  | cons e rest ih => rw [renameFields, ih, List.map_cons]

theorem unmarkedItems_eq_map (items : List Value) : unmarkedItems items = items.map unmarked := by
  induction items with
  | nil => rfl
  | cons v rest ih => rw [unmarkedItems, ih, List.map_cons]

theorem unmarkedFields_eq_map (fields : List (String × Value)) :
    unmarkedFields fields = fields.map fun e => (e.1, e.2.unmarked) := by
  induction fields with
  | nil => rfl
  | cons e rest ih => rw [unmarkedFields, ih, List.map_cons]

/-- A function that changes the marks of values, and nothing else. -/
structure Remarks (f : Value → Value) (g : Mark → Mark) : Prop where
  unmarked : g none = none
  scalar {v : Value} : v.isScalar = true → f v = v
  list (mark : Mark) (items : List Value) : f (.list mark items) = .list (g mark) (items.map f)
  object (mark : Mark) (fields : List (String × Value)) :
    f (.object mark fields) = .object (g mark) (fields.map fun e => (e.1, f e.2))

theorem remarks_rename (ρ : Nat → Nat) : Remarks (rename ρ) (Option.map ρ) where
  unmarked := rfl
  scalar := fun {v} hv => by cases v <;> first | rfl | cases hv
  list := fun mark items => by rw [rename, renameItems_eq_map]
  object := fun mark fields => by rw [rename, renameFields_eq_map]

theorem remarks_unmarked : Remarks unmarked fun _ => none where
  unmarked := rfl
  scalar := fun {v} hv => by cases v <;> first | rfl | cases hv
  list := fun mark items => by rw [Value.unmarked, unmarkedItems_eq_map]
  object := fun mark fields => by rw [Value.unmarked, unmarkedFields_eq_map]

theorem mem_marks_list {n : Nat} {mark : Mark} {items : List Value} :
    n ∈ (list mark items).marks ↔ mark = some n ∨ ∃ v ∈ items, n ∈ v.marks := by
  rw [marks, marksOfItems_eq_flatMap, List.mem_append, List.mem_flatMap, Option.mem_toList]

theorem mem_marks_object {n : Nat} {mark : Mark} {fields : List (String × Value)} :
    n ∈ (object mark fields).marks ↔ mark = some n ∨ ∃ e ∈ fields, n ∈ e.2.marks := by
  rw [marks, marksOfFields_eq_flatMap, List.mem_append, List.mem_flatMap, Option.mem_toList]

variable {ρ σ : Nat → Nat}

theorem rename_congr {v : Value} (h : ∀ n ∈ v.marks, ρ n = σ n) : v.rename ρ = v.rename σ := by
  induction v using inductionOn with
  | scalar v hv => cases v <;> first | rfl | cases hv
  | list mark items ih =>
    rw [rename, rename, renameItems_eq_map, renameItems_eq_map]
    refine congr (congrArg list ?_) (List.map_congr_left fun v hv => ih v hv fun n hn =>
      h n (mem_marks_list.mpr (.inr ⟨v, hv, hn⟩)))
    exact Option.map_congr fun n hn => h n (mem_marks_list.mpr (.inl hn))
  | object mark fields ih =>
    rw [rename, rename, renameFields_eq_map, renameFields_eq_map]
    refine congr (congrArg object ?_) (List.map_congr_left fun e he => congrArg (Prod.mk e.1)
      (ih e he fun n hn => h n (mem_marks_object.mpr (.inr ⟨e, he, hn⟩))))
    exact Option.map_congr fun n hn => h n (mem_marks_object.mpr (.inl hn))

theorem rename_id (v : Value) : v.rename id = v := by
  induction v using inductionOn with
  | scalar v hv => cases v <;> first | rfl | cases hv
  | list mark items ih =>
    rw [rename, renameItems_eq_map, Option.map_id, List.map_congr_left ih, List.map_id']
    rfl
  | object mark fields ih =>
    rw [rename, renameFields_eq_map, Option.map_id,
      List.map_congr_left fun e he => congrArg (Prod.mk e.1) (ih e he), List.map_id']
    rfl

theorem marks_rename (v : Value) : (v.rename ρ).marks = v.marks.map ρ := by
  induction v using inductionOn with
  | scalar v hv => cases v <;> first | rfl | cases hv
  | list mark items ih =>
    rw [rename, marks, marks, marksOfItems_eq_flatMap, marksOfItems_eq_flatMap, renameItems_eq_map,
      List.map_append, List.map_flatMap, List.flatMap_map, List.flatMap_def, List.flatMap_def,
      List.map_congr_left ih]
    cases mark <;> rfl
  | object mark fields ih =>
    rw [rename, marks, marks, marksOfFields_eq_flatMap, marksOfFields_eq_flatMap,
      renameFields_eq_map, List.map_append, List.map_flatMap, List.flatMap_map, List.flatMap_def,
      List.flatMap_def, List.map_congr_left ih]
    cases mark <;> rfl

/-! ## What a value holds -/

/-- Changing marks does not change what a value holds. -/
theorem Remarks.unmarked_eq {f : Value → Value} {g : Mark → Mark} (h : Remarks f g) (v : Value) :
    (f v).unmarked = v.unmarked := by
  induction v using inductionOn with
  | scalar v hv => rw [h.scalar hv]
  | list mark items ih =>
    rw [h.list, Value.unmarked, Value.unmarked, unmarkedItems_eq_map, unmarkedItems_eq_map,
      List.map_map]
    exact congrArg _ (List.map_congr_left ih)
  | object mark fields ih =>
    rw [h.object, Value.unmarked, Value.unmarked, unmarkedFields_eq_map, unmarkedFields_eq_map,
      List.map_map]
    exact congrArg _ (List.map_congr_left fun e he => congrArg (Prod.mk e.1) (ih e he))

@[simp] theorem unmarked_rename (v : Value) : (v.rename ρ).unmarked = v.unmarked :=
  (remarks_rename ρ).unmarked_eq v

theorem rename_unmarked (v : Value) : v.unmarked.rename ρ = v.unmarked := by
  induction v using inductionOn with
  | scalar v hv => cases v <;> first | rfl | cases hv
  | list mark items ih =>
    rw [unmarked, rename, unmarkedItems_eq_map, renameItems_eq_map, List.map_map]
    exact congrArg _ (List.map_congr_left ih)
  | object mark fields ih =>
    rw [unmarked, rename, unmarkedFields_eq_map, renameFields_eq_map, List.map_map]
    exact congrArg _ (List.map_congr_left fun e he => congrArg (Prod.mk e.1) (ih e he))

theorem display_unmarked (v : Value) : v.unmarked.display = v.display := by
  induction v using inductionOn with
  | scalar v hv => cases v <;> first | rfl | cases hv
  | list mark items ih =>
    have hitems : displayItems (items.map unmarked) = displayItems items := by
      clear mark
      induction items with
      | nil => rfl
      | cons v rest ihrest =>
        obtain ⟨hv, hrest⟩ := List.forall_mem_cons.mp ih
        rw [List.map_cons, displayItems, displayItems, hv, ihrest hrest]
    rw [unmarked, unmarkedItems_eq_map, display, display, hitems]
  | object mark fields ih =>
    have hfields : displayFields (fields.map fun e => (e.1, e.2.unmarked)) =
        displayFields fields := by
      clear mark
      induction fields with
      | nil => rfl
      | cons e rest ihrest =>
        obtain ⟨he, hrest⟩ := List.forall_mem_cons.mp ih
        rw [List.map_cons, displayFields, displayFields, he, ihrest hrest]
    rw [unmarked, unmarkedFields_eq_map, display, display, hfields]

theorem plain_unmarked (v : Value) : v.unmarked.plain = v.plain := by
  cases v with
  | list mark items => exact display_unmarked (.list mark items)
  | object mark fields => exact display_unmarked (.object mark fields)
  | _ => rfl

theorem plain_congr {v w : Value} (h : v.unmarked = w.unmarked) : v.plain = w.plain := by
  rw [← plain_unmarked, h, plain_unmarked]

/-! ## Marking -/

section Remark

variable {rule : Marking → Mark → Nat × Marking}

theorem remark_list (m : Marking) (mark : Mark) (items : List Value) :
    remark rule m (.list mark items) =
      (.list (some (rule m mark).1) (remarkItems rule (rule m mark).2 items).1,
        (remarkItems rule (rule m mark).2 items).2) := by
  rw [remark]

theorem remark_object (m : Marking) (mark : Mark) (fields : List (String × Value)) :
    remark rule m (.object mark fields) =
      (.object (some (rule m mark).1) (remarkFields rule (rule m mark).2 fields).1,
        (remarkFields rule (rule m mark).2 fields).2) := by
  rw [remark]

theorem remarkItems_cons (m : Marking) (v : Value) (rest : List Value) :
    remarkItems rule m (v :: rest) =
      ((remark rule m v).1 :: (remarkItems rule (remark rule m v).2 rest).1,
        (remarkItems rule (remark rule m v).2 rest).2) := by
  rw [remarkItems]

theorem remarkFields_cons (m : Marking) (e : String × Value) (rest : List (String × Value)) :
    remarkFields rule m (e :: rest) =
      ((e.1, (remark rule m e.2).1) :: (remarkFields rule (remark rule m e.2).2 rest).1,
        (remarkFields rule (remark rule m e.2).2 rest).2) := by
  rw [remarkFields]

@[simp] theorem unmarked_remark (v : Value) :
    ∀ m : Marking, (remark rule m v).1.unmarked = v.unmarked := by
  induction v using inductionOn with
  | scalar v hv =>
    intro m
    cases v <;> first | rfl | cases hv
  | list mark items ih =>
    have hitems : ∀ m, unmarkedItems (remarkItems rule m items).1 = unmarkedItems items := by
      clear mark
      induction items with
      | nil => exact fun _ => rfl
      | cons v rest ihrest =>
        obtain ⟨hv, hrest⟩ := List.forall_mem_cons.mp ih
        intro m
        rw [remarkItems_cons, unmarkedItems, unmarkedItems, hv, ihrest hrest]
    intro m
    rw [remark_list, unmarked, unmarked, hitems]
  | object mark fields ih =>
    have hfields : ∀ m, unmarkedFields (remarkFields rule m fields).1 = unmarkedFields fields := by
      clear mark
      induction fields with
      | nil => exact fun _ => rfl
      | cons e rest ihrest =>
        obtain ⟨he, hrest⟩ := List.forall_mem_cons.mp ih
        intro m
        rw [remarkFields_cons, unmarkedFields, unmarkedFields, he, ihrest hrest]
    intro m
    rw [remark_object, unmarked, unmarked, hfields]

variable {R : Marking → Marking → Prop}

/-- A rule runs through items from left to right, so what it renames one by one it renames in a row. -/
theorem remarkItems_rename {items : List Value}
    (hitems : ∀ v ∈ items, ∀ {m m'}, R m m' →
      (remark rule m' (v.rename σ)).1 = (remark rule m v).1.rename ρ ∧
      R (remark rule m v).2 (remark rule m' (v.rename σ)).2) : ∀ {m m'}, R m m' →
    (remarkItems rule m' (renameItems σ items)).1 = renameItems ρ (remarkItems rule m items).1 ∧
      R (remarkItems rule m items).2 (remarkItems rule m' (renameItems σ items)).2 := by
  induction items with
  | nil => exact fun h => ⟨rfl, h⟩
  | cons v rest ih =>
    obtain ⟨hv, hrest⟩ := List.forall_mem_cons.mp hitems
    intro m m' h
    obtain ⟨hfirst, h⟩ := hv h
    obtain ⟨hlater, h⟩ := ih hrest h
    rw [renameItems, remarkItems_cons, remarkItems_cons, renameItems, hfirst, hlater]
    exact ⟨rfl, h⟩

/-- So it is with fields. -/
theorem remarkFields_rename {fields : List (String × Value)}
    (hfields : ∀ e ∈ fields, ∀ {m m'}, R m m' →
      (remark rule m' (e.2.rename σ)).1 = (remark rule m e.2).1.rename ρ ∧
      R (remark rule m e.2).2 (remark rule m' (e.2.rename σ)).2) : ∀ {m m'}, R m m' →
    (remarkFields rule m' (renameFields σ fields)).1 =
        renameFields ρ (remarkFields rule m fields).1 ∧
      R (remarkFields rule m fields).2 (remarkFields rule m' (renameFields σ fields)).2 := by
  induction fields with
  | nil => exact fun h => ⟨rfl, h⟩
  | cons e rest ih =>
    obtain ⟨he, hrest⟩ := List.forall_mem_cons.mp hfields
    intro m m' h
    obtain ⟨hfirst, h⟩ := he h
    obtain ⟨hlater, h⟩ := ih hrest h
    rw [renameFields, remarkFields_cons, remarkFields_cons, renameFields, hfirst, hlater]
    exact ⟨rfl, h⟩

/-- A marking rule that gives renamed marks to renamed containers renames values. -/
theorem remark_rename
    (hrule : ∀ {m m'} mark, R m m' → (rule m' (mark.map σ)).1 = ρ (rule m mark).1 ∧
      R (rule m mark).2 (rule m' (mark.map σ)).2) (v : Value) :
    ∀ {m m'}, R m m' → (remark rule m' (v.rename σ)).1 = (remark rule m v).1.rename ρ ∧
      R (remark rule m v).2 (remark rule m' (v.rename σ)).2 := by
  induction v using inductionOn with
  | scalar v hv =>
    intro m m' h
    cases v <;> first | exact ⟨rfl, h⟩ | cases hv
  | list mark items ih =>
    intro m m' h
    obtain ⟨hmark, h⟩ := hrule mark h
    obtain ⟨hrest, h⟩ := remarkItems_rename ih h
    rw [rename, remark_list, remark_list, rename, hmark, hrest]
    exact ⟨rfl, h⟩
  | object mark fields ih =>
    intro m m' h
    obtain ⟨hmark, h⟩ := hrule mark h
    obtain ⟨hrest, h⟩ := remarkFields_rename ih h
    rw [rename, remark_object, remark_object, rename, hmark, hrest]
    exact ⟨rfl, h⟩

/-- The marks that a marking rule gives to containers, one after another. -/
def giveEach (rule : Marking → Mark → Nat × Marking) (m : Marking) : List Mark → List Nat × Marking
  | [] => ([], m)
  | mark :: rest =>
    ((rule m mark).1 :: (giveEach rule (rule m mark).2 rest).1,
      (giveEach rule (rule m mark).2 rest).2)

theorem giveEach_append (marks marks' : List Mark) : ∀ m : Marking,
    giveEach rule m (marks ++ marks') =
      ((giveEach rule m marks).1 ++ (giveEach rule (giveEach rule m marks).2 marks').1,
        (giveEach rule (giveEach rule m marks).2 marks').2) := by
  induction marks with
  | nil => exact fun _ => rfl
  | cons mark rest ih =>
    intro m
    rw [List.cons_append, giveEach, ih]
    rfl

theorem marks_remarkItems {items : List Value}
    (hitems : ∀ v ∈ items, ∀ m : Marking,
      ((remark rule m v).1.marks, (remark rule m v).2) = giveEach rule m v.containers) :
    ∀ m, (marksOfItems (remarkItems rule m items).1, (remarkItems rule m items).2) =
      giveEach rule m (containersOfItems items) := by
  induction items with
  | nil => exact fun _ => rfl
  | cons v rest ih =>
    obtain ⟨hv, hrest⟩ := List.forall_mem_cons.mp hitems
    intro m
    rw [remarkItems_cons, containersOfItems, giveEach_append, ← hv, ← ih hrest]
    rfl

theorem marks_remarkFields {fields : List (String × Value)}
    (hfields : ∀ e ∈ fields, ∀ m : Marking,
      ((remark rule m e.2).1.marks, (remark rule m e.2).2) = giveEach rule m e.2.containers) :
    ∀ m, (marksOfFields (remarkFields rule m fields).1, (remarkFields rule m fields).2) =
      giveEach rule m (containersOfFields fields) := by
  induction fields with
  | nil => exact fun _ => rfl
  | cons e rest ih =>
    obtain ⟨he, hrest⟩ := List.forall_mem_cons.mp hfields
    intro m
    rw [remarkFields_cons, containersOfFields, giveEach_append, ← he, ← ih hrest]
    rfl

/-- **Marking a value gives its containers their marks**, from the outside in. -/
theorem marks_remark (v : Value) : ∀ m : Marking,
    ((remark rule m v).1.marks, (remark rule m v).2) = giveEach rule m v.containers := by
  induction v using inductionOn with
  | scalar v hv =>
    intro m
    cases v <;> first | rfl | cases hv
  | list mark items ih =>
    intro m
    rw [remark_list, containers, giveEach, ← marks_remarkItems ih]
    rfl
  | object mark fields ih =>
    intro m
    rw [remark_object, containers, giveEach, ← marks_remarkFields ih]
    rfl

/-- What holds of each mark that a marking rule gives, and goes on to hold, holds of all of them. -/
theorem forall_mem_giveEach {I : Marking → Prop} {Q : Marking → Nat → Prop} {S : Nat → Prop}
    (hrule : ∀ {m mark}, I m → (∀ n, mark = some n → S n) →
      I (rule m mark).2 ∧ Q (rule m mark).2 (rule m mark).1 ∧ ∀ n, Q m n → Q (rule m mark).2 n) :
    ∀ {marks : List Mark}, (∀ mark ∈ marks, ∀ n, mark = some n → S n) → ∀ {m : Marking}, I m →
      I (giveEach rule m marks).2 ∧
      (∀ n ∈ (giveEach rule m marks).1, Q (giveEach rule m marks).2 n) ∧
      ∀ n, Q m n → Q (giveEach rule m marks).2 n
  | [], _, _, h => ⟨h, List.forall_mem_nil _, fun _ => id⟩
  | mark :: rest, hS, m, h => by
    obtain ⟨hSmark, hSrest⟩ := List.forall_mem_cons.mp hS
    obtain ⟨h, hmark, hmono⟩ := hrule h hSmark
    obtain ⟨h, hrest, hmono'⟩ := forall_mem_giveEach hrule hSrest h
    exact ⟨h, List.forall_mem_cons.mpr ⟨hmono' _ hmark, hrest⟩, fun n hn => hmono' n (hmono n hn)⟩

/-- So it is for the marks of a value. -/
theorem forall_mem_marks_remark {I : Marking → Prop} {Q : Marking → Nat → Prop} {S : Nat → Prop}
    (hrule : ∀ {m mark}, I m → (∀ n, mark = some n → S n) →
      I (rule m mark).2 ∧ Q (rule m mark).2 (rule m mark).1 ∧ ∀ n, Q m n → Q (rule m mark).2 n)
    {v : Value} (hS : ∀ n ∈ v.marks, S n) {m : Marking} (h : I m) :
    I (remark rule m v).2 ∧ ∀ n ∈ (remark rule m v).1.marks, Q (remark rule m v).2 n := by
  have hcontainers : ∀ mark ∈ v.containers, ∀ n, mark = some n → S n := fun mark hmark n heq => by
    refine hS n ?_
    rw [marks_eq_containers]
    exact List.mem_filterMap.mpr ⟨mark, hmark, heq⟩
  obtain ⟨h, hmarks, -⟩ := forall_mem_giveEach hrule hcontainers h
  rw [← marks_remark] at h hmarks
  exact ⟨h, hmarks⟩

end Remark

/-! ## Copies, and new containers -/

variable {next next' : Nat}

/-- A renaming that takes the free marks in turn. -/
def TakesFree (ρ : Nat → Nat) (next next' : Nat) : Prop := ∀ k, ρ (next + k) = next' + k

/-- A renaming of marks in use, extended to the free ones. -/
def graft (ρ : Nat → Nat) (next next' : Nat) (n : Nat) : Nat :=
  if n < next then ρ n else next' + (n - next)

theorem takesFree_graft : TakesFree (graft ρ next next') next next' := fun k => by
  rw [graft, if_neg (by omega), Nat.add_sub_cancel_left]

theorem graft_of_lt {n : Nat} (h : n < next) : graft ρ next next' n = ρ n := if_pos h

theorem graft_injective (hinjective : Function.Injective ρ) (hbelow : ∀ n < next, ρ n < next') :
    Function.Injective (graft ρ next next') := by
  intro a b h
  unfold graft at h
  split at h <;> split at h
  · exact hinjective h
  · have := hbelow a ‹_›
    omega
  · have := hbelow b ‹_›
    omega
  · omega

theorem TakesFree.succ (h : TakesFree ρ next next') : TakesFree ρ (next + 1) (next' + 1) :=
  fun k => by rw [Nat.add_assoc, h, Nat.add_assoc]

end Value

namespace Marking

open Value

theorem rename_some (m : Marking) (old : Nat) :
    (∃ n, Entries.find? old m.renamed = some n ∧ m.rename (some old) = (n, m)) ∨
      (Entries.find? old m.renamed = none ∧
        m.rename (some old) = (m.next, ⟨m.next + 1, Entries.put old m.next m.renamed⟩)) := by
  unfold rename
  cases h : Entries.find? old m.renamed with
  | some n => exact .inl ⟨n, rfl, by simp only [h]⟩
  | none => exact .inr ⟨rfl, by simp only [h]⟩

/-- A marking that is a renaming of another one. -/
structure Follows (ρ : Nat → Nat) (m m' : Marking) : Prop where
  free : TakesFree ρ m.next m'.next
  renamed (old : Nat) : Entries.find? old m'.renamed = (Entries.find? old m.renamed).map ρ

/-- Containers that are copied get marks as in a renaming. -/
theorem Follows.rename {ρ : Nat → Nat} {m m' : Marking} (h : m.Follows ρ m') (mark : Mark) :
    (m'.rename mark).1 = ρ (m.rename mark).1 ∧ (m.rename mark).2.Follows ρ (m'.rename mark).2 := by
  cases mark with
  | none => exact ⟨(h.free 0).symm, h.free.succ, h.renamed⟩
  | some old =>
    have hold := h.renamed old
    rcases m.rename_some old with ⟨n, hfind, heq⟩ | ⟨hfind, heq⟩ <;>
      rcases m'.rename_some old with ⟨n', hfind', heq'⟩ | ⟨hfind', heq'⟩ <;>
      rw [hfind, hfind'] at hold <;> rw [heq, heq']
    · exact ⟨Option.some.inj hold, h⟩
    · cases hold
    · cases hold
    · refine ⟨(h.free 0).symm, h.free.succ, fun old' => ?_⟩
      by_cases heq : old' = old
      · subst heq
        rw [Entries.find?_put_self, Entries.find?_put_self]
        exact congrArg some (h.free 0).symm
      · rw [Entries.find?_put_other heq, Entries.find?_put_other heq]
        exact h.renamed old'

end Marking

namespace Value

variable {ρ : Nat → Nat} {next next' : Nat}

@[simp] theorem unmarked_settled (v : Value) : (v.settled next).1.unmarked = v.unmarked :=
  unmarked_remark v _

/-- **Copies from different marks on are renamings of each other.** -/
theorem copied_eq_rename (h : TakesFree ρ next next') (v : Value) :
    (v.copied next').1 = (v.copied next).1.rename ρ ∧
      TakesFree ρ (v.copied next).2 (v.copied next').2 := by
  obtain ⟨hvalue, hfollows⟩ := remark_rename (R := Marking.Follows ρ) (σ := id)
    (fun mark h => by rw [Option.map_id]; exact h.rename mark) v
    (show (Marking.startingAt next).Follows ρ (.startingAt next') from ⟨h, fun _ => rfl⟩)
  rw [rename_id] at hvalue hfollows
  exact ⟨hvalue, hfollows.free⟩

/-- **New containers get marks as in a renaming.** -/
theorem settled_rename (h : TakesFree ρ next next') (v : Value) :
    ((v.rename ρ).settled next').1 = (v.settled next).1.rename ρ ∧
      TakesFree ρ (v.settled next).2 ((v.rename ρ).settled next').2 := by
  refine remark_rename (R := fun m m' => TakesFree ρ m.next m'.next) (fun mark h => ?_) v
    (show TakesFree ρ (Marking.startingAt next).next (Marking.startingAt next').next from h)
  cases mark with
  | none => exact ⟨(h 0).symm, h.succ⟩
  | some old => exact ⟨rfl, h⟩

/-- The marks of a copy are new ones. -/
theorem marks_copied (next : Nat) (v : Value) : next ≤ (v.copied next).2 ∧
    ∀ n ∈ (v.copied next).1.marks, next ≤ n ∧ n < (v.copied next).2 := by
  let I (m : Marking) : Prop := next ≤ m.next ∧
    ∀ old n, Entries.find? old m.renamed = some n → next ≤ n ∧ n < m.next
  have hrule : ∀ {m : Marking} {mark : Mark}, I m → (∀ n, mark = some n → True) →
      I (m.rename mark).2 ∧
      (next ≤ (m.rename mark).1 ∧ (m.rename mark).1 < (m.rename mark).2.next) ∧
      ∀ n, next ≤ n ∧ n < m.next → next ≤ n ∧ n < (m.rename mark).2.next := by
    rintro m mark ⟨hnext, hrenamed⟩ -
    cases mark with
    | none =>
      exact ⟨⟨Nat.le_succ_of_le hnext, fun old n h => ⟨(hrenamed old n h).1,
        Nat.lt_succ_of_lt (hrenamed old n h).2⟩⟩, ⟨hnext, Nat.lt_succ_self _⟩,
        fun n h => ⟨h.1, Nat.lt_succ_of_lt h.2⟩⟩
    | some old =>
      rcases Marking.rename_some m old with ⟨n, hfind, heq⟩ | ⟨-, heq⟩ <;> rw [heq]
      · exact ⟨⟨hnext, hrenamed⟩, hrenamed old n hfind, fun _ h => h⟩
      · refine ⟨⟨Nat.le_succ_of_le hnext, fun old' n h => ?_⟩, ⟨hnext, Nat.lt_succ_self _⟩,
          fun n h => ⟨h.1, Nat.lt_succ_of_lt h.2⟩⟩
        by_cases hold : old' = old
        · subst hold
          rw [Entries.find?_put_self] at h
          exact Option.some.inj h ▸ ⟨hnext, Nat.lt_succ_self _⟩
        · rw [Entries.find?_put_other hold] at h
          exact ⟨(hrenamed old' n h).1, Nat.lt_succ_of_lt (hrenamed old' n h).2⟩
  obtain ⟨h, hmarks⟩ := forall_mem_marks_remark (I := I) (Q := fun m n => next ≤ n ∧ n < m.next)
    (S := fun _ => True) hrule (v := v) (fun _ _ => trivial) (m := .startingAt next)
    ⟨Nat.le_refl _, fun old n h => by cases h⟩
  exact ⟨h.1, hmarks⟩

/-- The marks of new containers are new ones, and all others stay. -/
theorem marks_settled (next : Nat) (v : Value) : next ≤ (v.settled next).2 ∧
    ∀ n ∈ (v.settled next).1.marks, n ∈ v.marks ∨ next ≤ n ∧ n < (v.settled next).2 := by
  have hrule : ∀ {m : Marking} {mark : Mark}, next ≤ m.next → (∀ n, mark = some n → n ∈ v.marks) →
      next ≤ (m.keep mark).2.next ∧
      ((m.keep mark).1 ∈ v.marks ∨ next ≤ (m.keep mark).1 ∧ (m.keep mark).1 < (m.keep mark).2.next) ∧
      ∀ n, n ∈ v.marks ∨ next ≤ n ∧ n < m.next →
        n ∈ v.marks ∨ next ≤ n ∧ n < (m.keep mark).2.next := by
    intro m mark hnext hmark
    cases mark with
    | none =>
      exact ⟨Nat.le_succ_of_le hnext, .inr ⟨hnext, Nat.lt_succ_self _⟩,
        fun n h => h.imp id fun h => ⟨h.1, Nat.lt_succ_of_lt h.2⟩⟩
    | some old => exact ⟨hnext, .inl (hmark old rfl), fun _ h => h⟩
  exact forall_mem_marks_remark (I := fun m => next ≤ m.next)
    (Q := fun m n => n ∈ v.marks ∨ next ≤ n ∧ n < m.next) (S := (· ∈ v.marks)) hrule
    (fun _ => id) (m := .startingAt next) (Nat.le_refl _)

/-- The extension of a renaming stays below the next free mark. -/
theorem graft_lt_settled (hbelow : ∀ n < next, ρ n < next') (v : Value) {n : Nat}
    (hn : n < (v.settled next).2) :
    graft ρ next next' n < ((v.rename (graft ρ next next')).settled next').2 := by
  have hle := (marks_settled next v).1
  have hlast : graft ρ next next' (v.settled next).2 =
      ((v.rename (graft ρ next next')).settled next').2 := (settled_rename takesFree_graft v).2 0
  rw [← hlast, graft, graft, if_neg (Nat.not_lt.mpr hle)]
  split
  · next hlt => exact Nat.lt_of_lt_of_le (hbelow n hlt) (Nat.le_add_right ..)
  · omega

end Value

/-- Values that hold the same have the same keys. -/
theorem cacheKey_congr {v w : Value} (name : String) (h : v.unmarked = w.unmarked) :
    cacheKey name v = cacheKey name w := by
  rw [cacheKey, cacheKey, Value.plain_congr h]

end Verdict
