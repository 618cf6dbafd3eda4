import Verdict.Introspection.Range

/-!
# Proofs/Introspection/Alternative — what merging and undoing leave alone

Alternatives on **named** fields are tables: a field is found by its name, requirements of new
fields are put behind the others (`mergeInto_of_disjoint`), and what is done to one field leaves
the entries of all others where they are (`mem_undoSteps`).
-/

namespace Verdict

/-! ## Alternatives on named fields -/

/-- A text names itself only. -/
theorem Value.loosely_str_iff {name : String} {v : Value} :
    (Value.str name).loosely v = true ↔ v = .str name := by
  cases v with
  | str s =>
    rw [Value.loosely, beq_iff_eq, Value.str.injEq]
    exact eq_comm
  | _ => simp [Value.loosely]

namespace Alternative

/-- All fields are texts. -/
def IsNamed (a : Alternative) : Prop := ∀ e ∈ a, ∃ name, e.1 = .str name

variable {a : Alternative} {field : Value}

theorem find?_cons_self (v : Value) (name : String) (rest : Alternative) :
    find? (.str name) ((.str name, v) :: rest) = some v := by
  rw [find?, if_pos (Value.loosely_str_iff.mpr rfl)]

/-- A field is not found exactly where it is not there. -/
theorem find?_eq_none_iff (ha : a.IsNamed) : a.find? field = none ↔ ∀ e ∈ a, e.1 ≠ field := by
  induction a with
  | nil => simp [find?]
  | cons e rest ih =>
    obtain ⟨f, v⟩ := e
    obtain ⟨⟨name, rfl⟩, hrest⟩ := List.forall_mem_cons.mp ha
    rw [find?]
    by_cases h : (Value.str name).loosely field = true
    · rw [if_pos h]
      simp [Value.loosely_str_iff.mp h]
    · rw [if_neg h, ih hrest, List.forall_mem_cons]
      exact ⟨fun hall => ⟨fun heq => h (Value.loosely_str_iff.mpr heq.symm), hall⟩,
        fun hall => hall.2⟩

/-- Putting a requirement adds no field but its own. -/
theorem map_fst_put (field v : Value) (a : Alternative) :
    (a.put field v).map Prod.fst = a.map Prod.fst ∨
      (a.put field v).map Prod.fst = a.map Prod.fst ++ [field] := by
  induction a with
  | nil => exact .inr rfl
  | cons e rest ih =>
    obtain ⟨f, w⟩ := e
    rw [put]
    split
    · exact .inl rfl
    · exact ih.imp (fun h => by simp [h]) fun h => by simp [h]

theorem map_fst_put_of_find? {known : Value} (h : a.find? field = some known) (v : Value) :
    (a.put field v).map Prod.fst = a.map Prod.fst := by
  induction a with
  | nil => cases h
  | cons e rest ih =>
    obtain ⟨f, w⟩ := e
    rw [find?] at h
    rw [put]
    split
    · rfl
    · next hne =>
      rw [if_neg hne] at h
      rw [List.map_cons, List.map_cons, ih h]

theorem put_of_find?_eq_none (h : a.find? field = none) (v : Value) :
    a.put field v = a ++ [(field, v)] := by
  induction a with
  | nil => rfl
  | cons e rest ih =>
    obtain ⟨f, w⟩ := e
    rw [find?] at h
    rw [put]
    split
    · next hf =>
      rw [if_pos hf] at h
      cases h
    · next hf =>
      rw [if_neg hf] at h
      rw [ih h, List.cons_append]

/-- The requirement of a new field is put behind the others. -/
theorem require_of_not_mem (ha : a.IsNamed) (h : ∀ e ∈ a, e.1 ≠ field) (v : Value) :
    a.require field v = a ++ [(field, v)] := by
  rw [require, (find?_eq_none_iff ha).mpr h]

/-- Requirements of new fields are put behind the others. -/
theorem mergeInto_of_disjoint {es : Alternative} (ha : a.IsNamed) (hes : es.IsNamed)
    (hnodup : (es.map Prod.fst).Nodup) (hdisjoint : ∀ e ∈ a, ∀ e' ∈ es, e.1 ≠ e'.1) :
    a.mergeInto es = a ++ es := by
  induction es generalizing a with
  | nil => exact (List.append_nil a).symm
  | cons e rest ih =>
    obtain ⟨f, v⟩ := e
    obtain ⟨hf, hrest⟩ := List.forall_mem_cons.mp hes
    rw [List.map_cons, List.nodup_cons] at hnodup
    have hrequire : a.require f v = a ++ [(f, v)] :=
      require_of_not_mem ha (fun e he => hdisjoint e he (f, v) (List.mem_cons_self ..)) v
    calc a.mergeInto ((f, v) :: rest)
        = (a.require f v).mergeInto rest := rfl
      _ = (a ++ [(f, v)]).mergeInto rest := by rw [hrequire]
      _ = (a ++ [(f, v)]) ++ rest := by
        refine ih ?_ hrest hnodup.2 ?_
        · exact List.forall_mem_append.mpr ⟨ha, List.forall_mem_singleton.mpr hf⟩
        · refine List.forall_mem_append.mpr ⟨fun e he e' he' =>
            hdisjoint e he e' (List.mem_cons_of_mem _ he'), List.forall_mem_singleton.mpr ?_⟩
          rintro e' he' rfl
          exact hnodup.1 (List.mem_map.mpr ⟨e', he', rfl⟩)
      _ = a ++ (f, v) :: rest := by simp

theorem merge_map_singleton {es : Alternative} (hes : es.IsNamed)
    (hnodup : (es.map Prod.fst).Nodup) : merge (es.map fun e => [e]) = es := by
  have hfold : ∀ a : Alternative, (es.map fun e => [e]).foldl mergeInto a = a.mergeInto es := by
    intro a
    rw [List.foldl_map]
    rfl
  rw [merge, hfold, mergeInto_of_disjoint (by simp [IsNamed]) hes hnodup (by simp), List.nil_append]

/-- The fields that are gathered are texts and distinct. -/
structure IsTable (a : Alternative) : Prop where
  named : a.IsNamed
  nodup : (a.map Prod.fst).Nodup

theorem isTable_nil : IsTable [] := ⟨by simp [IsNamed], by simp⟩

theorem isTable_cons_iff {e : Value × Value} {a : Alternative} : IsTable (e :: a) ↔
    (∃ name, e.1 = .str name) ∧ e.1 ∉ a.map Prod.fst ∧ a.IsTable := by
  constructor
  · rintro ⟨hnamed, hnodup⟩
    obtain ⟨he, ha⟩ := List.forall_mem_cons.mp hnamed
    rw [List.map_cons, List.nodup_cons] at hnodup
    exact ⟨he, hnodup.1, ha, hnodup.2⟩
  · rintro ⟨he, hnew, hnamed, hnodup⟩
    exact ⟨List.forall_mem_cons.mpr ⟨he, hnamed⟩, List.nodup_cons.mpr ⟨hnew, hnodup⟩⟩

theorem isNamed_iff {a : Alternative} :
    a.IsNamed ↔ ∀ f ∈ a.map Prod.fst, ∃ name, f = .str name := by
  rw [IsNamed, List.forall_mem_map]

/-! ## Fields -/

/-- All fields have a property. -/
def Within (F : Value → Prop) (a : Alternative) : Prop := ∀ e ∈ a, F e.1

variable {F : Value → Prop}

theorem within_iff : a.Within F ↔ ∀ f ∈ a.map Prod.fst, F f := by
  rw [Within, List.forall_mem_map]

theorem Within.put (ha : a.Within F) (hf : F field) (v : Value) : (a.put field v).Within F := by
  rw [within_iff] at ha ⊢
  rcases map_fst_put field v a with h | h
  · rwa [h]
  · rw [h]
    exact List.forall_mem_append.mpr ⟨ha, List.forall_mem_singleton.mpr hf⟩

theorem Within.require (ha : a.Within F) (hf : F field) (v : Value) :
    (a.require field v).Within F := by
  unfold Alternative.require
  split
  · exact ha.put hf _
  · exact List.forall_mem_append.mpr ⟨ha, List.forall_mem_singleton.mpr hf⟩

theorem Within.mergeInto {es : Alternative} (ha : a.Within F) (hes : es.Within F) :
    (a.mergeInto es).Within F := by
  induction es generalizing a with
  | nil => exact ha
  | cons e rest ih =>
    obtain ⟨he, hrest⟩ := List.forall_mem_cons.mp hes
    exact ih (ha.require he e.2) hrest

theorem Within.filter (ha : a.Within F) (p : Value × Value → Bool) :
    Within F (List.filter p a) := fun e he => ha e (List.mem_filter.mp he).1

/-- Undoing a change does not bring in a field. -/
theorem Within.undo (ha : a.Within F) (c : Change) : (a.undo c).Within F := by
  unfold Alternative.undo
  cases h : a.find? c.field with
  | none => exact ha
  | some current =>
    dsimp only
    split
    · exact ha.filter _
    · split
      · rw [within_iff, map_fst_put_of_find? h, ← within_iff]
        exact ha
      · exact ha

/-- Undoing adds no fields. -/
theorem Within.undoSteps (depth : Nat) : ∀ (steps : List Step) {a : Alternative}, a.Within F →
    (a.undoSteps depth steps).Within F
  | [], _, ha => ha
  | s :: rest, a, ha => by
    rw [Alternative.undoSteps]
    split
    · have hfold : ∀ (cs : List Change) {a : Alternative}, a.Within F →
          (cs.foldl Alternative.undo a).Within F := fun cs => by
        induction cs with
        | nil => exact fun h => h
        | cons c cs ih => exact fun h => ih (h.undo c)
      exact Within.undoSteps depth rest (hfold _ ha)
    · exact ha

/-! ## Undoing leaves other fields alone -/

/-- Entries of other fields stay where they are. -/
theorem mem_put_of_ne {e : Value × Value} (he : e ∈ a) (hne : ¬ e.1.loosely field = true)
    (v : Value) : e ∈ a.put field v := by
  induction a with
  | nil => cases he
  | cons e' rest ih =>
    rw [put]
    rcases List.mem_cons.mp he with rfl | he
    · rw [if_neg hne]
      exact List.mem_cons_self ..
    · split
      · exact List.mem_cons_of_mem _ he
      · exact List.mem_cons_of_mem _ (ih he)

/-- Undoing a change leaves the entries of other fields. -/
theorem mem_undo {e : Value × Value} (he : e ∈ a) {c : Change}
    (hne : ¬ e.1.loosely c.field = true) : e ∈ a.undo c := by
  unfold undo
  split
  · exact he
  · split
    · exact List.mem_filter.mpr ⟨he, by simp [hne]⟩
    · split
      · exact mem_put_of_ne he hne _
      · exact he

/-- Steps whose changes down to a depth, the latest first, leave some fields alone. -/
def Shielded (depth : Nat) (F : Value → Prop) : List Step → Prop
  | [] => True
  | s :: rest =>
    depth ≤ s.depth → (∀ c ∈ s.changes.getD [], ¬ F c.field) ∧ Shielded depth F rest

/-- **Entries of fields that the latest steps leave alone stay when these are undone.** -/
theorem mem_undoSteps {bound depth : Nat} (hdepth : bound ≤ depth) {e : Value × Value}
    (hnamed : ∃ name, e.1 = .str name) (hF : F e.1) :
    ∀ {steps : List Step}, Shielded bound F steps → ∀ {a : Alternative}, e ∈ a →
      e ∈ a.undoSteps depth steps
  | [], _, _, he => he
  | s :: rest, hsteps, a, he => by
    rw [undoSteps]
    split
    · next heq =>
      obtain ⟨hchanges, hrest⟩ := hsteps (heq ▸ hdepth)
      have hfold : ∀ cs : List Change, (∀ c ∈ cs, ¬ F c.field) → ∀ {a : Alternative}, e ∈ a →
          e ∈ cs.foldl undo a := fun cs => by
        induction cs with
        | nil => exact fun _ _ h => h
        | cons c cs ih =>
          intro hcs a h
          obtain ⟨hc, hcs⟩ := List.forall_mem_cons.mp hcs
          refine ih hcs (mem_undo h fun hloosely => hc ?_)
          obtain ⟨name, hname⟩ := hnamed
          rw [hname] at hloosely
          rw [Value.loosely_str_iff.mp hloosely, ← hname]
          exact hF
      exact mem_undoSteps hdepth hnamed hF hrest (hfold _ hchanges he)
    · exact he

end Alternative

end Verdict
