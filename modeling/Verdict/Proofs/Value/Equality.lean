import Verdict.Proofs.Entries
import Verdict.Proofs.Value.Marks
import Verdict.Proofs.Value.Scalar

/-!
# Proofs/Value/Equality — equality through containers

    x = y = z    item by item, field by field

Lists are equal item by item (`equalItems_cons_iff`), objects by their names and field by field
(`equalFields_iff`).  So equality of scalars, which goes by their identity, carries over to values of
any depth: equality is transitive (`equal_trans`).
-/

namespace Verdict.Value

theorem equal_str_iff {name : String} {v : Value} :
    (Value.str name).equal v = true ↔ v = .str name := by
  cases v with
  | str s =>
    rw [equal, beq_iff_eq, Value.str.injEq]
    exact eq_comm
  | _ => simp [equal]

/-! ## Lists and objects -/

theorem equalItems_cons_iff {x : Value} {xs ys : List Value} : equalItems (x :: xs) ys = true ↔
    ∃ y rest, ys = y :: rest ∧ x.equal y = true ∧ equalItems xs rest = true := by
  cases ys with
  | nil => simp [equalItems]
  | cons y rest =>
    rw [equalItems, Bool.and_eq_true]
    exact ⟨fun h => ⟨y, rest, rfl, h⟩, fun ⟨_, _, heq, h⟩ => by cases heq; exact h⟩

theorem equalFields_iff {fs gs : List (String × Value)} : equalFields fs gs = true ↔
    ∀ f ∈ fs, ∃ w, Entries.find? f.1 gs = some w ∧ f.2.equal w = true := by
  induction fs with
  | nil => simp [equalFields]
  | cons f rest ih =>
    obtain ⟨name, v⟩ := f
    rw [equalFields, Bool.and_eq_true, ih, List.forall_mem_cons]
    refine and_congr_left fun _ => ?_
    cases Entries.find? name gs <;> simp

theorem sameNames_iff {fs gs : List (String × Value)} : sameNames fs gs = true ↔
    ∀ name, name ∈ fs.map Prod.fst ↔ name ∈ gs.map Prod.fst := by
  have hsome : ∀ {name : String} {es : List (String × Value)},
      (Entries.find? name es).isSome = true ↔ name ∈ es.map Prod.fst := fun {name es} => by
    rw [Option.isSome_iff_ne_none, ne_eq, Entries.find?_eq_none_iff, Classical.not_not]
  simp only [sameNames, Bool.and_eq_true, List.all_eq_true, hsome]
  constructor
  · rintro ⟨hfs, hgs⟩ name
    constructor
    · intro h
      obtain ⟨f, hf, rfl⟩ := List.mem_map.mp h
      exact hfs f hf
    · intro h
      obtain ⟨g, hg, rfl⟩ := List.mem_map.mp h
      exact hgs g hg
  · intro h
    exact ⟨fun f hf => (h f.1).mp (List.mem_map_of_mem hf),
      fun g hg => (h g.1).mpr (List.mem_map_of_mem hg)⟩

/-- A list equals lists only. -/
theorem exists_of_list_equal {mark : Mark} {xs : List Value} {v : Value}
    (h : (list mark xs).equal v = true) :
    ∃ mark' ys, v = .list mark' ys ∧ equalItems xs ys = true := by
  cases v with
  | list mark' ys => exact ⟨mark', ys, rfl, by rwa [equal] at h⟩
  | _ => simp [equal] at h

/-- An object equals objects only. -/
theorem exists_of_object_equal {mark : Mark} {fs : List (String × Value)} {v : Value}
    (h : (object mark fs).equal v = true) :
    ∃ mark' gs, v = .object mark' gs ∧ sameNames fs gs = true ∧ equalFields fs gs = true := by
  cases v with
  | object mark' gs => exact ⟨mark', gs, rfl, by rwa [equal, Bool.and_eq_true] at h⟩
  | _ => simp [equal] at h

/-! ## Transitivity -/

theorem equalItems_trans : ∀ {xs ys zs : List Value},
    (∀ x ∈ xs, ∀ {y z : Value}, x.equal y = true → y.equal z = true → x.equal z = true) →
      equalItems xs ys = true → equalItems ys zs = true → equalItems xs zs = true
  | [], ys, zs, _, h, h' => by
    cases ys with
    | nil => exact h'
    | cons y ys => simp [equalItems] at h
  | x :: xs, ys, zs, hxs, h, h' => by
    obtain ⟨hx, hxs⟩ := List.forall_mem_cons.mp hxs
    obtain ⟨y, ys, rfl, hxy, hxys⟩ := equalItems_cons_iff.mp h
    obtain ⟨z, zs, rfl, hyz, hyzs⟩ := equalItems_cons_iff.mp h'
    exact equalItems_cons_iff.mpr ⟨z, zs, rfl, hx hxy hyz, equalItems_trans hxs hxys hyzs⟩

/-- **Equality is transitive.** -/
theorem equal_trans {x y z : Value} (h : x.equal y = true) (h' : y.equal z = true) :
    x.equal z = true := by
  induction x using inductionOn generalizing y z with
  | scalar x hx =>
    have hy : y.isScalar = true := isScalar_of_equal hx h
    obtain ⟨hne, hxy⟩ := (equal_iff_identity? hx y).mp h
    obtain ⟨_, hyz⟩ := (equal_iff_identity? hy z).mp h'
    exact (equal_iff_identity? hx z).mpr ⟨hne, hxy.trans hyz⟩
  | list mark xs ih =>
    obtain ⟨_, ys, rfl, hxs⟩ := exists_of_list_equal h
    obtain ⟨_, zs, rfl, hys⟩ := exists_of_list_equal h'
    rw [equal]
    exact equalItems_trans (fun x hx _ _ => ih x hx) hxs hys
  | object mark fs ih =>
    obtain ⟨_, gs, rfl, hnames, hfs⟩ := exists_of_object_equal h
    obtain ⟨_, hs, rfl, hnames', hgs⟩ := exists_of_object_equal h'
    rw [equal, Bool.and_eq_true]
    constructor
    · rw [sameNames_iff] at hnames hnames' ⊢
      exact fun name => (hnames name).trans (hnames' name)
    · refine equalFields_iff.mpr fun f hf => ?_
      obtain ⟨w, hw, hfw⟩ := equalFields_iff.mp hfs f hf
      obtain ⟨u, hu, hwu⟩ := equalFields_iff.mp hgs _ (Entries.mem_of_find? hw)
      exact ⟨u, hu, ih f hf hfw hwu⟩

end Verdict.Value
