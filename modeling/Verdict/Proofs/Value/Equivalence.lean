import Verdict.Proofs.Value.Equality
import Verdict.Proofs.Value.Occurs

/-!
# Proofs/Value/Equivalence — equality from both sides

    x = y   ⇒   y = x        where objects name each field once
    x = z = y   ⇒   x = y    seen from both sides of `z`, whatever the objects
    x = x                    where, besides, no `nan` occurs

An object looks for the field of a name and stops at the first, so its fields can be compared from
the other side only where that side has no second field of the name (`NamesOnce`).  `nan` is the
only value that is not equal to itself, and what holds it equals nothing (`equal_self_iff`).  With
transitivity (`equal_trans`), equality is an equivalence on the values that documents hold, `nan`
apart.
-/

namespace Verdict.Value

/-- Each object in a value names each of its fields once. -/
def NamesOnce (v : Value) : Prop :=
  ∀ mark fields, (object mark fields).Occurs v → (fields.map Prod.fst).Nodup

/-- A value in which no `nan` occurs. -/
def IsNanFree (v : Value) : Prop := ¬ (float .nan).Occurs v

variable {u v x y : Value} {mark : Mark} {items : List Value} {fields : List (String × Value)}

/-! ## The parts of such values -/

theorem NamesOnce.of_occurs (h : v.NamesOnce) (hu : u.Occurs v) : u.NamesOnce :=
  fun mark fields hfields => h mark fields (hfields.trans hu)

theorem IsNanFree.of_occurs (h : v.IsNanFree) (hu : u.Occurs v) : u.IsNanFree :=
  fun hnan => h (hnan.trans hu)

theorem namesOnce_of_isScalar (h : v.isScalar = true) : v.NamesOnce := by
  intro mark fields hfields
  cases hfields <;> cases h

theorem namesOnce_list : (list mark items).NamesOnce ↔ ∀ v ∈ items, v.NamesOnce := by
  refine ⟨fun h v hv => h.of_occurs (.item hv .here), fun h mark fields hfields => ?_⟩
  cases hfields with
  | item hv hfields => exact h _ hv mark fields hfields

theorem namesOnce_object : (object mark fields).NamesOnce ↔
    (fields.map Prod.fst).Nodup ∧ ∀ e ∈ fields, e.2.NamesOnce := by
  constructor
  · exact fun h => ⟨h mark fields .here, fun e he => h.of_occurs (.field he .here)⟩
  · rintro ⟨hnodup, h⟩ mark' fields' hfields
    cases hfields with
    | here => exact hnodup
    | field he hfields => exact h _ he mark' fields' hfields

theorem isNanFree_list : (list mark items).IsNanFree ↔ ∀ v ∈ items, v.IsNanFree := by
  refine ⟨fun h v hv => h.of_occurs (.item hv .here), fun h hnan => ?_⟩
  cases hnan with
  | item hv hnan => exact h _ hv hnan

theorem isNanFree_object : (object mark fields).IsNanFree ↔ ∀ e ∈ fields, e.2.IsNanFree := by
  refine ⟨fun h e he => h.of_occurs (.field he .here), fun h hnan => ?_⟩
  cases hnan with
  | field he hnan => exact h _ he hnan

theorem isNanFree_iff_of_isScalar (h : v.isScalar = true) :
    v.IsNanFree ↔ v.identity? ≠ none := by
  constructor
  · intro hfree hnone
    rcases v with _ | _ | _ | (_ | _ | _) | _ | _ | _ | _ | _ <;> first
      | (cases h; done)
      | (cases hnone; done)
      | exact hfree .here
  · intro hsome hnan
    cases hnan with
    | here => exact hsome rfl
    | item | field => cases h

/-! ## Symmetry -/

theorem equalItems_symm : ∀ {xs ys : List Value},
    (∀ x ∈ xs, ∀ {y : Value}, y.NamesOnce → x.equal y = true → y.equal x = true) →
      (∀ y ∈ ys, y.NamesOnce) → equalItems xs ys = true → equalItems ys xs = true
  | [], ys, _, _, h => by
    cases ys with
    | nil => exact h
    | cons y ys => simp [equalItems] at h
  | x :: xs, ys, hxs, hys, h => by
    obtain ⟨y, ys, rfl, hxy, hrest⟩ := equalItems_cons_iff.mp h
    obtain ⟨hx, hxs⟩ := List.forall_mem_cons.mp hxs
    obtain ⟨hy, hys⟩ := List.forall_mem_cons.mp hys
    exact equalItems_cons_iff.mpr ⟨x, xs, rfl, hx hy hxy, equalItems_symm hxs hys hrest⟩

/-- What equals a value that names fields once is equalled by it. -/
theorem equal_symm (hy : y.NamesOnce) (h : x.equal y = true) : y.equal x = true := by
  induction x using inductionOn generalizing y with
  | scalar x hx => rwa [← equal_comm_of_isScalar hx]
  | list mark xs ih =>
    obtain ⟨_, ys, rfl, hxs⟩ := exists_of_list_equal h
    rw [equal]
    exact equalItems_symm (fun x hx _ => ih x hx) (namesOnce_list.mp hy) hxs
  | object mark fs ih =>
    obtain ⟨_, gs, rfl, hnames, hfs⟩ := exists_of_object_equal h
    obtain ⟨hnodup, hgs⟩ := namesOnce_object.mp hy
    rw [sameNames_iff] at hnames
    rw [equal, Bool.and_eq_true]
    refine ⟨sameNames_iff.mpr fun name => (hnames name).symm, equalFields_iff.mpr fun g hg => ?_⟩
    have hname : g.1 ∈ fs.map Prod.fst := (hnames g.1).mpr (List.mem_map_of_mem hg)
    obtain ⟨w, hw⟩ : ∃ w, Entries.find? g.1 fs = some w :=
      Option.ne_none_iff_exists'.mp fun hnone => Entries.find?_eq_none_iff.mp hnone hname
    -- the field that is found in `fs` was compared with the only one of its name in `gs`
    obtain ⟨w', hw', heq⟩ := equalFields_iff.mp hfs _ (Entries.mem_of_find? hw)
    obtain rfl : g.2 = w' := Option.some.inj ((Entries.find?_of_mem hnodup hg).symm.trans hw')
    exact ⟨w, hw, ih _ (Entries.mem_of_find? hw) (hgs g hg) heq⟩

/-- **Equality of values that name fields once is symmetric.** -/
theorem equal_comm (hx : x.NamesOnce) (hy : y.NamesOnce) : x.equal y = y.equal x :=
  Bool.eq_iff_iff.mpr ⟨equal_symm hy, equal_symm hx⟩

/-! ## Equality with one value -/

/-- Only a list equals a list. -/
theorem exists_of_equal_list {ys : List Value} (h : v.equal (list mark ys) = true) :
    ∃ mark' xs, v = .list mark' xs ∧ equalItems xs ys = true := by
  cases v with
  | list mark' xs => exact ⟨mark', xs, rfl, by rwa [equal] at h⟩
  | _ => simp [equal, equalNumbers] at h

/-- Only an object equals an object. -/
theorem exists_of_equal_object {gs : List (String × Value)} (h : v.equal (object mark gs) = true) :
    ∃ mark' fs, v = .object mark' fs ∧ sameNames fs gs = true ∧ equalFields fs gs = true := by
  cases v with
  | object mark' fs => exact ⟨mark', fs, rfl, by rwa [equal, Bool.and_eq_true] at h⟩
  | _ => simp [equal, equalNumbers] at h

theorem equalItems_of_equalItems : ∀ {xs ys zs : List Value},
    (∀ x ∈ xs, ∀ {y z : Value}, x.equal z = true → y.equal z = true → x.equal y = true) →
      equalItems xs zs = true → equalItems ys zs = true → equalItems xs ys = true
  | [], ys, zs, _, h, h' => by
    cases zs with
    | cons z zs => simp [equalItems] at h
    | nil =>
      cases ys with
      | nil => rfl
      | cons y ys => simp [equalItems] at h'
  | x :: xs, ys, zs, hxs, h, h' => by
    obtain ⟨hx, hxs⟩ := List.forall_mem_cons.mp hxs
    obtain ⟨z, zs, rfl, hxz, hxzs⟩ := equalItems_cons_iff.mp h
    cases ys with
    | nil => simp [equalItems] at h'
    | cons y ys =>
      obtain ⟨_, _, heq, hyz, hyzs⟩ := equalItems_cons_iff.mp h'
      cases heq
      exact equalItems_cons_iff.mpr ⟨y, ys, rfl, hx hxz hyz, equalItems_of_equalItems hxs hxzs hyzs⟩

/-- **Values that equal a third one equal each other.** -/
theorem equal_of_equal {z : Value} (h : x.equal z = true) (h' : y.equal z = true) :
    x.equal y = true := by
  induction x using inductionOn generalizing y z with
  | scalar x hx =>
    have hz : z.isScalar = true := isScalar_of_equal hx h
    rw [← equal_comm_of_isScalar hz] at h'
    obtain ⟨hne, hxz⟩ := (equal_iff_identity? hx z).mp h
    obtain ⟨_, hzy⟩ := (equal_iff_identity? hz y).mp h'
    exact (equal_iff_identity? hx y).mpr ⟨hne, hxz.trans hzy⟩
  | list mark xs ih =>
    obtain ⟨_, zs, rfl, hxs⟩ := exists_of_list_equal h
    obtain ⟨_, ys, rfl, hys⟩ := exists_of_equal_list h'
    rw [equal]
    exact equalItems_of_equalItems (fun x hx _ _ => ih x hx) hxs hys
  | object mark fs ih =>
    obtain ⟨_, hs, rfl, hnames, hfs⟩ := exists_of_object_equal h
    obtain ⟨_, gs, rfl, hnames', hgs⟩ := exists_of_equal_object h'
    rw [sameNames_iff] at hnames hnames'
    rw [equal, Bool.and_eq_true]
    refine ⟨sameNames_iff.mpr fun name => (hnames name).trans (hnames' name).symm,
      equalFields_iff.mpr fun f hf => ?_⟩
    obtain ⟨w, hw, hfw⟩ := equalFields_iff.mp hfs f hf
    have hname : f.1 ∈ gs.map Prod.fst :=
      (hnames' f.1).mpr ((hnames f.1).mp (List.mem_map_of_mem hf))
    obtain ⟨u, hu⟩ : ∃ u, Entries.find? f.1 gs = some u :=
      Option.ne_none_iff_exists'.mp fun hnone => Entries.find?_eq_none_iff.mp hnone hname
    -- the field that is found in `gs` was compared with the one that `f` was compared with
    obtain ⟨w', hw', huw⟩ := equalFields_iff.mp hgs _ (Entries.mem_of_find? hu)
    obtain rfl : w = w' := Option.some.inj (hw.symm.trans hw')
    exact ⟨u, hu, ih f hf hfw huw⟩

/-- What equals anything equals itself. -/
theorem equal_self_of_equal (h : x.equal y = true) : x.equal x = true := equal_of_equal h h

theorem equal_self_of_mem : ∀ {xs ys : List Value}, equalItems xs ys = true →
    ∀ x ∈ xs, x.equal x = true
  | [], _, _, x, hx => by cases hx
  | x :: xs, ys, h, x', hx' => by
    obtain ⟨y, ys, rfl, hxy, hrest⟩ := equalItems_cons_iff.mp h
    rcases List.mem_cons.mp hx' with rfl | hx'
    · exact equal_self_of_equal hxy
    · exact equal_self_of_mem hrest x' hx'

/-! ## Reflexivity -/

theorem equalItems_self : ∀ {xs : List Value}, (∀ x ∈ xs, x.equal x = true) →
    equalItems xs xs = true
  | [], _ => rfl
  | x :: xs, h => by
    obtain ⟨hx, hxs⟩ := List.forall_mem_cons.mp h
    exact equalItems_cons_iff.mpr ⟨x, xs, rfl, hx, equalItems_self hxs⟩

/-- **A value that names fields once equals itself, where no `nan` occurs.** -/
theorem equal_self (hx : x.NamesOnce) (hfree : x.IsNanFree) : x.equal x = true := by
  induction x using inductionOn with
  | scalar x hscalar =>
    exact (equal_iff_identity? hscalar x).mpr ⟨(isNanFree_iff_of_isScalar hscalar).mp hfree, rfl⟩
  | list mark xs ih =>
    rw [namesOnce_list] at hx
    rw [isNanFree_list] at hfree
    rw [equal]
    exact equalItems_self fun x hmem => ih x hmem (hx x hmem) (hfree x hmem)
  | object mark fs ih =>
    obtain ⟨hnodup, hfs⟩ := namesOnce_object.mp hx
    rw [isNanFree_object] at hfree
    rw [equal, Bool.and_eq_true]
    refine ⟨sameNames_iff.mpr fun _ => Iff.rfl, equalFields_iff.mpr fun f hf => ?_⟩
    exact ⟨f.2, Entries.find?_of_mem hnodup hf, ih f hf (hfs f hf) (hfree f hf)⟩

theorem isNanFree_of_equal_self (h : x.equal x = true) : x.IsNanFree := by
  induction x using inductionOn with
  | scalar x hscalar =>
    exact (isNanFree_iff_of_isScalar hscalar).mpr ((equal_iff_identity? hscalar x).mp h).1
  | list mark xs ih =>
    rw [equal] at h
    exact isNanFree_list.mpr fun x hx => ih x hx (equal_self_of_mem h x hx)
  | object mark fs ih =>
    rw [equal, Bool.and_eq_true] at h
    refine isNanFree_object.mpr fun f hf => ih f hf ?_
    obtain ⟨_, _, hfw⟩ := equalFields_iff.mp h.2 f hf
    exact equal_self_of_equal hfw

/-- **A value that names fields once equals itself exactly where no `nan` occurs.** -/
theorem equal_self_iff (hx : x.NamesOnce) : x.equal x = true ↔ x.IsNanFree :=
  ⟨isNanFree_of_equal_self, equal_self hx⟩

end Verdict.Value
