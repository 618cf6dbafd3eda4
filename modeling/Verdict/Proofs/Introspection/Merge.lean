import Verdict.Proofs.Introspection.Range
import Verdict.Proofs.Value.Equality

/-!
# Proofs/Introspection/Merge — merging brings in no entry and loses none

    known ∪ added   ──dedupFlatten──▸   entries of both, of equal ones the first

The **entries** of a requirement are the items of a list, or the requirement itself.  Attaching an
alternative to a range keeps each entry **from** the entries before and those of the alternative
(`Growth.IsFrom.attach`), and keeps an alternative that **covers** what was covered, up to equality
(`Growth.Covers.attach`), and what the alternative adds (`Growth.covers_attach`).
-/

namespace Verdict

/-! ## Values without repetitions -/

namespace Value

theorem appendNew_subset : ∀ (rest kept : List Value), appendNew kept rest ⊆ kept ++ rest
  | [], kept => by rw [appendNew, List.append_nil]; exact fun _ h => h
  | item :: rest, kept => by
    rw [appendNew]
    split
    · refine fun x hx => ?_
      rcases List.mem_append.mp (appendNew_subset rest kept hx) with h | h
      · exact List.mem_append_left _ h
      · exact List.mem_append_right _ (List.mem_cons_of_mem _ h)
    · refine fun x hx => ?_
      have h := appendNew_subset rest (kept ++ [item]) hx
      rwa [List.append_assoc] at h

/-- Leaving out what equals an earlier value changes nothing for what does not tell them apart. -/
theorem any_appendNew {p : Value → Bool} : ∀ {rest kept : List Value},
    (∀ x ∈ kept ++ rest, ∀ y ∈ kept ++ rest, x.equal y = true → p x = p y) →
      (appendNew kept rest).any p = (kept.any p || rest.any p)
  | [], kept, _ => by rw [appendNew, List.any_nil, Bool.or_false]
  | item :: rest, kept, h => by
    rw [appendNew]
    split
    · next hseen =>
      obtain ⟨seen, hmem, hequal⟩ := List.any_eq_true.mp hseen
      have hitem : p item = p seen := h item (by simp) seen (List.mem_append_left _ hmem) hequal
      have hkept : p item = true → kept.any p = true := fun hp =>
        List.any_eq_true.mpr ⟨seen, hmem, hitem ▸ hp⟩
      have hsubset : kept ++ rest ⊆ kept ++ item :: rest := fun x hx => by
        rcases List.mem_append.mp hx with hx | hx
        · exact List.mem_append_left _ hx
        · exact List.mem_append_right _ (List.mem_cons_of_mem _ hx)
      rw [any_appendNew fun x hx y hy => h x (hsubset hx) y (hsubset hy), List.any_cons]
      cases hp : p item with
      | false => rfl
      | true => rw [hkept hp, Bool.true_or, Bool.true_or]
    · have hassoc : kept ++ [item] ++ rest = kept ++ item :: rest := List.append_assoc ..
      rw [any_appendNew (hassoc ▸ h), List.any_append, List.any_cons, List.any_cons, List.any_nil,
        Bool.or_false, Bool.or_assoc]

/-- A requirement and one more value, without repetitions. -/
theorem dedupFlatten_pair (v w : Value) :
    dedupFlatten [v, w] = appendNew (appendNew [] v.flat) w.flat := rfl

theorem dedupFlatten_pair_subset (v w : Value) : dedupFlatten [v, w] ⊆ v.flat ++ w.flat := by
  intro x hx
  rcases List.mem_append.mp (appendNew_subset w.flat _ hx) with h | h
  · exact List.mem_append_left _ (appendNew_subset v.flat [] h)
  · exact List.mem_append_right _ h

theorem any_dedupFlatten_pair {p : Value → Bool} {v w : Value}
    (h : ∀ x ∈ v.flat ++ w.flat, ∀ y ∈ v.flat ++ w.flat, x.equal y = true → p x = p y) :
    (dedupFlatten [v, w]).any p = (v.flat.any p || w.flat.any p) := by
  have hfirst : appendNew [] v.flat ⊆ v.flat := appendNew_subset v.flat []
  have hsubset : appendNew [] v.flat ++ w.flat ⊆ v.flat ++ w.flat := fun x hx => by
    rcases List.mem_append.mp hx with hx | hx
    · exact List.mem_append_left _ (hfirst hx)
    · exact List.mem_append_right _ hx
  rw [dedupFlatten_pair, any_appendNew fun x hx y hy => h x (hsubset hx) y (hsubset hy),
    any_appendNew fun x hx y hy => h x (List.mem_append_left _ hx) y (List.mem_append_left _ hy),
    List.any_nil, Bool.false_or]

/-! ## Entries that are there up to equality -/

/-- Some of the values is this one, or equal to it. -/
def IsAmong (x : Value) (ys : List Value) : Prop := ∃ y ∈ ys, x = y ∨ x.equal y = true

/-- Each entry of `w` is an entry of `v`, up to equality. -/
def HasEntries (v w : Value) : Prop := ∀ x ∈ w.flat, x.IsAmong v.flat

theorem isAmong_of_mem {x : Value} {ys : List Value} (h : x ∈ ys) : x.IsAmong ys :=
  ⟨x, h, .inl rfl⟩

theorem IsAmong.mono {x : Value} {ys zs : List Value} (h : x.IsAmong ys) (hsubset : ys ⊆ zs) :
    x.IsAmong zs := h.imp fun _ hy => ⟨hsubset hy.1, hy.2⟩

/-- What is there up to equality stays there up to equality, as equality is transitive. -/
theorem IsAmong.trans {x : Value} {ys zs : List Value} (h : x.IsAmong ys)
    (hys : ∀ y ∈ ys, y.IsAmong zs) : x.IsAmong zs := by
  obtain ⟨y, hy, hxy⟩ := h
  obtain ⟨z, hz, hyz⟩ := hys y hy
  refine ⟨z, hz, ?_⟩
  rcases hxy with rfl | hxy
  · exact hyz
  · rcases hyz with rfl | hyz
    · exact .inr hxy
    · exact .inr (equal_trans hxy hyz)

theorem HasEntries.refl (v : Value) : v.HasEntries v := fun _ hx => isAmong_of_mem hx

theorem HasEntries.trans {u v w : Value} (h : u.HasEntries v) (h' : v.HasEntries w) :
    u.HasEntries w := fun x hx => (h' x hx).trans h

/-- What is left out equals a value that is kept. -/
theorem isAmong_appendNew : ∀ {rest kept : List Value} {x : Value}, x ∈ kept ++ rest →
    x.IsAmong (appendNew kept rest)
  | [], kept, x, hx => by
    rw [appendNew]
    rw [List.append_nil] at hx
    exact isAmong_of_mem hx
  | item :: rest, kept, x, hx => by
    rw [appendNew]
    split
    · next hseen =>
      obtain ⟨seen, hmem, hequal⟩ := List.any_eq_true.mp hseen
      rcases List.mem_append.mp hx with hx | hx
      · exact isAmong_appendNew (List.mem_append_left _ hx)
      · rcases List.mem_cons.mp hx with rfl | hx
        · have hitem : x.IsAmong kept := ⟨seen, hmem, .inr hequal⟩
          exact hitem.trans fun y hy => isAmong_appendNew (List.mem_append_left _ hy)
        · exact isAmong_appendNew (List.mem_append_right _ hx)
    · exact isAmong_appendNew (by rwa [List.append_assoc])

/-- A requirement with one more value has the entries of both. -/
theorem isAmong_dedupFlatten_pair {v w x : Value} (hx : x ∈ v.flat ++ w.flat) :
    x.IsAmong (dedupFlatten [v, w]) := by
  rw [dedupFlatten_pair]
  rcases List.mem_append.mp hx with hx | hx
  · have hfirst : x.IsAmong (appendNew [] v.flat) := isAmong_appendNew hx
    exact hfirst.trans fun y hy => isAmong_appendNew (List.mem_append_left _ hy)
  · exact isAmong_appendNew (List.mem_append_right _ hx)

theorem hasEntries_dedupFlatten_left (v w : Value) :
    (Value.ofItems (dedupFlatten [v, w])).HasEntries v := fun _ hx =>
  isAmong_dedupFlatten_pair (List.mem_append_left _ hx)

theorem hasEntries_dedupFlatten_right (v w : Value) :
    (Value.ofItems (dedupFlatten [v, w])).HasEntries w := fun _ hx =>
  isAmong_dedupFlatten_pair (List.mem_append_right _ hx)

/-- Only a text counts as itself. -/
theorem loosely_str_right_iff {name : String} {v : Value} :
    v.loosely (.str name) = true ↔ v = .str name := by
  cases v with
  | str s => simp [loosely]
  | bool b => simp [loosely, asNumber, equalNumbers]
  | int i => simp [loosely, asNumber, equalNumbers]
  | float x => cases x <;> simp [loosely, asNumber, equalNumbers]
  | _ => simp [loosely]

end Value

namespace Alternative

variable {a es : Alternative} {field v : Value} {name : String}

/-! ## Where entries come from -/

/-- A field that is found stands at one place, where another requirement is put. -/
theorem exists_split_of_find? {field known : Value} : ∀ {a : Alternative}, a.IsNamed →
    a.find? field = some known →
      ∃ pre post, a = pre ++ (field, known) :: post ∧ ∀ v, a.put field v = pre ++ (field, v) :: post
  | [], _, h => nomatch h
  | (f, v) :: rest, ha, h => by
    obtain ⟨⟨name, rfl⟩, hrest⟩ := List.forall_mem_cons.mp ha
    rw [find?] at h
    by_cases hf : (Value.str name).loosely field = true
    · rw [if_pos hf] at h
      obtain rfl := Value.loosely_str_iff.mp hf
      cases h
      exact ⟨[], rest, rfl, fun w => by rw [put, if_pos hf]; rfl⟩
    · rw [if_neg hf] at h
      obtain ⟨pre, post, heq, hput⟩ := exists_split_of_find? hrest h
      refine ⟨(.str name, v) :: pre, post, by rw [heq, List.cons_append], fun w => ?_⟩
      rw [put, if_neg hf, hput w, List.cons_append]

theorem mem_of_find? {known : Value} (ha : a.IsNamed) (h : a.find? field = some known) :
    (field, known) ∈ a := by
  obtain ⟨pre, post, heq, _⟩ := exists_split_of_find? ha h
  rw [heq]
  exact List.mem_append_right _ (List.mem_cons_self ..)

/-- All fields are texts, and all entries of a field are known for it. -/
structure IsFrom (E : Value → Value → Prop) (a : Alternative) : Prop where
  named : a.IsNamed
  entries : ∀ e ∈ a, ∀ x ∈ e.2.flat, E e.1 x

variable {E : Value → Value → Prop}

theorem isFrom_nil : IsFrom E [] := ⟨by simp [IsNamed], by simp⟩

theorem isFrom_cons_iff {e : Value × Value} {a : Alternative} : IsFrom E (e :: a) ↔
    ((∃ name, e.1 = .str name) ∧ ∀ x ∈ e.2.flat, E e.1 x) ∧ IsFrom E a := by
  constructor
  · rintro ⟨hnamed, hentries⟩
    obtain ⟨he, ha⟩ := List.forall_mem_cons.mp hnamed
    obtain ⟨hx, hxs⟩ := List.forall_mem_cons.mp hentries
    exact ⟨⟨he, hx⟩, ha, hxs⟩
  · rintro ⟨⟨he, hx⟩, hnamed, hentries⟩
    exact ⟨List.forall_mem_cons.mpr ⟨he, hnamed⟩, List.forall_mem_cons.mpr ⟨hx, hentries⟩⟩

theorem isFrom_append_iff : ∀ {a b : Alternative}, IsFrom E (a ++ b) ↔ IsFrom E a ∧ IsFrom E b
  | [], b => ⟨fun h => ⟨isFrom_nil, h⟩, fun h => h.2⟩
  | e :: rest, b => by
    rw [List.cons_append, isFrom_cons_iff, isFrom_append_iff, isFrom_cons_iff, and_assoc, and_assoc,
      and_assoc]

/-- Another requirement, whose entries are known, is put for a field that is there. -/
theorem IsFrom.put (ha : a.IsFrom E) {known : Value} (hfind : a.find? field = some known)
    (hv : (∀ x ∈ known.flat, E field x) → ∀ x ∈ v.flat, E field x) : (a.put field v).IsFrom E := by
  obtain ⟨pre, post, heq, hput⟩ := exists_split_of_find? ha.named hfind
  rw [heq, isFrom_append_iff, isFrom_cons_iff] at ha
  obtain ⟨hpre, ⟨hname, hknown⟩, hpost⟩ := ha
  rw [hput, isFrom_append_iff, isFrom_cons_iff]
  exact ⟨hpre, ⟨hname, hv hknown⟩, hpost⟩

/-- **Requirements whose entries are known are merged.** -/
theorem IsFrom.require (ha : a.IsFrom E) (hname : ∃ name, field = .str name)
    (hv : ∀ x ∈ v.flat, E field x) : (a.require field v).IsFrom E := by
  unfold Alternative.require
  split
  · next known hfind =>
    refine ha.put hfind fun hknown x hx => ?_
    exact (List.mem_append.mp (Value.dedupFlatten_pair_subset _ _ hx)).elim (hknown x) (hv x)
  · exact isFrom_append_iff.mpr ⟨ha, isFrom_cons_iff.mpr ⟨⟨hname, hv⟩, isFrom_nil⟩⟩

theorem IsFrom.mergeInto (ha : a.IsFrom E) (hes : es.IsFrom E) : (a.mergeInto es).IsFrom E := by
  induction es generalizing a with
  | nil => exact ha
  | cons e rest ih =>
    obtain ⟨⟨hname, hentries⟩, hrest⟩ := isFrom_cons_iff.mp hes
    exact ih (ha.require hname hentries) hrest

/-- Undoing a change leaves some of the entries. -/
theorem IsFrom.undo (ha : a.IsFrom E) (c : Change) : (a.undo c).IsFrom E := by
  unfold Alternative.undo
  cases hfind : a.find? c.field with
  | none => exact ha
  | some current =>
    dsimp only
    split
    · exact ⟨fun e he => ha.named e (List.mem_filter.mp he).1,
        fun e he => ha.entries e (List.mem_filter.mp he).1⟩
    · split
      · exact ha.put hfind fun hcurrent x hx => hcurrent x (List.mem_filter.mp hx).1
      · exact ha

theorem IsFrom.undoSteps (depth : Nat) : ∀ (steps : List Step) {a : Alternative}, a.IsFrom E →
    (a.undoSteps depth steps).IsFrom E
  | [], _, ha => ha
  | s :: rest, a, ha => by
    rw [Alternative.undoSteps]
    split
    · have hfold : ∀ (cs : List Change) {a : Alternative}, a.IsFrom E →
          (cs.foldl Alternative.undo a).IsFrom E := fun cs => by
        induction cs with
        | nil => exact fun h => h
        | cons c cs ih => exact fun h => ih (h.undo c)
      exact IsFrom.undoSteps depth rest (hfold _ ha)
    · exact ha

/-! ## Where entries stay -/

/-- The requirement of a field has all entries of a value, up to equality. -/
def Covers (a : Alternative) (field v : Value) : Prop :=
  ∃ known, a.find? field = some known ∧ known.HasEntries v

theorem Covers.trans {w : Value} (h : a.Covers field v) (hv : v.HasEntries w) :
    a.Covers field w := by
  obtain ⟨known, hfind, hknown⟩ := h
  exact ⟨known, hfind, hknown.trans hv⟩

theorem find?_append (field : Value) (a b : Alternative) :
    find? field (a ++ b) = (find? field a).or (find? field b) := by
  induction a with
  | nil => rfl
  | cons e rest ih =>
    rw [List.cons_append, find?, find?]
    split
    · rfl
    · exact ih

theorem find?_put_self (name : String) (v : Value) (a : Alternative) :
    (a.put (.str name) v).find? (.str name) = some v := by
  induction a with
  | nil => exact find?_cons_self v name []
  | cons e rest ih =>
    rw [put]
    split
    · next h => rw [find?, if_pos h]
    · next h => rw [find?, if_neg h, ih]

theorem find?_put_other {name : String} (hne : field ≠ .str name) (v : Value) (a : Alternative) :
    (a.put field v).find? (.str name) = a.find? (.str name) := by
  induction a with
  | nil => exact if_neg fun h => hne (Value.loosely_str_right_iff.mp h)
  | cons e rest ih =>
    obtain ⟨f, w⟩ := e
    rw [put]
    split
    · next hf =>
      have hother : ¬ f.loosely (.str name) = true := fun h => by
        rw [Value.loosely_str_right_iff.mp h] at hf
        exact hne (Value.loosely_str_iff.mp hf)
      rw [find?, find?, if_neg hother, if_neg hother]
    · rw [find?, ih, find?]

/-- What is required anew is covered. -/
theorem covers_require_self (a : Alternative) (name : String) (v : Value) :
    (a.require (.str name) v).Covers (.str name) v := by
  unfold Alternative.require
  split
  · exact ⟨_, find?_put_self name _ a, Value.hasEntries_dedupFlatten_right _ _⟩
  · next hnone =>
    refine ⟨v, ?_, Value.HasEntries.refl v⟩
    rw [find?_append, hnone, Option.none_or]
    exact find?_cons_self v name []

/-- **What is covered stays covered when more is required.** -/
theorem Covers.require {field' : Value} (h : a.Covers (.str name) v) (w : Value) :
    (a.require field' w).Covers (.str name) v := by
  obtain ⟨known, hfind, hknown⟩ := h
  unfold Alternative.require
  split
  · next known' hfind' =>
    by_cases hfield : field' = .str name
    · subst hfield
      cases hfind.symm.trans hfind'
      exact ⟨_, find?_put_self name _ a, (Value.hasEntries_dedupFlatten_left known w).trans hknown⟩
    · exact ⟨known, (find?_put_other hfield _ a).trans hfind, hknown⟩
  · exact ⟨known, by rw [find?_append, hfind, Option.some_or], hknown⟩

theorem Covers.mergeInto (h : a.Covers (.str name) v) : (a.mergeInto es).Covers (.str name) v := by
  induction es generalizing a with
  | nil => exact h
  | cons e rest ih => exact ih (h.require e.2)

theorem covers_mergeInto {e : Value × Value} (he : e ∈ es) (hname : e.1 = .str name)
    (a : Alternative) : (a.mergeInto es).Covers (.str name) e.2 := by
  induction es generalizing a with
  | nil => cases he
  | cons e' rest ih =>
    rcases List.mem_cons.mp he with rfl | he
    · have hself : (a.require e.1 e.2).Covers (.str name) e.2 := by
        rw [hname]
        exact covers_require_self a name e.2
      exact hself.mergeInto
    · exact ih he (a.require e'.1 e'.2)

/-- A table covers its entries. -/
theorem IsTable.find?_of_mem (ha : a.IsTable) {e : Value × Value} (he : e ∈ a) :
    a.find? e.1 = some e.2 := by
  induction a with
  | nil => cases he
  | cons e' rest ih =>
    obtain ⟨⟨name, hname⟩, hnew, hrest⟩ := isTable_cons_iff.mp ha
    rw [find?]
    rcases List.mem_cons.mp he with rfl | he
    · rw [if_pos (by rw [hname]; exact Value.loosely_str_iff.mpr rfl)]
    · refine (if_neg fun h => hnew (List.mem_map.mpr ⟨e, he, ?_⟩)).trans (ih hrest he)
      rw [hname] at h ⊢
      exact Value.loosely_str_iff.mp h

end Alternative

/-! ## Ranges -/

namespace Growth

variable {g : Growth} {a : Alternative} {E : Value → Value → Prop} {name : String} {v : Value}

/-- All alternatives are on texts, with entries that are known for their fields. -/
def IsFrom (E : Value → Value → Prop) (g : Growth) : Prop := ∀ a ∈ g.alternatives, a.IsFrom E

theorem IsFrom.last (hg : g.IsFrom E) : g.last.IsFrom E := by
  unfold Growth.last
  cases h : g.alternatives.getLast? with
  | none => exact Alternative.isFrom_nil
  | some a => exact hg a (List.mem_of_getLast? h)

theorem IsFrom.unwound (hg : g.IsFrom E) : g.unwound.IsFrom E := by
  unfold Growth.unwound
  split
  · split
    · exact hg.last
    · exact Alternative.IsFrom.undoSteps _ _ hg.last
  · exact hg.last

theorem IsFrom.add (hg : g.IsFrom E) (s : Step) (ha : a.IsFrom E) : (g.add s a).IsFrom E :=
  List.forall_mem_append.mpr ⟨hg, List.forall_mem_singleton.mpr ha⟩

/-- **No entry comes in but those of the alternative.** -/
theorem IsFrom.attach (hg : g.IsFrom E) (ha : a.IsFrom E) (b : Branch) (parent : Option Branch)
    (depth : Nat) : (g.attach b parent depth a).IsFrom E := by
  unfold Growth.attach
  split
  · exact hg.add _ ha
  · split
    · refine hg.add _ ?_
      split
      · exact hg.unwound.mergeInto ha
      · exact ha
    · exact List.forall_mem_append.mpr ⟨fun a' ha' => hg a' (List.dropLast_subset _ ha'),
        List.forall_mem_singleton.mpr (hg.last.mergeInto ha)⟩

/-- Some alternative covers a value of a field. -/
def Covers (g : Growth) (field v : Value) : Prop := ∃ a ∈ g.alternatives, a.Covers field v

theorem Covers.add (h : g.Covers (.str name) v) (s : Step) (a : Alternative) :
    (g.add s a).Covers (.str name) v := h.imp fun _ ha' => ⟨List.mem_append_left _ ha'.1, ha'.2⟩

theorem covers_add (g : Growth) (s : Step) (h : a.Covers (.str name) v) :
    (g.add s a).Covers (.str name) v :=
  ⟨a, List.mem_append_right _ (List.mem_singleton_self a), h⟩

/-- **What some alternative covers stays covered.** -/
theorem Covers.attach (h : g.Covers (.str name) v) (b : Branch) (parent : Option Branch)
    (depth : Nat) (a : Alternative) : (g.attach b parent depth a).Covers (.str name) v := by
  unfold Growth.attach
  split
  · exact h.add _ _
  · split
    · exact h.add _ _
    · obtain ⟨a', ha', hcovers⟩ := h
      have hne : g.alternatives ≠ [] := List.ne_nil_of_mem ha'
      rw [← List.dropLast_concat_getLast hne] at ha'
      rcases List.mem_append.mp ha' with ha' | ha'
      · exact ⟨a', List.mem_append_left _ ha', hcovers⟩
      · have hlast : g.last = a' := by
          rw [Growth.last, List.getLast?_eq_some_getLast hne, List.mem_singleton.mp ha']
          rfl
        refine ⟨_, List.mem_append_right _ (List.mem_singleton_self _), ?_⟩
        rw [hlast]
        exact hcovers.mergeInto

/-- **What is attached is covered.** -/
theorem covers_attach (g : Growth) (b : Branch) (parent : Option Branch) (depth : Nat)
    (ha : a.IsTable) {e : Value × Value} (he : e ∈ a) :
    (g.attach b parent depth a).Covers e.1 e.2 := by
  obtain ⟨name, hname⟩ := ha.named e he
  have hself : a.Covers (.str name) e.2 :=
    ⟨e.2, hname ▸ ha.find?_of_mem he, Value.HasEntries.refl e.2⟩
  have hmerged : ∀ a' : Alternative, (a'.mergeInto a).Covers (.str name) e.2 :=
    Alternative.covers_mergeInto he hname
  rw [hname]
  unfold Growth.attach
  split
  · exact covers_add g _ hself
  · split
    · refine covers_add g _ ?_
      split
      · exact hmerged _
      · exact hself
    · exact ⟨_, List.mem_append_right _ (List.mem_singleton_self _), hmerged _⟩

end Growth

end Verdict
