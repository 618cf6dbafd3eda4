import Verdict.Proofs.Mutation.Searched

/-!
# Proofs/Mutation/Alike — calls for the same criteria

    call 0        call 1          call 2
    copies    │   copies + Δ   │  copies + 2Δ   │ …     marks

Calls for the same criteria that are placed together have the same copies, with their marks moved on by
what one call takes (`Mutator.placeCalls_replicate`).  So the copies of all calls but the first are copies
beside the desk of the first, each of which has the containers of one of that desk, moved on
(`Desk.layout`).
-/

namespace Verdict

/-- **Copies that are made later are the same**, with their marks moved on. -/
theorem WorkingCopy.ofEach_later (call call' k : Nat) (cs : List Value) : ∀ next,
    ofEach call' (next + k) cs =
      ((ofEach call next cs).1.map fun c => ⟨call', c.value.rename (· + k)⟩,
        (ofEach call next cs).2 + k) := by
  induction cs with
  | nil => exact fun _ => rfl
  | cons c rest ih =>
    intro next
    have hfree : Value.TakesFree (· + k) next (next + k) := fun j => by
      dsimp only
      omega
    obtain ⟨hvalue, hnext⟩ := Value.copied_eq_rename hfree c
    have hlater : (c.copied next).2 + k = (c.copied (next + k)).2 := hnext 0
    rw [ofEach, ofEach, ← hlater, ih, hvalue]
    rfl

namespace Mutator

/-! ## Slots -/

/-- The slots of criteria, where the first copy has a certain number. -/
def slots (m : Mutator) : Nat → List Value → List CriteriaSlot
  | _, [] => []
  | first, c :: rest =>
    if m.isCopied c then ⟨c, some first⟩ :: m.slots (first + 1) rest
    else ⟨c, none⟩ :: m.slots first rest

variable {m : Mutator}

theorem placeItems_snd (call : Nat) (items : List Value) : ∀ d : Desk,
    (m.placeItems call d items).2 = m.slots d.copies.length items := by
  induction items with
  | nil => exact fun _ => rfl
  | cons c rest ih =>
    intro d
    rw [placeItems_cons, slots, ih]
    rcases m.place_cases call d c with ⟨hcopied, -, heq⟩ | ⟨hcopied, heq⟩ <;> rw [heq, hcopied]
    · rw [if_pos rfl, List.length_append, List.length_singleton]
    · rw [if_neg Bool.false_ne_true]

theorem slots_later (k : Nat) (items : List Value) : ∀ first, m.slots (k + first) items =
    (m.slots first items).map fun s => { s with copy? := s.copy?.map (k + ·) } := by
  induction items with
  | nil => exact fun _ => rfl
  | cons c rest ih =>
    intro first
    rw [slots, slots, Nat.add_assoc, ih, ih]
    split <;> rfl

/-- A slot is of one of the copies. -/
theorem lt_of_mem_slots {s : CriteriaSlot} {i : Nat} (hi : s.copy? = some i) (items : List Value) :
    ∀ {first}, s ∈ m.slots first items → i < first + (items.filter m.isCopied).length := by
  induction items with
  | nil => exact fun h => absurd h List.not_mem_nil
  | cons c rest ih =>
    intro first h
    rw [slots] at h
    by_cases hcopied : m.isCopied c = true
    · rw [if_pos hcopied] at h
      rw [List.filter_cons_of_pos hcopied, List.length_cons]
      rcases List.mem_cons.mp h with rfl | h
      · obtain rfl := Option.some.inj hi
        omega
      · have hlt := ih h
        omega
    · rw [if_neg hcopied] at h
      rw [List.filter_cons_of_neg hcopied]
      rcases List.mem_cons.mp h with rfl | h
      · cases hi
      · exact ih h

/-! ## Placing -/

/-- The items of criteria that get a copy. -/
def copied (m : Mutator) (criteria : Value) : List Value := criteria.criteria.filter m.isCopied

/-- Whether criteria are a list of criteria. -/
def isList : Value → Bool
  | .list .. => true
  | _ => false

theorem placeCall_eq (m : Mutator) (call : Nat) (d : Desk) (criteria : Value) :
    m.placeCall call d criteria = ((m.placeItems call d criteria.criteria).1,
      ⟨isList criteria, m.slots d.copies.length criteria.criteria⟩) := by
  rw [← placeItems_snd call, placeCall.eq_def]
  cases criteria <;> rfl

/-- The copies of criteria that are mutated alone. -/
def copiesOf (m : Mutator) (criteria : Value) : List WorkingCopy :=
  (WorkingCopy.ofEach 0 m.nextMark (m.copied criteria)).1

/-- How many marks the copies of criteria take. -/
def width (m : Mutator) (criteria : Value) : Nat :=
  (WorkingCopy.ofEach 0 m.nextMark (m.copied criteria)).2 - m.nextMark

/-- The copies of criteria in a later call. -/
def copiesIn (m : Mutator) (criteria : Value) (call : Nat) : List WorkingCopy :=
  (m.copiesOf criteria).map fun c => ⟨call, c.value.rename (· + call * m.width criteria)⟩

end Mutator

theorem WorkingCopy.le_ofEach (call : Nat) (cs : List Value) : ∀ next, next ≤ (ofEach call next cs).2 := by
  induction cs with
  | nil => exact fun next => Nat.le_refl next
  | cons c rest ih => exact fun next => Nat.le_trans (Value.marks_copied next c).1 (ih _)

namespace Mutator

variable {m : Mutator} {criteria : Value}

theorem ofEach_copied (m : Mutator) (criteria : Value) (call : Nat) :
    WorkingCopy.ofEach call (m.nextMark + call * m.width criteria) (m.copied criteria) =
      (m.copiesIn criteria call, m.nextMark + (call + 1) * m.width criteria) := by
  have hle := WorkingCopy.le_ofEach 0 (m.copied criteria) m.nextMark
  rw [WorkingCopy.ofEach_later 0 call]
  refine Prod.ext rfl ?_
  dsimp only
  rw [Nat.succ_mul, width]
  omega

theorem opened_of_faultless (h : ∀ c ∈ criteria.criteria, m.placeFault? c = none) :
    m.opened criteria = ⟨m.copiesOf criteria, [], m.cache, m.nextMark + m.width criteria, []⟩ := by
  have hnone : criteria.criteria.filterMap (fun c => (m.placeFault? c).map (Prod.mk 0)) = [] :=
    List.filterMap_eq_nil_iff.mpr fun c hc => by rw [h c hc, Option.map_none]
  have hle := WorkingCopy.le_ofEach 0 (m.copied criteria) m.nextMark
  rw [opened_eq, placeItems_fst, hnone]
  refine (Desk.mk.injEq ..).mpr ⟨rfl, rfl, rfl, ?_, rfl⟩
  rw [width]
  exact (Nat.add_sub_of_le hle).symm

/-- **Calls for the same criteria have the same copies**, with their marks moved on. -/
theorem placeCalls_replicate (h : ∀ c ∈ criteria.criteria, m.placeFault? c = none) (k : Nat) :
    ∀ {d : Desk} {call : Nat}, d.nextMark = m.nextMark + call * m.width criteria →
    d.copies.length = call * (m.copiesOf criteria).length →
    m.placeCalls call d (List.replicate k criteria) =
      ({ d with
        copies := d.copies ++ (List.range' call k).flatMap (m.copiesIn criteria)
        nextMark := m.nextMark + (call + k) * m.width criteria },
        (List.range' call k).map fun call => ⟨isList criteria,
          m.slots (call * (m.copiesOf criteria).length) criteria.criteria⟩) := by
  induction k with
  | zero =>
    intro d call hnext hlength
    refine Prod.ext ((Desk.mk.injEq ..).mpr ⟨(List.append_nil _).symm, rfl, rfl, ?_, rfl⟩) rfl
    rw [hnext, Nat.add_zero]
  | succ k ih =>
    intro d call hnext hlength
    have hnone : criteria.criteria.filterMap (fun c => (m.placeFault? c).map (Prod.mk call)) = [] :=
      List.filterMap_eq_nil_iff.mpr fun c hc => by rw [h c hc, Option.map_none]
    have hplaced : (m.placeItems call d criteria.criteria).1 =
        { d with
          copies := d.copies ++ m.copiesIn criteria call
          nextMark := m.nextMark + (call + 1) * m.width criteria } := by
      have hcopied : criteria.criteria.filter m.isCopied = m.copied criteria := rfl
      rw [placeItems_fst, hnone, hnext, hcopied, ofEach_copied]
      rfl
    have hnext' : Desk.nextMark { d with
      copies := d.copies ++ m.copiesIn criteria call
      nextMark := m.nextMark + (call + 1) * m.width criteria } =
        m.nextMark + (call + 1) * m.width criteria := rfl
    have hlater := ih hnext' (by
      rw [List.length_append, hlength, copiesIn, List.length_map, Nat.succ_mul])
    rw [List.replicate_succ, placeCalls, placeCall_eq, hplaced]
    dsimp only
    rw [hlater, List.range'_succ, List.flatMap_cons, List.map_cons, hlength]
    refine Prod.ext ((Desk.mk.injEq ..).mpr ⟨List.append_assoc .., rfl, rfl, ?_, rfl⟩) rfl
    rw [Nat.add_assoc call, Nat.add_comm 1]

/-! ## The copies of later calls -/

/-- The marks of the copies of criteria are new ones. -/
theorem marks_copiesOf {i n : Nat} {c : WorkingCopy} (hc : (m.copiesOf criteria)[i]? = some c)
    (hn : n ∈ c.value.marks) : m.nextMark ≤ n ∧ n < m.nextMark + m.width criteria := by
  obtain ⟨shift, owner, hcopies⟩ := m.exists_areCopies (m.copied criteria)
  have hlt : i < (m.copied criteria).length := hcopies.length ▸ (List.getElem?_eq_some_iff.mp hc).1
  have hcs := List.getElem?_eq_getElem hlt
  obtain rfl := Option.some.inj (hc.symm.trans (hcopies.copy hcs))
  have hle := WorkingCopy.le_ofEach 0 (m.copied criteria) m.nextMark
  have hnext := hcopies.lt_next hcs hn
  have hfirst := (mem_marks_shifted hn).1
  rw [width]
  omega

/-- Each mark is of one copy. -/
theorem eq_of_mem_copiesOf {i j n : Nat} {c c' : WorkingCopy}
    (hc : (m.copiesOf criteria)[i]? = some c) (hc' : (m.copiesOf criteria)[j]? = some c')
    (hn : n ∈ c.value.marks) (hn' : n ∈ c'.value.marks) : i = j := by
  obtain ⟨shift, owner, hcopies⟩ := m.exists_areCopies (m.copied criteria)
  have howner : ∀ {i : Nat} {c : WorkingCopy}, (m.copiesOf criteria)[i]? = some c →
      n ∈ c.value.marks → owner n = i := fun {i c} hc hn => by
    have hlt : i < (m.copied criteria).length :=
      hcopies.length ▸ (List.getElem?_eq_some_iff.mp hc).1
    have hcs := List.getElem?_eq_getElem hlt
    obtain rfl := Option.some.inj (hc.symm.trans (hcopies.copy hcs))
    exact hcopies.owner hcs n hn
  exact (howner hc hn).symm.trans (howner hc' hn')

/-- The marks of a copy of criteria. -/
def marksOf (m : Mutator) (criteria : Value) (i : Nat) : List Nat :=
  ((m.copiesOf criteria)[i]?.map fun c => c.value.marks).getD []

theorem mem_marksOf {i n : Nat} : n ∈ m.marksOf criteria i ↔
    ∃ c, (m.copiesOf criteria)[i]? = some c ∧ n ∈ c.value.marks := by
  rw [marksOf]
  cases (m.copiesOf criteria)[i]? <;> simp

theorem mem_marksOf_bounds {i n : Nat} (h : n ∈ m.marksOf criteria i) :
    m.nextMark ≤ n ∧ n < m.nextMark + m.width criteria := by
  obtain ⟨c, hc, hn⟩ := mem_marksOf.mp h
  exact marks_copiesOf hc hn

theorem eq_of_mem_marksOf {i j n : Nat} (h : n ∈ m.marksOf criteria i)
    (h' : n ∈ m.marksOf criteria j) : i = j := by
  obtain ⟨c, hc, hn⟩ := mem_marksOf.mp h
  obtain ⟨c', hc', hn'⟩ := mem_marksOf.mp h'
  exact eq_of_mem_copiesOf hc hc' hn hn'

theorem shift_le_of_lt {a b w : Nat} (h : a < b) : (a + 1) * w + w ≤ (b + 1) * w := by
  rw [← Nat.succ_mul]
  exact Nat.mul_le_mul_right w (by omega)

/-- **The copies of further calls for the same criteria** are beside those of the first one. -/
def layout (m : Mutator) (criteria : Value) (calls : Nat) : Layout where
  own := m.marksOf criteria
  size := calls * (m.copiesOf criteria).length
  model := fun e => e % (m.copiesOf criteria).length
  shift := fun e => (e / (m.copiesOf criteria).length + 1) * m.width criteria
  inside := eq_of_mem_marksOf
  apart := fun {i e n p} hn _ hp heq => by
    have hlt := (mem_marksOf_bounds hn).2
    have hle := (mem_marksOf_bounds hp).1
    have hshift : m.width criteria ≤ (e / (m.copiesOf criteria).length + 1) * m.width criteria :=
      Nat.le_mul_of_pos_left _ (Nat.succ_pos _)
    omega
  beside := fun {e e' p p'} _ _ hp hp' heq => by
    obtain ⟨hle, hlt⟩ := mem_marksOf_bounds hp
    obtain ⟨hle', hlt'⟩ := mem_marksOf_bounds hp'
    have hcall : e / (m.copiesOf criteria).length = e' / (m.copiesOf criteria).length := by
      rcases Nat.lt_trichotomy (e / (m.copiesOf criteria).length)
        (e' / (m.copiesOf criteria).length) with hcall | hcall | hcall
      · have := shift_le_of_lt (w := m.width criteria) hcall
        omega
      · exact hcall
      · have := shift_le_of_lt (w := m.width criteria) hcall
        omega
    rw [hcall] at heq
    obtain rfl : p = p' := Nat.add_right_cancel heq
    rw [← Nat.div_add_mod e (m.copiesOf criteria).length,
      ← Nat.div_add_mod e' (m.copiesOf criteria).length, hcall, eq_of_mem_marksOf hp hp']

/-- A copy of a further call is beside the desk, and models itself on its namesake of the first one. -/
theorem layout_place {calls call i : Nat} (hcall : call < calls)
    (hi : i < (m.copiesOf criteria).length) :
    call * (m.copiesOf criteria).length + i < (m.layout criteria calls).size ∧
      (m.layout criteria calls).model (call * (m.copiesOf criteria).length + i) = i := by
  dsimp only [layout]
  constructor
  · have hle := Nat.mul_le_mul_right (m.copiesOf criteria).length hcall
    rw [Nat.succ_mul] at hle
    omega
  · rw [Nat.mul_comm, Nat.mul_add_mod, Nat.mod_eq_of_lt hi]

/-- What is where in lists of one length that are appended. -/
theorem getElem?_flatMap_range' {α : Type} {f : Nat → List α} {size : Nat}
    (hsize : ∀ k, (f k).length = size) (count : Nat) : ∀ {first e : Nat},
    e < count * size → ((List.range' first count).flatMap f)[e]? = (f (first + e / size))[e % size]? := by
  induction count with
  | zero => exact fun h => absurd h (by simp)
  | succ count ih =>
    intro first e h
    rw [List.range'_succ, List.flatMap_cons]
    rw [Nat.succ_mul] at h
    by_cases he : e < size
    · rw [List.getElem?_append_left (hsize first ▸ he), Nat.div_eq_of_lt he, Nat.mod_eq_of_lt he,
        Nat.add_zero]
    · have hle : size ≤ e := Nat.not_lt.mp he
      have hpos : 0 < size := by
        rcases Nat.eq_zero_or_pos size with rfl | hpos
        · omega
        · exact hpos
      rw [List.getElem?_append_right (hsize first ▸ hle), hsize, ih (by omega),
        Nat.div_eq_sub_div hpos hle, Nat.mod_eq_sub_mod hle, Nat.add_assoc, Nat.add_comm 1]

theorem length_copiesIn (m : Mutator) (criteria : Value) (call : Nat) :
    (m.copiesIn criteria call).length = (m.copiesOf criteria).length := List.length_map ..

/-- The copies of further calls. -/
def copiesBeside (m : Mutator) (criteria : Value) (calls : Nat) : List WorkingCopy :=
  (List.range' 1 calls).flatMap (m.copiesIn criteria)

theorem length_copiesBeside (m : Mutator) (criteria : Value) (calls : Nat) :
    (m.copiesBeside criteria calls).length = calls * (m.copiesOf criteria).length := by
  rw [copiesBeside, List.length_flatMap]
  simp [length_copiesIn]

/-- A copy of a further call is one of the first call, with its marks moved on. -/
theorem getElem?_copiesBeside {calls e : Nat} {x : WorkingCopy}
    (hx : (m.copiesBeside criteria calls)[e]? = some x) :
    e / (m.copiesOf criteria).length < calls ∧ ∃ c,
      (m.copiesOf criteria)[(m.layout criteria calls).model e]? = some c ∧
      x.value = c.value.rename (· + (m.layout criteria calls).shift e) := by
  have he : e < calls * (m.copiesOf criteria).length :=
    length_copiesBeside m criteria calls ▸ (List.getElem?_eq_some_iff.mp hx).1
  rw [copiesBeside, getElem?_flatMap_range' (length_copiesIn m criteria) calls he, copiesIn,
    List.getElem?_map] at hx
  obtain ⟨c, hc, rfl⟩ := Option.map_eq_some_iff.mp hx
  refine ⟨Nat.div_lt_of_lt_mul (Nat.mul_comm .. ▸ he), c, hc, ?_⟩
  rw [Nat.add_comm 1]
  rfl

/-- The marks of the copies of further calls follow those of the first one. -/
theorem layout_owns_bounds {calls e n : Nat} (h : (m.layout criteria calls).Owns e n) :
    m.nextMark ≤ n ∧ n < m.nextMark + (calls + 1) * m.width criteria := by
  obtain ⟨he, p, hp, rfl⟩ := h
  obtain ⟨hle, hlt⟩ := mem_marksOf_bounds hp
  have hcall : e / (m.copiesOf criteria).length + 1 ≤ calls :=
    Nat.div_lt_of_lt_mul (Nat.mul_comm .. ▸ he)
  have hshift := Nat.mul_le_mul_right (m.width criteria) hcall
  have hshift' : (m.layout criteria calls).shift e =
      (e / (m.copiesOf criteria).length + 1) * m.width criteria := rfl
  rw [Nat.succ_mul calls]
  omega

/-- **The copies of further calls mirror those of the first one.** -/
theorem reflects_opened {kept : List Nat} (criteria : Value) (calls : Nat)
    (hkept : ∀ n ∈ kept, n < m.nextMark) (hcache : ∀ e ∈ m.cache, ∀ n ∈ e.2.marks, n ∈ kept) :
    Desk.Reflects (m.layout criteria calls) kept (fun _ => [])
      ⟨m.copiesOf criteria, [], m.cache, m.nextMark + (calls + 1) * m.width criteria, []⟩
      (m.copiesBeside criteria calls) where
  calls := fun _ hc => WorkingCopy.call_of_mem_ofEach hc
  copies := List.forall_mem_nil _
  places := List.forall_mem_nil _
  counts := List.forall_mem_nil _
  transforms := List.forall_mem_nil _
  owned :=
    { copies := fun hc _ hn => .inl (mem_marksOf.mpr ⟨_, hc, hn⟩)
      inputs := List.forall_mem_nil _
      cache := fun e he n hn => List.mem_append_left _ (hcache e he n hn) }
  size := length_copiesBeside m criteria calls
  mirrors := fun hx => by
    obtain ⟨-, c, hc, hvalue⟩ := getElem?_copiesBeside hx
    rw [hvalue]
    exact ⟨c, hc, .of_rename ..⟩
  areOwned := fun e x hx n hn => by
    obtain ⟨-, c, hc, hvalue⟩ := getElem?_copiesBeside hx
    rw [hvalue, Value.marks_rename] at hn
    obtain ⟨p, hp, rfl⟩ := List.mem_map.mp hn
    refine .inl ⟨?_, p, mem_marksOf.mpr ⟨c, hc, hp⟩, rfl⟩
    have hlt := (List.getElem?_eq_some_iff.mp hx).1
    rwa [length_copiesBeside] at hlt
  avoids := fun hn hheld => by
    rcases List.mem_append.mp hheld with hheld | hheld
    · exact absurd (hkept _ hheld) (Nat.not_lt.mpr (layout_owns_bounds hn).1)
    · cases hheld
  below := fun hn => (layout_owns_bounds hn).2
  faults := rfl

end Mutator

end Verdict
