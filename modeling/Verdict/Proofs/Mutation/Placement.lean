import Verdict.Proofs.Mutation.Desk
import Verdict.Proofs.Value.Marks

/-!
# Proofs/Mutation/Placement — criteria of one call on a desk

    items ──place──▸ copies of the objects with a field to change ──finish──▸ results

Mutating criteria, or a list of them, is placing items on an empty desk, letting all runs come to
their end, and collecting (`Mutator.together`).  The working copies are those that the criteria have
alone, with their marks moved on (`AreCopies`).
-/

namespace Verdict

/-- Working copies of values for one call, one after another, and the next free mark. -/
def WorkingCopy.ofEach (call : Nat) : Nat → List Value → List WorkingCopy × Nat
  | next, [] => ([], next)
  | next, c :: rest =>
    (⟨call, (c.copied next).1⟩ :: (ofEach call (c.copied next).2 rest).1,
      (ofEach call (c.copied next).2 rest).2)

namespace Mutator

/-- Whether criteria get a working copy. -/
def isCopied (m : Mutator) (c : Value) : Bool :=
  match m.needsCopy c with
  | .ok b => b
  | .error _ => false

/-- The fault of placing criteria. -/
def placeFault? (m : Mutator) (c : Value) : Option Fault :=
  match m.needsCopy c with
  | .ok _ => none
  | .error f => some f

/-- What comes of items that are mutated together, as one call. -/
def together (m : Mutator) (items : List Value) : Except Fault (List Value) :=
  let (d, slots) := m.placeItems 0 ⟨[], [], m.cache, m.nextMark, []⟩ items
  let d := (d.lookUpAll m.transforms).finish m.caching
  match Entries.find? 0 d.faults with
  | some f => .error f
  | none => .ok (slots.map (result d))

variable {m : Mutator}

/-! ## Calls -/

/-- **A call comes to what its desk holds at the end**, once its criteria are put there. -/
theorem mutate_of_placeCall {c : Value} {d : Desk} {call : MutationCall}
    (h : m.placeCall 0 ⟨[], [], m.cache, m.nextMark, []⟩ c = (d, call)) :
    (m.mutate c).1 = outcome ((d.lookUpAll m.transforms).finish m.caching) 0 call := by
  rw [mutate, run, placeCalls, h]
  dsimp only
  rw [placeCalls]
  dsimp only
  rw [List.mapIdx_cons, List.mapIdx_nil, List.headD_cons]

/-- Mutating a list is mutating its items together. -/
theorem mutate_list (mark : Mark) (items : List Value) : (m.mutate (.list mark items)).1 =
    (m.together items).map fun values => ⟨.ofItems values, false⟩ := by
  rw [mutate_of_placeCall rfl, together, outcome]
  dsimp only
  cases Entries.find? 0 _ <;> rfl

/-- Criteria that are no list are the only item of their call. -/
theorem placeCall_of_single {c : Value} (h : ∀ mark items, c ≠ .list mark items) (call : Nat)
    (d : Desk) : m.placeCall call d c =
      ((m.placeItems call d [c]).1, ⟨false, (m.placeItems call d [c]).2⟩) := by
  unfold placeCall
  split
  · next mark items => exact absurd rfl (h mark items)
  · rfl

/-- Mutating criteria is mutating them together with nothing else. -/
theorem mutate_single {c : Value} (h : ∀ mark items, c ≠ .list mark items) :
    (m.mutate c).1.map Mutated.value = (m.together [c]).map fun values => values.headD .null := by
  rw [mutate_of_placeCall (placeCall_of_single h 0 _), together, outcome]
  dsimp only
  cases Entries.find? 0 _ <;> rfl

/-! ## Placing -/

/-- **Placing criteria adds their copy, or the fault if there is one.** -/
theorem place_cases (m : Mutator) (call : Nat) (d : Desk) (c : Value) :
    (m.isCopied c = true ∧ m.placeFault? c = none ∧ m.place call d c =
      ({ d with
        copies := d.copies ++ [⟨call, (c.copied d.nextMark).1⟩]
        nextMark := (c.copied d.nextMark).2 }, ⟨c, some d.copies.length⟩)) ∨
    (m.isCopied c = false ∧ m.place call d c =
      ({ d with
        faults := ((m.placeFault? c).map (Prod.mk call)).toList.foldl Desk.withFault d.faults },
        ⟨c, none⟩)) := by
  rw [place, isCopied, placeFault?]
  cases m.needsCopy c with
  | error f => exact .inr ⟨rfl, congrArg (·, _) (Desk.fail_eq d call f)⟩
  | ok b =>
    cases b with
    | false => exact .inr ⟨rfl, rfl⟩
    | true => exact .inl ⟨rfl, rfl, rfl⟩

theorem placeItems_cons (call : Nat) (d : Desk) (c : Value) (rest : List Value) :
    m.placeItems call d (c :: rest) = ((m.placeItems call (m.place call d c).1 rest).1,
      (m.place call d c).2 :: (m.placeItems call (m.place call d c).1 rest).2) := rfl

theorem placeItems_fst (call : Nat) (items : List Value) : ∀ d : Desk,
    (m.placeItems call d items).1 = { d with
      copies := d.copies ++ (WorkingCopy.ofEach call d.nextMark (items.filter m.isCopied)).1
      nextMark := (WorkingCopy.ofEach call d.nextMark (items.filter m.isCopied)).2
      faults := (items.filterMap fun c => (m.placeFault? c).map (Prod.mk call)).foldl
        Desk.withFault d.faults } := by
  induction items with
  | nil =>
    intro d
    rw [List.filter_nil, WorkingCopy.ofEach, List.append_nil]
    rfl
  | cons c rest ih =>
    intro d
    rw [placeItems_cons, ih]
    rcases m.place_cases call d c with ⟨hcopied, hfault, heq⟩ | ⟨hcopied, heq⟩ <;> rw [heq]
    · rw [List.filter_cons_of_pos hcopied, List.filterMap_cons, hfault, WorkingCopy.ofEach]
      simp
    · rw [List.filter_cons_of_neg (by rw [hcopied]; exact Bool.false_ne_true),
        List.filterMap_cons]
      cases m.placeFault? c <;> rfl

/-- What a desk holds for the items that were placed on it, by what it holds for their copies. -/
theorem map_result_placeItems (final : Value → Value) (d' : Desk) (call : Nat)
    (items : List Value) : ∀ d : Desk,
    (∀ i c, (items.filter m.isCopied)[i]? = some c →
      ∃ copy, d'.copies[d.copies.length + i]? = some copy ∧ copy.value.unmarked = final c) →
    (m.placeItems call d items).2.map (result d') =
      items.map fun c => if m.isCopied c then final c else c := by
  induction items with
  | nil => exact fun _ _ => rfl
  | cons c rest ih =>
    intro d h
    rw [placeItems_cons, List.map_cons, List.map_cons]
    rcases m.place_cases call d c with ⟨hcopied, -, heq⟩ | ⟨hcopied, heq⟩ <;> rw [heq, hcopied]
    · rw [List.filter_cons_of_pos hcopied] at h
      obtain ⟨copy, hcopy, hfinal⟩ := h 0 c rfl
      refine congr (congrArg _ ?_) (ih _ fun i c' hc' => ?_)
      · rw [result, Option.bind_some, ← Nat.add_zero d.copies.length, hcopy]
        exact hfinal
      · rw [List.length_append, List.length_singleton, Nat.add_assoc, Nat.add_comm 1]
        exact h (i + 1) c' hc'
    · rw [List.filter_cons_of_neg (by rw [hcopied]; exact Bool.false_ne_true)] at h
      exact congr (congrArg _ rfl) (ih _ h)

/-! ## The copies of criteria -/

/-- The working copy of criteria that are mutated alone. -/
def copyOf (m : Mutator) (c : Value) : Value := (c.copied m.nextMark).1

/-- Working copies that are those of criteria alone, each with its marks moved on, to marks of its
own. -/
structure AreCopies (m : Mutator) (cs : List Value) (copies : List WorkingCopy) (next : Nat)
    (shift owner : Nat → Nat) : Prop where
  length : copies.length = cs.length
  copy {i : Nat} {c : Value} : cs[i]? = some c →
    copies[i]? = some ⟨0, (m.copyOf c).rename (· + shift i)⟩
  below {i : Nat} {c : Value} : cs[i]? = some c → (c.copied m.nextMark).2 + shift i ≤ next
  owner {i : Nat} {c : Value} : cs[i]? = some c →
    ∀ n ∈ ((m.copyOf c).rename (· + shift i)).marks, owner n = i

theorem shift_injective (k : Nat) : Function.Injective fun n : Nat => n + k :=
  fun _ _ h => Nat.add_right_cancel h

theorem mem_marks_shifted {m : Mutator} {c : Value} {k n : Nat}
    (h : n ∈ ((m.copyOf c).rename (· + k)).marks) :
    m.nextMark + k ≤ n ∧ n < (c.copied m.nextMark).2 + k := by
  rw [Value.marks_rename] at h
  obtain ⟨n₀, hn₀, rfl⟩ := List.mem_map.mp h
  obtain ⟨hle, hlt⟩ := (Value.marks_copied m.nextMark c).2 n₀ hn₀
  exact ⟨Nat.add_le_add_right hle k, Nat.add_lt_add_right hlt k⟩

theorem AreCopies.lt_next {cs : List Value} {copies : List WorkingCopy} {next : Nat}
    {shift owner : Nat → Nat} (h : m.AreCopies cs copies next shift owner) {i n : Nat} {c : Value}
    (hc : cs[i]? = some c) (hn : n ∈ ((m.copyOf c).rename (· + shift i)).marks) : n < next :=
  Nat.lt_of_lt_of_le (mem_marks_shifted hn).2 (h.below hc)

theorem eq_of_getElem?_singleton {c c' : Value} {i : Nat} (h : [c][i]? = some c') :
    i = 0 ∧ c' = c := by
  rw [List.getElem?_singleton] at h
  split at h
  · next hi => exact ⟨hi, (Option.some.inj h).symm⟩
  · cases h

/-- Criteria alone have the copy that they have alone. -/
theorem areCopies_single (m : Mutator) (c : Value) :
    m.AreCopies [c] [⟨0, m.copyOf c⟩] (c.copied m.nextMark).2 (fun _ => 0) fun _ => 0 := by
  refine ⟨rfl, fun h => ?_, fun h => ?_, fun h n _ => (eq_of_getElem?_singleton h).1.symm⟩ <;>
    obtain ⟨rfl, rfl⟩ := eq_of_getElem?_singleton h
  · exact congrArg (fun v => some (WorkingCopy.mk 0 v)) (Value.rename_id _).symm
  · exact Nat.le_refl _

/-- One more copy in front of others, with marks below theirs. -/
theorem AreCopies.cons {c : Value} {rest : List Value} {copies : List WorkingCopy} {next k : Nat}
    {shift owner : Nat → Nat} (h : m.AreCopies rest copies next shift owner)
    (hbelow : (c.copied m.nextMark).2 + k ≤ next)
    (hshift : ∀ i, (c.copied m.nextMark).2 + k ≤ m.nextMark + shift i) :
    m.AreCopies (c :: rest) (⟨0, (m.copyOf c).rename (· + k)⟩ :: copies) next
      (fun i => Nat.casesOn i k shift)
      fun n => if n < (c.copied m.nextMark).2 + k then 0 else owner n + 1 where
  length := congrArg (· + 1) h.length
  copy := fun {i c'} hc' => by
    cases i with
    | zero =>
      obtain rfl := Option.some.inj hc'
      rfl
    | succ i => exact h.copy hc'
  below := fun {i c'} hc' => by
    cases i with
    | zero =>
      obtain rfl := Option.some.inj hc'
      exact hbelow
    | succ i => exact h.below hc'
  owner := fun {i c'} hc' n hn => by
    cases i with
    | zero =>
      obtain rfl := Option.some.inj hc'
      exact if_pos (mem_marks_shifted hn).2
    | succ i =>
      have hge : m.nextMark + shift i ≤ n := (mem_marks_shifted hn).1
      rw [if_neg (Nat.not_lt.mpr (Nat.le_trans (hshift i) hge)), h.owner hc' n hn]

/-- **Values that are copied one after another get the copies they have alone**, with their marks
moved on. -/
theorem exists_areCopies (m : Mutator) (cs : List Value) : ∃ shift owner,
    m.AreCopies cs (WorkingCopy.ofEach 0 m.nextMark cs).1 (WorkingCopy.ofEach 0 m.nextMark cs).2
      shift owner := by
  -- Generalized over the mark where the copies begin, as later ones begin where the first one ends.
  suffices h : ∀ k, ∃ shift owner,
      m.AreCopies cs (WorkingCopy.ofEach 0 (m.nextMark + k) cs).1
        (WorkingCopy.ofEach 0 (m.nextMark + k) cs).2 shift owner ∧
      m.nextMark + k ≤ (WorkingCopy.ofEach 0 (m.nextMark + k) cs).2 ∧
      ∀ i, k ≤ shift i by
    obtain ⟨shift, owner, hcopies, -⟩ := h 0
    exact ⟨shift, owner, hcopies⟩
  induction cs with
  | nil =>
    intro k
    refine ⟨fun _ => k, id, ⟨rfl, ?_, ?_, ?_⟩, Nat.le_refl _, fun _ => Nat.le_refl _⟩ <;>
      intro i c hc <;> cases hc
  | cons c rest ih =>
    intro k
    have hfree : Value.TakesFree (· + k) m.nextMark (m.nextMark + k) := fun j => by
      dsimp only
      omega
    obtain ⟨hvalue, hnext⟩ := Value.copied_eq_rename hfree c
    have hle := (Value.marks_copied m.nextMark c).1
    have hnext₀ : (c.copied m.nextMark).2 + k = (c.copied (m.nextMark + k)).2 := hnext 0
    have hlater : (c.copied (m.nextMark + k)).2 =
        m.nextMark + ((c.copied m.nextMark).2 - m.nextMark + k) := by omega
    obtain ⟨shift, owner, hrest, hge, hshifts⟩ := ih ((c.copied m.nextMark).2 - m.nextMark + k)
    rw [← hlater] at hrest hge
    have hshift : ∀ i, (c.copied m.nextMark).2 + k ≤ m.nextMark + shift i := fun i => by
      have := hshifts i
      omega
    rw [WorkingCopy.ofEach, hvalue]
    refine ⟨_, _, hrest.cons (hnext₀ ▸ hge) hshift, Nat.le_trans (by omega) hge, fun i => ?_⟩
    cases i with
    | zero => exact Nat.le_refl _
    | succ i => exact Nat.le_trans (Nat.le_add_left ..) (hshifts i)

end Mutator

end Verdict
