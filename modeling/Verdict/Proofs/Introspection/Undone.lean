import Mathlib.Data.List.Basic
import Verdict.Proofs.Introspection.Merge

/-!
# Proofs/Introspection/Undone — taking changes out is one filter

    base  ──undo c₁──▸ · ──undo c₂──▸ · ──undo c₃──▸ …
      ║
    field by field: what the changes of the field leave (`Value.leftBy`)

Undoing goes through the changes one after another, and each finds what those before it left.  As
the fields of an alternative are told apart (`Alternative.IsKeyed`), a change finds at most one
field, and what changes leave of a requirement is what each leaves (`Value.leftBy_cons`); so undoing
steps leaves of each field what their changes on it leave together, in whatever order they come
(`Alternative.undoSteps_eq_filterMap`).
-/

namespace Verdict

/-! ## Loose equality of scalars -/

namespace Value

variable {x y z : Value}

/-- Truth values apart, which count as numbers, a scalar counts as the values of its identity. -/
theorem loosely_iff_identity? (hx : x.isScalar = true) (y : Value) : x.loosely y = true ↔
    x.asNumber.identity? ≠ none ∧ x.asNumber.identity? = y.asNumber.identity? := by
  cases x with
  | list _ _ | object _ _ => cases hx
  | null | str _ | date _ =>
    rcases y with _ | _ | _ | (_ | _ | _) | _ | _ | _ | _ | _ <;>
      simp [loosely, asNumber, identity?]
  | dateTime t =>
    rcases y with _ | _ | _ | (_ | _ | _) | _ | _ | _ | u | _ <;>
      simp [loosely, asNumber, equal_dateTime_iff, identity?]
  | bool _ | int _ =>
    rcases y with _ | _ | _ | (_ | _ | _) | _ | _ | _ | _ | _ <;>
      simp [loosely, asNumber, equalNumbers, identity?, scaleInt_inj]
  | float x =>
    rcases x with _ | _ | _ <;> rcases y with _ | _ | _ | (_ | _ | _) | _ | _ | _ | _ | _ <;>
      simp [loosely, asNumber, equalNumbers, Binary64.equal, identity?]

/-- Scalars that count as a third value count as each other. -/
theorem loosely_of_loosely (hx : x.isScalar = true) (hy : y.isScalar = true)
    (h : x.loosely z = true) (h' : y.loosely z = true) : x.loosely y = true := by
  rw [loosely_iff_identity? hx] at h ⊢
  rw [loosely_iff_identity? hy] at h'
  exact ⟨h.1, h.2.trans h'.2.symm⟩

end Value

/-! ## What changes leave of a requirement -/

/-- Whether a change has a value as its own or as one of the items of its list, lists and objects
apart. -/
def Change.records (c : Change) (x : Value) : Bool := c.value.flat.any x.sameScalar

/-- What changes of a field leave of its requirement: nothing of a scalar that is the value of one
of them, and of a list the items that none of them records. -/
def Value.leftBy (changes : List Change) : Value → Option Value
  | .list mark items =>
    some (if changes.isEmpty then .list mark items
      else .ofItems (items.filter fun x => !changes.any fun c => c.records x))
  | v => if changes.any fun c => v.sameScalar c.value then none else some v

namespace Value

theorem leftBy_nil (v : Value) : v.leftBy [] = some v := by
  cases v <;> rfl

theorem leftBy_eq_ite {v : Value} (h : ∀ mark items, v ≠ .list mark items) (cs : List Change) :
    v.leftBy cs = if cs.any fun c => v.sameScalar c.value then none else some v := by
  cases v with
  | list mark items => exact absurd rfl (h mark items)
  | _ => rfl

/-- **What changes leave is what the later ones leave of what the first leaves.** -/
theorem leftBy_cons (c : Change) (cs : List Change) (v : Value) :
    v.leftBy (c :: cs) = (v.leftBy [c]).bind (leftBy cs) := by
  by_cases hlist : ∃ mark items, v = .list mark items
  · obtain ⟨mark, items, rfl⟩ := hlist
    have hone : leftBy [c] (.list mark items) = some (.ofItems (items.filter fun x =>
        !c.records x)) := by simp [leftBy]
    rw [hone, Option.bind_some]
    cases cs with
    | nil => simp [leftBy, ofItems]
    | cons c' cs => simp [leftBy, ofItems, List.filter_filter, Bool.and_comm]
  · have hv : ∀ mark items, v ≠ .list mark items := fun mark items heq => hlist ⟨mark, items, heq⟩
    rw [leftBy_eq_ite hv, leftBy_eq_ite hv, List.any_cons, List.any_cons, List.any_nil,
      Bool.or_false]
    cases v.sameScalar c.value with
    | true => rfl
    | false => exact (leftBy_eq_ite hv cs).symm

/-- The order of the changes does not matter. -/
theorem leftBy_perm {cs cs' : List Change} (h : cs.Perm cs') (v : Value) :
    v.leftBy cs = v.leftBy cs' := by
  have hany : ∀ p : Change → Bool, cs.any p = cs'.any p := fun p => h.any_eq
  by_cases hlist : ∃ mark items, v = .list mark items
  · obtain ⟨mark, items, rfl⟩ := hlist
    have hempty : cs.isEmpty = cs'.isEmpty := by
      rw [Bool.eq_iff_iff, List.isEmpty_iff_length_eq_zero, List.isEmpty_iff_length_eq_zero,
        h.length_eq]
    simp only [leftBy, hany, hempty]
  · have hv : ∀ mark items, v ≠ .list mark items := fun mark items heq => hlist ⟨mark, items, heq⟩
    rw [leftBy_eq_ite hv, leftBy_eq_ite hv, hany]

end Value

/-! ## Undoing is a filter -/

namespace Alternative

variable {a : Alternative} {field v : Value}

/-- The fields of an alternative are scalars, and no two of them count as one. -/
structure IsKeyed (a : Alternative) : Prop where
  scalar : ∀ e ∈ a, e.1.isScalar = true
  apart : a.Pairwise fun e e' => e.1.loosely e'.1 = false

theorem isKeyed_cons_iff {e : Value × Value} : IsKeyed (e :: a) ↔
    (e.1.isScalar = true ∧ ∀ e' ∈ a, e.1.loosely e'.1 = false) ∧ a.IsKeyed := by
  constructor
  · rintro ⟨hscalar, hapart⟩
    obtain ⟨he, ha⟩ := List.forall_mem_cons.mp hscalar
    obtain ⟨hnew, hapart⟩ := List.pairwise_cons.mp hapart
    exact ⟨⟨he, hnew⟩, ha, hapart⟩
  · rintro ⟨⟨he, hnew⟩, ha, hapart⟩
    exact ⟨List.forall_mem_cons.mpr ⟨he, ha⟩, List.pairwise_cons.mpr ⟨hnew, hapart⟩⟩

/-- Where the first field counts as another, none of the others does. -/
theorem IsKeyed.not_loosely {e : Value × Value} (h : IsKeyed (e :: a))
    (he : e.1.loosely field = true) : ∀ e' ∈ a, ¬ e'.1.loosely field = true := by
  obtain ⟨⟨hscalar, hnew⟩, ha⟩ := isKeyed_cons_iff.mp h
  intro e' he' hsame
  have hsame := Value.loosely_of_loosely hscalar (ha.scalar e' he') he hsame
  rw [hnew e' he'] at hsame
  cases hsame

/-- What changes leave of the entry of a field. -/
def leftOf (cs : List Change) (e : Value × Value) : Option (Value × Value) :=
  (e.2.leftBy (cs.filter fun c => e.1.loosely c.field)).map fun v => (e.1, v)

/-- Changes of other fields leave an entry as it is. -/
theorem leftOf_of_forall_not_loosely {cs : List Change} {e : Value × Value}
    (h : ∀ c ∈ cs, ¬ e.1.loosely c.field = true) : leftOf cs e = some e := by
  rw [leftOf, List.filter_eq_nil_iff.mpr h, Value.leftBy_nil]
  rfl

theorem leftOf_nil (e : Value × Value) : leftOf [] e = some e :=
  leftOf_of_forall_not_loosely fun _ hc => nomatch hc

theorem leftOf_of_not_loosely {c : Change} {e : Value × Value}
    (h : ¬ e.1.loosely c.field = true) (cs : List Change) : leftOf (c :: cs) e = leftOf cs e := by
  rw [leftOf, List.filter_cons, if_neg h, leftOf]

theorem leftOf_cons (c : Change) (cs : List Change) (e : Value × Value) :
    leftOf (c :: cs) e = (leftOf [c] e).bind (leftOf cs) := by
  by_cases h : e.1.loosely c.field = true
  · have hfirst : leftOf [c] e = (e.2.leftBy [c]).map fun v => (e.1, v) := by
      rw [leftOf, List.filter_cons, if_pos h, List.filter_nil]
    rw [hfirst, leftOf, List.filter_cons, if_pos h, Value.leftBy_cons]
    cases e.2.leftBy [c] <;> rfl
  · rw [leftOf_of_not_loosely h, leftOf_of_not_loosely h, leftOf_nil]
    rfl

theorem leftOf_eq_none_iff (cs : List Change) (field v : Value) : leftOf cs (field, v) = none ↔
    ∃ c ∈ cs, field.loosely c.field = true ∧ v.sameScalar c.value = true := by
  rw [leftOf, Option.map_eq_none_iff]
  by_cases hlist : ∃ mark items, v = .list mark items
  · obtain ⟨mark, items, rfl⟩ := hlist
    simp [Value.leftBy, Value.sameScalar, Value.isScalar]
  · rw [Value.leftBy_eq_ite fun mark items heq => hlist ⟨mark, items, heq⟩]
    simp [List.any_eq_true]

/-- Of a list, what is left is a list. -/
theorem exists_leftOf_list (cs : List Change) (field : Value) (mark : Mark) (items : List Value) :
    ∃ mark', leftOf cs (field, .list mark items) = some (field, .list mark' (items.filter fun x =>
      !cs.any fun c => field.loosely c.field && c.records x)) := by
  rw [leftOf, Value.leftBy]
  cases hcs : cs.filter fun c => field.loosely c.field with
  | nil =>
    have hnone : ∀ x : Value, (cs.any fun c => field.loosely c.field && c.records x) = false := by
      intro x
      rw [← List.any_filter, hcs]
      rfl
    exact ⟨mark, by simp [hnone]⟩
  | cons c rest =>
    have hany : ∀ x : Value, ((c :: rest).any fun c => c.records x) =
        cs.any fun c => field.loosely c.field && c.records x := fun x => by
      rw [← hcs, List.any_filter]
    refine ⟨none, ?_⟩
    simp only [hany]
    rfl

theorem fst_of_leftOf {cs : List Change} {e e' : Value × Value} (h : leftOf cs e = some e') :
    e'.1 = e.1 := by
  obtain ⟨v, _, rfl⟩ := Option.map_eq_some_iff.mp h
  rfl

/-- Taking entries out leaves the fields told apart. -/
theorem IsKeyed.filterMap (ha : a.IsKeyed) (cs : List Change) :
    IsKeyed (a.filterMap (leftOf cs)) := by
  constructor
  · intro e' he'
    obtain ⟨e, he, hleft⟩ := List.mem_filterMap.mp he'
    rw [fst_of_leftOf hleft]
    exact ha.scalar e he
  · refine List.pairwise_filterMap.mpr (ha.apart.imp fun {e₁ e₂} hapart e₁' h₁ e₂' h₂ => ?_)
    rw [fst_of_leftOf h₁, fst_of_leftOf h₂]
    exact hapart

/-- A change of other fields passes the first entry by. -/
theorem undo_cons_of_not_loosely {c : Change} (h : ¬ field.loosely c.field = true) (v : Value)
    (a : Alternative) : undo ((field, v) :: a) c = (field, v) :: undo a c := by
  have hwithout : without c.field ((field, v) :: a) = (field, v) :: without c.field a := by
    simp [without, h]
  unfold undo
  rw [find?, if_neg h]
  cases find? c.field a with
  | none => rfl
  | some current =>
    dsimp only
    rw [hwithout]
    split
    · rfl
    · split
      · rw [put, if_neg h]
      · rfl

/-- A change of the first field leaves of its requirement what it leaves, and all other entries. -/
theorem undo_cons_of_loosely {c : Change} (h : field.loosely c.field = true) (v : Value)
    (hrest : ∀ e ∈ a, ¬ e.1.loosely c.field = true) :
    undo ((field, v) :: a) c = (leftOf [c] (field, v)).toList ++ a := by
  have hleft : leftOf [c] (field, v) = (v.leftBy [c]).map fun w => (field, w) := by
    rw [leftOf, List.filter_cons, if_pos h, List.filter_nil]
  have hwithout : without c.field ((field, v) :: a) = a := by
    have hall : a.filter (fun e => !e.1.loosely c.field) = a :=
      List.filter_eq_self.mpr fun e he => by simpa using hrest e he
    simpa [without, h] using hall
  unfold undo
  rw [find?, if_pos h, hleft]
  dsimp only
  rw [hwithout]
  cases hv : v with
  | list mark items => simp [Value.sameScalar, Value.isScalar, put, h, Value.leftBy, Change.records]
  | _ =>
    rw [Value.leftBy_eq_ite (by simp), List.any_cons, List.any_nil, Bool.or_false]
    split <;> rfl

/-- **Undoing a change leaves of each entry what the change leaves.** -/
theorem undo_eq_filterMap (ha : a.IsKeyed) (c : Change) :
    a.undo c = a.filterMap (leftOf [c]) := by
  induction a with
  | nil => rfl
  | cons e rest ih =>
    obtain ⟨f, v⟩ := e
    have hrest := (isKeyed_cons_iff.mp ha).2
    -- The change is of the first field, and then of no other, or passes it by.
    by_cases h : f.loosely c.field = true
    · have hothers := ha.not_loosely h
      have hsame : rest.filterMap (leftOf [c]) = rest := by
        have hall : ∀ e ∈ rest, leftOf [c] e = some e := fun e he => by
          rw [leftOf_of_not_loosely (hothers e he), leftOf_nil]
        rw [List.filterMap_congr hall, List.filterMap_some]
      rw [undo_cons_of_loosely h v hothers, List.filterMap_cons, hsame]
      cases leftOf [c] (f, v) <;> rfl
    · rw [undo_cons_of_not_loosely h, List.filterMap_cons, leftOf_of_not_loosely h, leftOf_nil,
        ih hrest]

/-- **Undoing changes one after another leaves of each entry what they leave together.** -/
theorem foldl_undo (cs : List Change) : ∀ {a : Alternative}, a.IsKeyed →
    cs.foldl undo a = a.filterMap (leftOf cs) := by
  induction cs with
  | nil => exact fun {a} _ => by rw [List.foldl_nil, funext leftOf_nil, List.filterMap_some]
  | cons c cs ih =>
    intro a ha
    -- The later changes start from what the first one leaves, whose fields are told apart as well.
    rw [List.foldl_cons, undo_eq_filterMap ha, ih (ha.filterMap [c]), List.filterMap_filterMap]
    exact List.filterMap_congr fun e _ => (leftOf_cons c cs e).symm

/-- The changes of the latest steps, as long as they are at a depth. -/
def latestChanges (depth : Nat) (steps : List Step) : List Change :=
  (steps.takeWhile fun s => s.depth = depth).flatMap fun s => s.changes.getD []

theorem undoSteps_eq_foldl (depth : Nat) : ∀ (steps : List Step) (a : Alternative),
    a.undoSteps depth steps = (latestChanges depth steps).foldl undo a
  | [], _ => rfl
  | s :: rest, a => by
    rw [undoSteps, latestChanges, List.takeWhile_cons]
    by_cases h : s.depth = depth
    · rw [if_pos h, if_pos (decide_eq_true h), List.flatMap_cons, List.foldl_append,
        undoSteps_eq_foldl depth rest]
      rfl
    · rw [if_neg h, if_neg (by simpa using h)]
      rfl

theorem latestChanges_append {depth : Nat} : ∀ {run : List Step}, (∀ s ∈ run, s.depth = depth) →
    ∀ rest : List Step, latestChanges depth (run ++ rest) =
      (run.flatMap fun s => s.changes.getD []) ++ latestChanges depth rest := by
  intro run h rest
  rw [latestChanges, List.takeWhile_append_of_pos (by simpa using h), List.flatMap_append,
    ← latestChanges]

/-- Steps of one run can be undone in any order. -/
theorem latestChanges_perm {depth : Nat} {run run' : List Step} (hperm : run.Perm run')
    (h : ∀ s ∈ run, s.depth = depth) (rest : List Step) :
    (latestChanges depth (run ++ rest)).Perm (latestChanges depth (run' ++ rest)) := by
  rw [latestChanges_append h, latestChanges_append fun s hs => h s (hperm.mem_iff.mpr hs)]
  exact (hperm.flatMap_right _).append_right _

theorem undoSteps_eq_filterMap (ha : a.IsKeyed) (depth : Nat) (steps : List Step) :
    a.undoSteps depth steps = a.filterMap (leftOf (latestChanges depth steps)) := by
  rw [undoSteps_eq_foldl, foldl_undo _ ha]

/-- **Undoing steps is one filter.**  A field is dropped exactly where its requirement is a scalar
that equals the scalar of a change on it among the latest steps at the depth; a list loses exactly
the scalars that equal one that such a change records, the others staying in order; and all other
requirements stay, as do those of fields without a change.  So the steps of the run may come in any
order. -/
theorem undoSteps_filters (base : Alternative) (hbase : base.IsKeyed) (depth : Nat) :
    (∀ steps, base.undoSteps depth steps =
      base.filterMap (leftOf (latestChanges depth steps))) ∧
    (∀ changes field v, leftOf changes (field, v) = none ↔
      ∃ c ∈ changes, field.loosely c.field = true ∧ v.sameScalar c.value = true) ∧
    (∀ changes field mark items, ∃ mark', leftOf changes (field, .list mark items) =
      some (field, .list mark' (items.filter fun x =>
        !changes.any fun c => field.loosely c.field && c.records x))) ∧
    (∀ changes field v, (∀ mark items, v ≠ .list mark items) →
      leftOf changes (field, v) = none ∨ leftOf changes (field, v) = some (field, v)) ∧
    (∀ changes e, (∀ c ∈ changes, ¬ e.1.loosely c.field = true) → leftOf changes e = some e) ∧
    ∀ run run' rest : List Step, run.Perm run' → (∀ s ∈ run, s.depth = depth) →
      base.undoSteps depth (run ++ rest) = base.undoSteps depth (run' ++ rest) := by
  refine ⟨undoSteps_eq_filterMap hbase depth, leftOf_eq_none_iff, exists_leftOf_list,
    fun changes field v hv => ?_, fun _ _ => leftOf_of_forall_not_loosely,
    fun run run' rest hperm hrun => ?_⟩
  · rw [leftOf, Value.leftBy_eq_ite hv]
    split
    · exact .inl rfl
    · exact .inr rfl
  · rw [undoSteps_eq_filterMap hbase, undoSteps_eq_filterMap hbase]
    refine List.filterMap_congr fun e _ => ?_
    rw [leftOf, leftOf, Value.leftBy_perm ((latestChanges_perm hperm hrun rest).filter _)]

/-- A scalar that is dropped, a list that loses a number and a text but no list, an object, and a
field that is a number and was changed only before the run. -/
theorem undoSteps_filters_of_run :
    let list : Value := .ofItems [.int 1, .ofItems [.int 1], .str "x", .int 2]
    let object : Value := .ofFields [("operator", .str "exists")]
    let base : Alternative :=
      [(.str "a", .int 1), (.str "b", list), (.str "c", object), (.int 5, .int 1)]
    let first : Step := ⟨some .and, .or, 1, some [⟨.str "a", .int 1⟩, ⟨.str "c", object⟩]⟩
    let second : Step := ⟨some .and, .or, 1, some [⟨.str "b", .ofItems [.int 1, .str "x"]⟩]⟩
    let earlier : Step := ⟨some .and, .or, 2, some [⟨.int 5, .int 1⟩]⟩
    base.IsKeyed ∧
    base.undoSteps 1 [second, first, earlier] =
      [(.str "b", .ofItems [.ofItems [.int 1], .int 2]), (.str "c", object), (.int 5, .int 1)] ∧
    base.undoSteps 1 [first, second, earlier] = base.undoSteps 1 [second, first, earlier] := by
  intro list object base first second earlier
  have hbase : base.IsKeyed := ⟨by decide, by decide⟩
  obtain ⟨hfilter, -, -, -, -, hperm⟩ := undoSteps_filters base hbase 1
  refine ⟨hbase, ?_, hperm [first, second] [second, first] [earlier] (.swap ..) ?_⟩
  · rw [hfilter]
    rfl
  · simp [first, second]

end Alternative

end Verdict
