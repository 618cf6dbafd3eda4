import Mathlib.Logic.Equiv.Basic
import Verdict.Proofs.Mutation.Delivery

/-!
# Proofs/Mutation/Plain — transforms that do not look at marks

    v, criteria ────────apply────────▸ answer
        │ rename ρ                       │ rename ρ        ρ injective
        ▾                                ▾
    v.rename ρ, criteria.rename ρ ──▸ answer.rename ρ

A **plain** transform does not pause, and tells containers apart only by being one or not.  So it gives
out no container but those it was given and new ones (`Transform.IgnoresMarks.mem_marks_apply`).  What a
copy receives does not depend on what its marks are either (`Value.receive_rename`).
-/

namespace Verdict

/-- A transform that does not pause and does not depend on what marks are. -/
structure Transform.IsPlain (t : Transform) : Prop where
  pauses : t.pauses = 0
  rename {ρ : Nat → Nat} : Function.Injective ρ → ∀ v criteria,
    t.apply (v.rename ρ) (criteria.rename ρ) = (t.apply v criteria).map (Value.rename ρ)

theorem exists_greater (ns : List Nat) : ∃ k, ∀ n ∈ ns, n < k := by
  induction ns with
  | nil => exact ⟨0, List.forall_mem_nil _⟩
  | cons n rest ih =>
    obtain ⟨k, hk⟩ := ih
    refine ⟨max (n + 1) k, List.forall_mem_cons.mpr ⟨by omega, fun m hm => ?_⟩⟩
    exact Nat.lt_of_lt_of_le (hk m hm) (Nat.le_max_right ..)

/-- A transform that does not depend on what marks are, however often it pauses. -/
structure Transform.IgnoresMarks (t : Transform) : Prop where
  rename {ρ : Nat → Nat} : Function.Injective ρ → ∀ v criteria,
    t.apply (v.rename ρ) (criteria.rename ρ) = (t.apply v criteria).map (Value.rename ρ)

theorem Transform.IsPlain.ignoresMarks {t : Transform} (h : t.IsPlain) : t.IgnoresMarks := ⟨h.rename⟩

theorem Transform.IgnoresMarks.pausing {t : Transform} (h : t.IgnoresMarks) (pauses : Nat) :
    IgnoresMarks { t with pauses } := ⟨h.rename⟩

/-- **A transform that ignores marks gives out none but those of what it was given.** -/
theorem Transform.IgnoresMarks.mem_marks_apply {t : Transform} (h : t.IgnoresMarks)
    {v criteria a : Value} (ha : t.apply v criteria = .ok a) {n : Nat} (hn : n ∈ a.marks) :
    n ∈ v.marks ∨ n ∈ criteria.marks := by
  refine Decidable.byContradiction fun hnot => ?_
  rw [not_or] at hnot
  obtain ⟨k, hk⟩ := exists_greater (v.marks ++ criteria.marks ++ a.marks)
  simp only [List.mem_append] at hk
  -- Swapping the mark with one that occurs nowhere would change the answer alone.
  have hfix : ∀ w : Value, n ∉ w.marks → (∀ m ∈ w.marks, m < k) → w.rename (Equiv.swap n k) = w := by
    intro w hw hlt
    refine (Value.rename_congr fun m hm => ?_).trans (Value.rename_id w)
    have hne : m ≠ n := fun heq => hw (heq ▸ hm)
    exact Equiv.swap_apply_of_ne_of_ne hne (Nat.ne_of_lt (hlt m hm))
  have hrename := h.rename (Equiv.swap n k).injective v criteria
  rw [hfix v hnot.1 fun m hm => hk m (.inl (.inl hm)),
    hfix criteria hnot.2 fun m hm => hk m (.inl (.inr hm)), ha] at hrename
  have hself : a.marks = a.marks.map (Equiv.swap n k) :=
    (congrArg Value.marks (Except.ok.inj hrename)).trans (Value.marks_rename a)
  have hmem : k ∈ a.marks := by
    rw [hself]
    exact List.mem_map.mpr ⟨n, hn, Equiv.swap_apply_left n k⟩
  exact Nat.lt_irrefl k (hk k (.inr hmem))

/-- A transform that looks at the value alone: its answer holds the same for values that hold the same,
whatever the criteria are, and shares containers with the value only. -/
structure Transform.IsOfValue (t : Transform) : Prop where
  answer {v w c c' : Value} : v.unmarked = w.unmarked →
    (t.apply v c).map Value.unmarked = (t.apply w c').map Value.unmarked
  marks {v c a : Value} : t.apply v c = .ok a → ∀ n ∈ a.marks, n ∈ v.marks

/-- A function of the value that commutes with changes of marks looks at the value alone. -/
theorem Transform.isOfValue_of_remark {pauses : Nat} {function : Value → Except Fault Value}
    (h : ∀ {f g}, Value.Remarks f g → ∀ v, function (f v) = (function v).map f) :
    Transform.IsOfValue ⟨pauses, fun v _ => function v⟩ where
  answer := fun {v w _ _} hsame => by
    dsimp only
    rw [← h Value.remarks_unmarked, hsame, h Value.remarks_unmarked]
  marks := fun {v _ a} ha n hn => by
    have hplain : IsPlain ⟨0, fun v _ => function v⟩ :=
      ⟨rfl, fun {ρ} _ v _ => h (Value.remarks_rename ρ) v⟩
    have hanswer : (⟨0, fun v _ => function v⟩ : Transform).apply v .null = .ok a := ha
    rcases hplain.ignoresMarks.mem_marks_apply hanswer hn with hn | hn
    · exact hn
    · cases hn

/-! ## The transforms at hand -/

namespace Transform

section Remark

variable {f : Value → Value} {g : Mark → Mark}

theorem double_remark (h : Value.Remarks f g) (v : Value) : double (f v) = (double v).map f := by
  cases v with
  | list mark items =>
    rw [h.list, double, double, ← List.map_append]
    refine congrArg Except.ok ?_
    rw [Value.ofItems, Value.ofItems, h.list, h.unmarked]
  | object mark fields => rw [h.object]; rfl
  | _ => rw [h.scalar rfl]; first | rfl | exact congrArg Except.ok (h.scalar rfl).symm

theorem sum_remark (h : Value.Remarks f g) (v b : Value) :
    sum (asNumber (f v)) b = (sum (asNumber v) b).map f := by
  have hsum : ∀ a b : Value, (sum a b).map f = sum a b := fun a b => by
    unfold sum
    split
    · exact congrArg Except.ok (h.scalar rfl)
    · next i _ => cases toDouble i <;> first | rfl | exact congrArg Except.ok (h.scalar rfl)
    · next _ j => cases toDouble j <;> first | rfl | exact congrArg Except.ok (h.scalar rfl)
    · exact congrArg Except.ok (h.scalar rfl)
    · rfl
  rw [hsum]
  cases v with
  | list mark items => rw [h.list]; rfl
  | object mark fields => rw [h.object]; rfl
  | _ => rw [h.scalar rfl]

theorem upper_remark (h : Value.Remarks f g) (v : Value) : upper (f v) = f (upper v) := by
  cases v with
  | list mark items => exact (congrArg upper (h.list ..)).trans (h.list ..).symm
  | object mark fields => exact (congrArg upper (h.object ..)).trans (h.object ..).symm
  | _ => exact (congrArg upper (h.scalar rfl)).trans (h.scalar rfl).symm

end Remark

theorem isPlain_doubling : (doubling 0).IsPlain :=
  ⟨rfl, fun {ρ} _ v _ => double_remark (Value.remarks_rename ρ) v⟩

theorem isPlain_adding (n : Value) : (adding n 0).IsPlain :=
  ⟨rfl, fun {ρ} _ v _ => sum_remark (Value.remarks_rename ρ) v (asNumber n)⟩

theorem isPlain_uppering : (uppering 0).IsPlain :=
  ⟨rfl, fun {ρ} _ v _ => congrArg Except.ok (upper_remark (Value.remarks_rename ρ) v)⟩

theorem isOfValue_doubling (pauses : Nat) : (doubling pauses).IsOfValue :=
  isOfValue_of_remark double_remark

theorem isOfValue_adding (n : Value) (pauses : Nat) : (adding n pauses).IsOfValue :=
  isOfValue_of_remark fun h v => sum_remark h v (asNumber n)

theorem isOfValue_uppering (pauses : Nat) : (uppering pauses).IsOfValue :=
  isOfValue_of_remark fun h v => congrArg Except.ok (upper_remark h v)

theorem isPlain_constant (v : Value) : (constant v 0).IsPlain where
  pauses := rfl
  rename := fun _ _ _ => congrArg Except.ok (Value.rename_unmarked v).symm

theorem isOfValue_constant (v : Value) (pauses : Nat) : (constant v pauses).IsOfValue where
  answer := fun _ => rfl
  marks := fun {_ _ a} ha n hn => by
    have hanswer : (constant v 0).apply .null .null = .ok a := ha
    rcases (isPlain_constant v).ignoresMarks.mem_marks_apply hanswer hn with hn | hn <;> cases hn

theorem isPlain_copying (path : Value) : (copying path 0).IsPlain where
  pauses := rfl
  rename := fun {ρ} _ _ criteria => by
    have hfound : Path.resolveValue path (criteria.rename ρ) =
        (Path.resolveValue path criteria).map (Option.map (Value.rename ρ)) := by
      cases path with
      | str s => exact (Value.remarks_rename ρ).resolve s criteria
      | _ => rfl
    unfold copying field
    dsimp only
    rw [hfound]
    rcases Path.resolveValue path criteria with f | (_ | v) <;> rfl

theorem isPlain_failing (message : String) : (failing message 0).IsPlain where
  pauses := rfl
  rename := fun _ _ _ => rfl

end Transform

/-! ## What a copy receives -/

/-- Writes into a root whose marks are all of a kind are into containers of that kind. -/
theorem writesIn_of_marks {T : Nat → Prop} (k : Nat) : ∀ {root : Value}
    {errands : List (String × Value)}, errands.length = k → (∀ n ∈ root.marks, T n) →
      (∀ e ∈ errands, ∀ n ∈ e.2.marks, T n) → WritesIn T root errands := by
  induction k with
  | zero =>
    intro root errands hlength _ _
    rw [List.length_eq_zero_iff.mp hlength]
    exact .nil root
  | succ k ih =>
    intro root errands hlength hroot herrands
    obtain ⟨⟨name, v⟩, rest, rfl⟩ := List.exists_cons_of_length_eq_add_one hlength
    have hrest := Nat.succ.inj hlength
    obtain ⟨hv, hothers⟩ := List.forall_mem_cons.mp herrands
    by_cases hwrite : ∃ w, Path.write? name root v = .ok (some w)
    · obtain ⟨w, hw⟩ := hwrite
      have hafter : ∀ n ∈ w.after.marks, T n := fun n hn =>
        ((Path.mem_marks_of_write? hw).2 hn).elim (hroot n) (hv n)
      refine .write hw (fun n hn => hroot n ((Path.mem_marks_of_write? hw).1
        (Value.mem_marks_of_mark hn))) (ih (by rwa [List.length_map]) (fun n hn => ?_)
        fun e he n hn => ?_)
      · exact (Write.mem_marks_applyTo hn).elim (hroot n) (hafter n)
      · obtain ⟨e₁, he₁, rfl⟩ := List.mem_map.mp he
        exact (Write.mem_marks_applyElsewhere hn).elim (hothers e₁ he₁ n) (hafter n)
    · exact .skip (fun w hw => hwrite ⟨w, hw⟩) (ih hrest hroot hothers)

namespace Value

variable {ρ : Nat → Nat}

/-- Errands with other marks. -/
def renameErrands (ρ : Nat → Nat) (errands : List (String × Value)) : List (String × Value) :=
  errands.map fun e => (e.1, e.2.rename ρ)

/-- **Receiving renamed errands is receiving them and renaming.** -/
theorem receive_rename (hρ : Function.Injective ρ) (k : Nat) : ∀ (root : Value)
    {errands : List (String × Value)}, errands.length = k →
      (root.rename ρ).receive (renameErrands ρ errands) = (root.receive errands).rename ρ := by
  induction k with
  | zero =>
    intro root errands hlength
    rw [List.length_eq_zero_iff.mp hlength, renameErrands, List.map_nil, receive, receive]
  | succ k ih =>
    intro root errands hlength
    obtain ⟨⟨name, v⟩, rest, rfl⟩ := List.exists_cons_of_length_eq_add_one hlength
    have hrest := Nat.succ.inj hlength
    have hwrite := Path.write?_rename (ρ := ρ) name root v
    rw [renameErrands, List.map_cons]
    by_cases hsome : ∃ w, Path.write? name root v = .ok (some w)
    · obtain ⟨w, hw⟩ := hsome
      rw [hw] at hwrite
      have helsewhere : ((rest.map fun e => (e.1, e.2.rename ρ)).map fun e =>
          (e.1, (w.rename ρ).applyElsewhere e.2)) =
          renameErrands ρ (rest.map fun e => (e.1, w.applyElsewhere e.2)) := by
        rw [renameErrands, List.map_map, List.map_map]
        exact List.map_congr_left fun e _ => Prod.ext rfl (Write.applyElsewhere_rename hρ w e.2)
      rw [receive_write hwrite, receive_write hw, Write.applyTo_rename hρ, helsewhere]
      exact ih _ (by rwa [List.length_map])
    · have hskip : ∀ w, Path.write? name root v ≠ .ok (some w) := fun w hw => hsome ⟨w, hw⟩
      rw [receive_skip hskip, receive_skip]
      · exact ih root hrest
      · intro w hw
        rw [hwrite] at hw
        rcases hresult : Path.write? name root v with f | (_ | w')
        · rw [hresult] at hw
          cases hw
        · rw [hresult] at hw
          cases hw
        · exact hskip w' hresult

end Value

end Verdict
