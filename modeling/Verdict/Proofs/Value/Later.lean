import Verdict.Proofs.Path.Place

/-!
# Proofs/Value/Later — a value after writes

    v ──write──▸ v₁ ──write──▸ … ──▸ v'        v'.mark = v.mark

Values are handed around, and not copied: a write into a container shows in every value that holds it.
So a value **later** is the same value with slots filled anew: a scalar is as it was, and a container is
the one of its mark (`Value.Later.mark_eq`, `Value.Later.eq_of_isScalar`).
-/

namespace Verdict

namespace Write

/-- The effect of a write is a slot that is filled anew. -/
def IsFill (w : Write) : Prop := ∃ slot new, w.after = w.before.fill slot new

theorem IsFill.mark_after {w : Write} (h : w.IsFill) : w.after.mark = w.before.mark := by
  obtain ⟨slot, new, h⟩ := h
  rw [h, Value.mark_fill]

/-- A write changes no container's mark. -/
theorem IsFill.mark_applyElsewhere {w : Write} (h : w.IsFill) (v : Value) :
    (w.applyElsewhere v).mark = v.mark := by
  rw [applyElsewhere]
  split
  · next n hn =>
    have hafter := h.mark_after.trans hn
    cases v with
    | list mark items =>
      rw [Value.replaceMarked]
      split
      · next heq => exact hafter.trans heq.symm
      · rfl
    | object mark fields =>
      rw [Value.replaceMarked]
      split
      · next heq => exact hafter.trans heq.symm
      · rfl
    | _ => rfl
  · rfl

theorem applyElsewhere_of_isScalar (w : Write) {v : Value} (h : v.isScalar = true) :
    w.applyElsewhere v = v := by
  rw [applyElsewhere]
  cases v with
  | list => cases h
  | object => cases h
  | _ => split <;> rfl

end Write

theorem Path.isFill_of_write? {path : String} {root new : Value} {w : Write}
    (h : write? path root new = .ok (some w)) : w.IsFill := by
  rw [write?] at h
  split at h
  · obtain rfl := Option.some.inj (Except.ok.inj h)
    exact ⟨_, _, rfl⟩
  · split at h
    · cases h
    · cases h
    · next ss _ =>
      have hw := Except.ok.inj h
      unfold writeAt? at hw
      split at hw <;> first | cases hw | skip
      split at hw <;> first | cases hw | skip
      split at hw <;> first | cases hw | skip
      obtain ⟨slot, -, rfl⟩ := Option.map_eq_some_iff.mp hw
      exact ⟨_, _, rfl⟩

namespace Value

/-- A value after writes: into its containers, or elsewhere. -/
inductive Later (v : Value) : Value → Prop
  | refl : Later v v
  | write {v' : Value} {w : Write} : Later v v' → w.IsFill → Later v (w.applyElsewhere v')

namespace Later

variable {v v' v'' : Value}

theorem trans (h : v.Later v') (h' : v'.Later v'') : v.Later v'' := by
  induction h' with
  | refl => exact h
  | write _ hw ih => exact ih.write hw

/-- **A container later is the one of its mark.** -/
theorem mark_eq (h : v.Later v') : v'.mark = v.mark := by
  induction h with
  | refl => rfl
  | write _ hw ih => rw [hw.mark_applyElsewhere, ih]

/-- **A scalar later is as it was.** -/
theorem eq_of_isScalar (h : v.Later v') (hv : v.isScalar = true) : v' = v := by
  induction h with
  | refl => rfl
  | write _ _ ih => rw [ih, Write.applyElsewhere_of_isScalar _ hv]

end Later

end Value

end Verdict
