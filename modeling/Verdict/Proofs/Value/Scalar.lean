import Verdict.Introspection.Range

/-!
# Proofs/Value/Scalar — equality of values that are no containers

What a scalar equals depends on its **identity** alone: its kind, and within a kind its magnitude,
text, day or instant.  `nan` has none.  So equality with a scalar is symmetric
(`equal_comm_of_isScalar`), and equal scalars equal the same values (`equal_congr_of_isScalar`).
-/

namespace Verdict.Value

/-- What makes a scalar the one it is. -/
inductive Identity where
  | null
  | bool (b : Bool)
  /-- A finite number, in units of doubles. -/
  | number (units : Int)
  | infinity (negative : Bool)
  | text (s : String)
  | day (d : Date)
  /-- An instant, or the written time of a moment without an offset. -/
  | moment (hasOffset : Bool) (micros : Int)

/-- The identity of a scalar; none for `nan` and for containers. -/
def identity? : Value → Option Identity
  | .null => some .null
  | .bool b => some (.bool b)
  | .int i => some (.number (Binary64.scaleInt i))
  | .float (.finite s u) => some (.number (Binary64.scaled s u))
  | .float (.infinite s) => some (.infinity s)
  | .float .nan => none
  | .str s => some (.text s)
  | .date d => some (.day d)
  | .dateTime t =>
    some (.moment t.offset.isSome (if t.offset.isSome then t.instant else t.localMicros))
  | .list .. | .object .. => none

theorem twoTo_pos (n : Nat) : 0 < twoTo n := Nat.pow_pos Nat.two_pos

/-- Distinct integers are distinct in units of doubles. -/
theorem scaleInt_inj {i j : Int} : Binary64.scaleInt i = Binary64.scaleInt j ↔ i = j := by
  have hpos : 0 < Binary64.unitsPerOne := twoTo_pos 1074
  rw [Binary64.scaleInt, Binary64.scaleInt]
  exact ⟨Int.eq_of_mul_eq_mul_right (by omega), fun h => by rw [h]⟩

theorem equal_dateTime_iff {t u : DateTime} : t.equal u = true ↔
    (dateTime t).identity? = (dateTime u).identity? := by
  unfold DateTime.equal identity?
  cases ht : t.offset <;> cases hu : u.offset <;> simp [ht, hu]

/-- A scalar equals the values of its identity. -/
theorem equal_iff_identity? {x : Value} (hx : x.isScalar = true) (y : Value) :
    x.equal y = true ↔ x.identity? ≠ none ∧ x.identity? = y.identity? := by
  cases x with
  | list mark items => cases hx
  | object mark fields => cases hx
  | null => rcases y with _ | _ | _ | (_ | _ | _) | _ | _ | _ | _ | _ <;> simp [equal, identity?]
  | bool b => rcases y with _ | _ | _ | (_ | _ | _) | _ | _ | _ | _ | _ <;> simp [equal, identity?]
  | str s => rcases y with _ | _ | _ | (_ | _ | _) | _ | _ | _ | _ | _ <;> simp [equal, identity?]
  | date d => rcases y with _ | _ | _ | (_ | _ | _) | _ | _ | _ | _ | _ <;> simp [equal, identity?]
  | int i =>
    rcases y with _ | _ | _ | (_ | _ | _) | _ | _ | _ | _ | _ <;>
      simp [equal, equalNumbers, identity?, scaleInt_inj]
  | float x =>
    rcases x with _ | _ | _ <;> rcases y with _ | _ | _ | (_ | _ | _) | _ | _ | _ | _ | _ <;>
      simp [equal, equalNumbers, Binary64.equal, identity?]
  | dateTime t =>
    rcases y with _ | _ | _ | (_ | _ | _) | _ | _ | _ | u | _ <;>
      simp [equal, equal_dateTime_iff, identity?]

theorem isScalar_of_identity? {x : Value} (h : x.identity? ≠ none) : x.isScalar = true := by
  cases x <;> first | rfl | exact absurd rfl h

/-- What equals a scalar is one. -/
theorem isScalar_of_equal {x y : Value} (hx : x.isScalar = true) (h : x.equal y = true) :
    y.isScalar = true := by
  have hxy := (equal_iff_identity? hx y).mp h
  exact isScalar_of_identity? (hxy.2 ▸ hxy.1)

/-- **Equality with a scalar is symmetric.** -/
theorem equal_comm_of_isScalar {x : Value} (hx : x.isScalar = true) (y : Value) :
    x.equal y = y.equal x := by
  rw [Bool.eq_iff_iff, equal_iff_identity? hx]
  by_cases hy : y.isScalar = true
  · rw [equal_iff_identity? hy]
    exact ⟨fun ⟨h, heq⟩ => ⟨heq ▸ h, heq.symm⟩, fun ⟨h, heq⟩ => ⟨heq ▸ h, heq.symm⟩⟩
  · have hfalse : y.equal x = false := by
      cases y <;> first | exact absurd rfl hy | (cases x <;> first | rfl | cases hx)
    have hnone : y.identity? = none := by
      cases y <;> first | exact absurd rfl hy | rfl
    simp [hfalse, hnone]

/-- **Equal scalars equal the same values.** -/
theorem equal_congr_of_isScalar {x y : Value} (hx : x.isScalar = true) (h : x.equal y = true)
    (c : Value) : c.equal x = c.equal y := by
  have hxy := (equal_iff_identity? hx y).mp h
  have hy : y.isScalar = true := isScalar_of_equal hx h
  rw [← equal_comm_of_isScalar hx, ← equal_comm_of_isScalar hy, Bool.eq_iff_iff,
    equal_iff_identity? hx, equal_iff_identity? hy, hxy.2]

end Verdict.Value
