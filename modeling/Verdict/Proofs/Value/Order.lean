import Verdict.Operator.Order
import Verdict.Operator.Sort
import Verdict.Proofs.Value.Equality

/-!
# Proofs/Value/Order — the order of numbers and of texts

    below | equal | above        two numbers, two texts
    neither below nor above      any other two values

Numbers are ordered with numbers and texts with texts (`areOrdered`).  Of two values that are, one
is below, equal to or above the other, and only one of the three (`trichotomy`).  Being below is
transitive (`less_trans`), and equal values are below and above the same ones (`less_congr_left`,
`less_congr_right`).
-/

namespace Verdict.Value

/-- Both numbers, or both texts. -/
def areOrdered (c v : Value) : Bool := c.isNumber && v.isNumber || c.isText && v.isText

theorem areOrdered_comm (c v : Value) : areOrdered c v = areOrdered v c := by
  rw [areOrdered, areOrdered, Bool.and_comm, Bool.and_comm c.isText]

/-- Numbers are the values with a magnitude. -/
theorem isNumber_eq_isSome_scaled? (v : Value) : v.isNumber = v.scaled?.isSome := by
  rcases v with _ | _ | _ | (_ | _ | _) | _ | _ | _ | _ | _ <;> rfl

/-- Numbers are compared by their magnitudes. -/
theorem less_of_scaled? {c v : Value} {a b : Int} (hc : c.scaled? = some a)
    (hv : v.scaled? = some b) : less c v = decide (a < b) := by
  rcases c with _ | _ | _ | (_ | _ | _) | _ | _ | _ | _ | _ <;> first
    | (cases hc; done)
    | rcases v with _ | _ | _ | (_ | _ | _) | _ | _ | _ | _ | _ <;> first
      | (cases hv; done)
      | simp [less, hc, hv]

theorem equal_of_scaled? {c v : Value} {a b : Int} (hc : c.scaled? = some a)
    (hv : v.scaled? = some b) : equal c v = decide (a = b) := by
  rcases c with _ | _ | i | (_ | _ | _) | _ | _ | _ | _ | _ <;> first
    | (cases hc; done)
    | rcases v with _ | _ | j | (_ | _ | _) | _ | _ | _ | _ | _ <;> first
      | (cases hv; done)
      | (cases hc
         cases hv
         rw [Bool.eq_iff_iff, decide_eq_true_iff]
         simp [equal, equalNumbers, Binary64.equal, scaleInt_inj])

/-- Values that are not ordered are neither below nor above each other. -/
theorem less_eq_false {c v : Value} (h : areOrdered c v = false) : less c v = false := by
  rw [areOrdered, Bool.or_eq_false_iff, isNumber_eq_isSome_scaled?, isNumber_eq_isSome_scaled?] at h
  obtain ⟨hnumbers, htexts⟩ := h
  unfold less
  split
  · cases htexts
  · split
    · next ha hb => simp [ha, hb] at hnumbers
    · rfl

/-- **Of two ordered values just one of the three holds:** below, equal, above. -/
theorem trichotomy {c v : Value} (h : areOrdered c v = true) :
    (less c v = true ∧ equal c v = false ∧ less v c = false) ∨
      (less c v = false ∧ equal c v = true ∧ less v c = false) ∨
      (less c v = false ∧ equal c v = false ∧ less v c = true) := by
  rw [areOrdered, Bool.or_eq_true, Bool.and_eq_true, Bool.and_eq_true,
    isNumber_eq_isSome_scaled?, isNumber_eq_isSome_scaled?] at h
  rcases h with ⟨hc, hv⟩ | ⟨hc, hv⟩
  · obtain ⟨a, ha⟩ := Option.isSome_iff_exists.mp hc
    obtain ⟨b, hb⟩ := Option.isSome_iff_exists.mp hv
    rw [less_of_scaled? ha hb, less_of_scaled? hb ha, equal_of_scaled? ha hb]
    simp only [decide_eq_true_eq, decide_eq_false_iff_not]
    omega
  · cases c with
    | str s =>
      cases v with
      | str t =>
        simp only [less, equal, decide_eq_true_eq, decide_eq_false_iff_not, beq_iff_eq,
          beq_eq_false_iff_ne]
        by_cases hst : s < t
        · exact .inl ⟨hst, fun h => String.lt_irrefl t (h ▸ hst), String.lt_asymm hst⟩
        · by_cases hts : t < s
          · exact .inr (.inr ⟨hst, fun h => String.lt_irrefl t (h ▸ hts), hts⟩)
          · have heq : s = t := String.le_antisymm (String.not_lt.mp hts) (String.not_lt.mp hst)
            exact .inr (.inl ⟨hst, heq, hts⟩)
      | _ => cases hv
    | _ => cases hc

/-! ## Transitivity -/

/-- What is below another value is a number below a number, or a text before a text. -/
theorem less_iff {c v : Value} : less c v = true ↔
    (∃ a b, c.scaled? = some a ∧ v.scaled? = some b ∧ a < b) ∨
      ∃ s t, c = .str s ∧ v = .str t ∧ s < t := by
  constructor
  · intro h
    unfold less at h
    split at h
    · exact .inr ⟨_, _, rfl, rfl, of_decide_eq_true h⟩
    · split at h
      · next ha hb => exact .inl ⟨_, _, ha, hb, of_decide_eq_true h⟩
      · cases h
  · rintro (⟨a, b, ha, hb, hlt⟩ | ⟨s, t, rfl, rfl, hlt⟩)
    · rw [less_of_scaled? ha hb]
      exact decide_eq_true hlt
    · exact decide_eq_true hlt

/-- Being below is transitive. -/
theorem less_trans {x y z : Value} (h : less x y = true) (h' : less y z = true) :
    less x z = true := by
  rw [less_iff] at h h' ⊢
  rcases h with ⟨a, b, ha, hb, hab⟩ | ⟨s, t, rfl, rfl, hst⟩
  · rcases h' with ⟨b', c, hb', hc, hbc⟩ | ⟨t, u, rfl, _, _⟩
    · obtain rfl := Option.some.inj (hb.symm.trans hb')
      exact .inl ⟨a, c, ha, hc, Int.lt_trans hab hbc⟩
    · cases hb
  · rcases h' with ⟨_, _, hb, _, _⟩ | ⟨t', u, heq, rfl, htu⟩
    · cases hb
    · cases heq
      exact .inr ⟨s, u, rfl, rfl, String.lt_trans hst htu⟩

/-- Equal values have one magnitude. -/
theorem scaled?_eq_of_equal {x y : Value} (h : x.equal y = true) : x.scaled? = y.scaled? := by
  -- the magnitude of a scalar is part of its identity
  have hscaled : ∀ v : Value, v.scaled? = v.identity?.bind fun
      | .number units => some units
      | _ => none := fun v => by
    rcases v with _ | _ | _ | (_ | _ | _) | _ | _ | _ | _ | _ <;> rfl
  cases hx : x.isScalar with
  | true =>
    obtain ⟨_, heq⟩ := (equal_iff_identity? hx y).mp h
    rw [hscaled, hscaled, heq]
  | false =>
    cases x with
    | list =>
      obtain ⟨_, _, rfl, _⟩ := exists_of_list_equal h
      rfl
    | object =>
      obtain ⟨_, _, rfl, _⟩ := exists_of_object_equal h
      rfl
    | _ => cases hx

/-- **Equal values are below and above the same values.** -/
theorem less_congr {x y : Value} (h : x.equal y = true) (z : Value) :
    less x z = less y z ∧ less z x = less z y := by
  have hscaled := scaled?_eq_of_equal h
  have htext : ∀ s, x = .str s ↔ y = .str s := fun s => by
    constructor
    · rintro rfl
      exact equal_str_iff.mp h
    · rintro rfl
      exact equal_str_iff.mp ((equal_comm_of_isScalar rfl x).trans h)
  constructor <;> rw [Bool.eq_iff_iff, less_iff, less_iff, hscaled] <;> simp only [htext]

theorem atMost_trans {x y z : Value} (h : atMost x y = true) (h' : atMost y z = true) :
    atMost x z = true := by
  rw [atMost, Bool.or_eq_true] at h h' ⊢
  rcases h with hxy | hxy
  · rcases h' with hyz | hyz
    · exact .inl (equal_trans hxy hyz)
    · exact .inr ((less_congr hxy z).1.trans hyz)
  · rcases h' with hyz | hyz
    · exact .inr ((less_congr hyz x).2.symm.trans hxy)
    · exact .inr (less_trans hxy hyz)

theorem atLeast_trans {x y z : Value} (h : atLeast x y = true) (h' : atLeast y z = true) :
    atLeast x z = true := by
  rw [atLeast, Bool.or_eq_true] at h h' ⊢
  rcases h with hxy | hyx
  · rcases h' with hyz | hzy
    · exact .inl (equal_trans hxy hyz)
    · exact .inr ((less_congr hxy z).2.trans hzy)
  · rcases h' with hyz | hzy
    · exact .inr ((less_congr hyz x).1.symm.trans hyx)
    · exact .inr (less_trans hzy hyx)

/-! ## Ranges -/

/-- A number is at least another value, or at most, when their magnitudes are so. -/
theorem numberAtMost_eq {c : Value} (hc : c.isNumber = true) (v : Value) :
    numberAtMost v c = atLeast c v ∧ numberAtMost c v = atMost c v := by
  rw [isNumber_eq_isSome_scaled?] at hc
  obtain ⟨a, ha⟩ := Option.isSome_iff_exists.mp hc
  rw [numberAtMost, numberAtMost, atLeast, atMost, ha]
  cases hb : v.scaled? with
  | some b =>
    rw [equal_of_scaled? ha hb, less_of_scaled? ha hb, less_of_scaled? hb ha]
    simp only [← Bool.decide_or, decide_eq_decide]
    omega
  | none =>
    have hequal : c.equal v = false := Bool.eq_false_iff.mpr fun h => by
      rw [scaled?_eq_of_equal h, hb] at ha
      cases ha
    have htext : c.isText = false := by
      cases c <;> first | rfl | cases ha
    have hnot : areOrdered c v = false := by
      rw [areOrdered, isNumber_eq_isSome_scaled? v, hb, htext, Bool.false_and, Bool.or_false]
      exact Bool.and_false _
    rw [hequal, less_eq_false hnot, less_eq_false ((areOrdered_comm v c).trans hnot)]
    exact ⟨rfl, rfl⟩

/-- **A number is in a range when it is at least its start and at most its end.** -/
theorem isBetween_eq {c : Value} (hc : c.isNumber = true) (mark : Mark) (low high : Value) :
    isBetween c (.list mark [low, high]) = (atLeast c low && atMost c high) := by
  rw [← (numberAtMost_eq hc low).1, ← (numberAtMost_eq hc high).2]
  rfl

end Verdict.Value
