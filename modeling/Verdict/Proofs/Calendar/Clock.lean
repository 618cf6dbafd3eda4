import Verdict.Calendar.Clock
import Verdict.Proofs.Text.DecimalDigit
import Verdict.Proofs.Value.Scalar

/-!
# Proofs/Calendar/Clock — times of the day as seconds

    text ──ofText?──▸ s, t     milliseconds of one day
                      │ │
                      ▾ ▾
                  seconds of s, t, as doubles: in the same order, and equal for s = t only

The seconds of a time are the sum of two roundings, rounded once more.  A rounding is off by half of
the spacing of the doubles of its size at most (`Binary64.exists_ofUnitRatio`), and the three
together by less than half a millisecond (`ClockTime.exists_seconds`).  So two times of one day
neither come together nor change places: `ClockTime.compare_seconds`.
-/

namespace Verdict

/-! ## Rounding -/

/-- A rounded quotient is off by half at most. -/
theorem roundHalfEven_bounds {den : Nat} (hden : 0 < den) (num : Nat) :
    2 * num ≤ 2 * (roundHalfEven num den * den) + den ∧
    2 * (roundHalfEven num den * den) ≤ 2 * num + den := by
  have hsplit : den * (num / den) + num % den = num := Nat.div_add_mod num den
  have hrest : num % den < den := Nat.mod_lt num hden
  have hdown : num / den * den = den * (num / den) := Nat.mul_comm ..
  have hup : (num / den + 1) * den = den * (num / den) + den := by rw [Nat.succ_mul, hdown]
  rw [roundHalfEven]
  split
  · rw [hdown]
    omega
  · split
    · rw [hup]
      omega
    · rcases Nat.mod_two_eq_zero_or_one (num / den) with heven | hodd
      · rw [heven, Nat.add_zero, hdown]
        omega
      · rw [hodd, hup]
        omega

theorem twoTo_le {m n : Nat} (h : m ≤ n) : twoTo m ≤ twoTo n :=
  Nat.pow_le_pow_right Nat.two_pos h

theorem twoTo_add (m n : Nat) : twoTo (m + n) = twoTo m * twoTo n := Nat.pow_add 2 m n

namespace Binary64

variable {num den digits : Nat}

/-- The spacing of the numbers of so many binary digits bounds that of all smaller ones. -/
theorem spacing_le {units : Nat} (h : units < twoTo (digits + 1)) :
    spacing units ≤ twoTo (digits - 52) := by
  have hlog : units.log2 ≤ digits := by
    rcases Nat.eq_zero_or_pos units with rfl | hpos
    · rw [Nat.log2_zero]
      exact Nat.zero_le _
    · exact Nat.lt_succ_iff.mp ((Nat.log2_lt (Nat.ne_of_gt hpos)).mpr h)
  exact twoTo_le (Nat.sub_le_sub_right hlog 52)

/-- **A rounded quotient is off by half of the spacing of the numbers of its size.** -/
theorem exists_ofUnitRatio (hden : 0 < den) (hdigits : digits + 2 ≤ 2098)
    (h : num < den * twoTo (digits + 1)) :
    ∃ units, ofUnitRatio false num den = .finite false units ∧
      2 * num ≤ 2 * (units * den) + den * twoTo (digits - 52) ∧
      2 * (units * den) ≤ 2 * num + den * twoTo (digits - 52) := by
  have hspacing : spacing (num / den) ≤ twoTo (digits - 52) :=
    spacing_le (Nat.div_lt_of_lt_mul h)
  have hstep : den * spacing (num / den) ≤ den * twoTo (digits - 52) :=
    Nat.mul_le_mul_left den hspacing
  have hpos : 0 < den * spacing (num / den) := Nat.mul_pos hden (Value.twoTo_pos _)
  obtain ⟨hlow, hhigh⟩ := roundHalfEven_bounds hpos num
  generalize hunits : roundHalfEven num (den * spacing (num / den)) * spacing (num / den) = units
  have hproduct : roundHalfEven num (den * spacing (num / den)) * (den * spacing (num / den)) =
      units * den := by rw [← hunits, Nat.mul_left_comm, Nat.mul_comm den]
  rw [hproduct] at hlow hhigh
  have hfinite : units < overflowUnits := by
    have hcoarse : den * twoTo (digits - 52) ≤ den * twoTo (digits + 1) :=
      Nat.mul_le_mul_left den (twoTo_le (by omega))
    have htwice : den * twoTo (digits + 2) = den * twoTo (digits + 1) * 2 := by
      rw [Nat.mul_assoc, twoTo_add (digits + 1) 1]
      rfl
    have hbound : den * units < den * twoTo (digits + 2) := by
      rw [htwice, Nat.mul_comm den units]
      omega
    exact Nat.lt_of_lt_of_le (Nat.lt_of_mul_lt_mul_left hbound) (twoTo_le hdigits)
  refine ⟨units, ?_, by omega, by omega⟩
  rw [ofUnitRatio, hunits, if_neg (Nat.not_le.mpr hfinite)]

/-- A rounded sum is off by half of the spacing of the numbers of its size. -/
theorem exists_add {u v : Nat} (hdigits : digits + 2 ≤ 2098) (h : u + v < twoTo (digits + 1)) :
    ∃ units, add (.finite false u) (.finite false v) = .finite false units ∧
      2 * (u + v) ≤ 2 * units + twoTo (digits - 52) ∧
      2 * units ≤ 2 * (u + v) + twoTo (digits - 52) := by
  rcases Nat.eq_zero_or_pos (u + v) with hzero | hpos
  · obtain ⟨rfl, rfl⟩ : u = 0 ∧ v = 0 := by omega
    exact ⟨0, rfl, Nat.zero_le _, Nat.zero_le _⟩
  · have hsize : u + v < 1 * twoTo (digits + 1) := by rwa [Nat.one_mul]
    obtain ⟨units, hunits, hlow, hhigh⟩ := exists_ofUnitRatio Nat.one_pos hdigits hsize
    rw [Nat.mul_one, Nat.one_mul] at hlow hhigh
    have hsum : ¬ scaled false u + scaled false v = 0 := fun h => by
      rw [scaled, scaled] at h
      omega
    have hratio : ofScaledRatio (scaled false u + scaled false v) 1 =
        ofUnitRatio false (u + v) 1 := by
      rw [ofScaledRatio, scaled, scaled, ← Int.natCast_add, Int.natAbs_natCast,
        decide_eq_false (Int.not_lt.mpr (Int.natCast_nonneg _))]
    exact ⟨units, (if_neg hsum).trans (hratio.trans hunits), hlow, hhigh⟩

end Binary64

/-! ## Seconds -/

namespace ClockTime

open Binary64 in
/-- **The seconds of a time of the day are off by less than half a millisecond.** -/
theorem exists_seconds {t : ClockTime} (h : t.millis < 86400000) :
    ∃ units, t.seconds = .finite false units ∧
      2 * (t.millis * unitsPerOne) < 2000 * units + unitsPerOne ∧
      2000 * units < 2 * (t.millis * unitsPerOne) + unitsPerOne := by
  -- seconds of one day are below `2 ^ 1093` units, where doubles are at most `2 ^ 1040` units apart
  have hdigits : 1092 + 2 ≤ 2098 := by decide
  have hsize : twoTo (1092 + 1) = 524288 * unitsPerOne := by
    have hfactor : twoTo 19 = 524288 := rfl
    rw [unitsPerOne, ← hfactor, ← twoTo_add]
  have hcoarse : unitsPerOne = 17179869184 * twoTo (1092 - 52) := by
    have hfactor : twoTo 34 = 17179869184 := rfl
    rw [← hfactor, ← twoTo_add, unitsPerOne]
  have hsplit : t.millis * unitsPerOne =
      1000 * (t.millis / 1000 * unitsPerOne) + t.millis % 1000 * unitsPerOne := by
    rw [← Nat.mul_assoc, ← Nat.add_mul, Nat.div_add_mod]
  have hpos : 0 < unitsPerOne := Value.twoTo_pos _
  have hwholeSize : t.millis / 1000 * unitsPerOne < 131072 * unitsPerOne :=
    Nat.mul_lt_mul_of_pos_right (by omega) hpos
  have hrestSize : t.millis % 1000 * unitsPerOne < 1000 * unitsPerOne :=
    Nat.mul_lt_mul_of_pos_right (by omega) hpos
  obtain ⟨whole, hwhole, hwholeLow, hwholeHigh⟩ :=
    @exists_ofUnitRatio (t.millis / 1000 * unitsPerOne) 1 1092 Nat.one_pos hdigits (by omega)
  obtain ⟨rest, hrest, hrestLow, hrestHigh⟩ :=
    @exists_ofUnitRatio (t.millis % 1000 * unitsPerOne) 1000 1092 (by decide) hdigits (by omega)
  obtain ⟨units, hunits, hlow, hhigh⟩ := @exists_add 1092 whole rest hdigits (by omega)
  have hsum : t.seconds =
      (ofUnitRatio false (t.millis / 1000 * unitsPerOne) 1).add
        (ofUnitRatio false (t.millis % 1000 * unitsPerOne) 1000) := rfl
  exact ⟨units, by rw [hsum, hwhole, hrest, hunits], by omega, by omega⟩

variable {s t : ClockTime}

/-- A later time of the day has more seconds. -/
theorem exists_seconds_lt (h : s.millis < t.millis) (ht : t.millis < 86400000) :
    ∃ u v, s.seconds = .finite false u ∧ t.seconds = .finite false v ∧ u < v := by
  obtain ⟨u, hu, -, huhigh⟩ := exists_seconds (Nat.lt_trans h ht)
  obtain ⟨v, hv, hvlow, -⟩ := exists_seconds ht
  have hstep : (s.millis + 1) * Binary64.unitsPerOne ≤ t.millis * Binary64.unitsPerOne :=
    Nat.mul_le_mul_right _ h
  rw [Nat.succ_mul] at hstep
  exact ⟨u, v, hu, hv, by omega⟩

/-- **Seconds of times of the day compare as their milliseconds.** -/
theorem compare_seconds (hs : s.millis < 86400000) (ht : t.millis < 86400000) :
    s.seconds.less t.seconds = decide (s.millis < t.millis) ∧
    s.seconds.equal t.seconds = decide (s.millis = t.millis) := by
  rcases Nat.lt_trichotomy s.millis t.millis with h | h | h
  · obtain ⟨u, v, hu, hv, huv⟩ := exists_seconds_lt h ht
    have hless : (u : Int) < v := Int.ofNat_lt.mpr huv
    rw [hu, hv, decide_eq_true h, decide_eq_false (Nat.ne_of_lt h)]
    exact ⟨decide_eq_true hless, beq_eq_false_iff_ne.mpr (Int.ne_of_lt hless)⟩
  · obtain ⟨u, hu, -⟩ := exists_seconds ht
    have heq : s = t := congrArg mk h
    rw [heq, hu, decide_eq_false (Nat.lt_irrefl _), decide_eq_true rfl]
    exact ⟨decide_eq_false (Int.lt_irrefl _), beq_self_eq_true _⟩
  · obtain ⟨u, v, hu, hv, huv⟩ := exists_seconds_lt h hs
    have hless : (u : Int) < v := Int.ofNat_lt.mpr huv
    rw [hu, hv, decide_eq_false (Nat.lt_asymm h), decide_eq_false (Nat.ne_of_gt h)]
    exact ⟨decide_eq_false (Int.lt_asymm hless), beq_eq_false_iff_ne.mpr (Int.ne_of_gt hless)⟩

/-! ## Reading -/

variable {cs rest : List Char} {n : Nat}

/-- Two digits write less than the next ten after the largest first digit. -/
theorem lt_of_twoDigits? {leading : Char → Bool} {most : Nat}
    (hleading : ∀ a, leading a = true → (decimalDigit? a).getD 0 ≤ most)
    (h : twoDigits? leading cs = some (n, rest)) : n < 10 * most + 10 := by
  unfold twoDigits? at h
  split at h
  · next a b _ =>
    split at h
    · next hdigits =>
      cases h
      have hfirst := hleading a (Bool.and_eq_true_iff.mp hdigits).1
      have hsecond := getD_decimalDigit?_lt b
      simp only [digitsValue, List.foldl_cons, List.foldl_nil]
      omega
    · cases h
  · cases h

theorem getD_decimalDigit?_le {a : Char} {digit : Nat} (hdigit : digit ≤ 9)
    (h : a.toNat ≤ 48 + digit) : (decimalDigit? a).getD 0 ≤ digit := by
  have hascii : a.toNat < 128 := by omega
  rw [decimalDigit?, if_pos hascii]
  split
  · change a.toNat - 48 ≤ digit
    omega
  · exact Nat.zero_le _

theorem lt_of_hours? (h : hours? cs = some (n, rest)) : n < 24 := by
  unfold hours? at h
  split at h
  · next b _ =>
    split at h
    · next hb =>
      cases h
      have hlast : b ≤ '3' := of_decide_eq_true (Bool.and_eq_true_iff.mp hb).2
      have hsecond := @getD_decimalDigit?_le b 3 (by decide) (UInt32.le_iff_toNat_le.mp hlast)
      change 10 * (10 * 0 + 2) + (decimalDigit? b).getD 0 < 24
      omega
    · cases h
  · refine Nat.lt_of_lt_of_le (@lt_of_twoDigits? _ _ _ _ 1 ?_ h) (by decide)
    intro a ha
    simp only [Bool.or_eq_true, decide_eq_true_eq] at ha
    rcases ha with rfl | rfl <;> decide

theorem lt_of_sixtieth? (h : sixtieth? cs = some (n, rest)) : n < 60 := by
  refine @lt_of_twoDigits? _ _ _ _ 5 ?_ h
  intro a ha
  have hlast : a ≤ '5' := of_decide_eq_true (Bool.and_eq_true_iff.mp ha).2
  exact getD_decimalDigit?_le (by decide) (UInt32.le_iff_toNat_le.mp hlast)

theorem lt_of_places? (h : places? cs = some n) : n < 1000 := by
  unfold places? at h
  split at h
  · next hcs =>
    cases h
    simp only [Bool.and_eq_true, decide_eq_true_eq] at hcs
    calc digitsValue cs * tenTo (3 - cs.length)
        < tenTo cs.length * tenTo (3 - cs.length) :=
          Nat.mul_lt_mul_of_pos_right (digitsValue_lt cs) (Nat.pow_pos (by decide))
      _ = tenTo (cs.length + (3 - cs.length)) := (Nat.pow_add 10 _ _).symm
      _ = 1000 := by rw [Nat.add_sub_of_le hcs.1.2]; rfl
  · cases h

/-- **What is read as a time of the day is less than a day.** -/
theorem millis_lt_of_ofChars? (h : ofChars? cs = some t) : t.millis < 86400000 := by
  obtain ⟨⟨hour, rest⟩, hhour, h⟩ := Option.bind_eq_some_iff.mp h
  have hhours := lt_of_hours? hhour
  dsimp only at h
  split at h
  · obtain ⟨⟨minute, rest⟩, hminute, h⟩ := Option.bind_eq_some_iff.mp h
    have hminutes := lt_of_sixtieth? hminute
    dsimp only at h
    split at h
    · cases h
      change (hour * 60 + minute) * 60000 < 86400000
      omega
    · split at h
      · obtain ⟨⟨second, rest⟩, hsecond, h⟩ := Option.bind_eq_some_iff.mp h
        have hseconds := lt_of_sixtieth? hsecond
        dsimp only at h
        split at h
        · cases h
          change ((hour * 60 + minute) * 60 + second) * 1000 < 86400000
          omega
        · obtain ⟨places, hplaces, rfl⟩ := Option.map_eq_some_iff.mp h
          have hrest := lt_of_places? hplaces
          change ((hour * 60 + minute) * 60 + second) * 1000 + places < 86400000
          omega
        · cases h
      · cases h
  · cases h

end ClockTime

end Verdict
