import Mathlib.Data.List.Basic
import Verdict.Number.Power
import Verdict.Text.DecimalDigit

/-!
# Proofs/Text/DecimalDigit — what decimal digits write

A digit of any script writes less than ten, so `n` digits write less than `10 ^ n`
(`digitsValue_lt`).  The ASCII digits of a number write it: `digitsValue_toDigits`.
-/

namespace Verdict

/-! ## Digits -/

variable {c : Char}

theorem toNat_of_isDigit (h : c.isDigit = true) : 48 ≤ c.toNat ∧ c.toNat ≤ 57 := by
  simp only [Char.isDigit, Bool.and_eq_true, decide_eq_true_eq] at h
  exact ⟨UInt32.le_iff_toNat_le.mp h.1, UInt32.le_iff_toNat_le.mp h.2⟩

theorem decimalDigit?_of_isDigit (h : c.isDigit = true) :
    decimalDigit? c = some (c.toNat - 48) := by
  have hascii : c.toNat < 128 := Nat.lt_of_le_of_lt (toNat_of_isDigit h).2 (by decide)
  rw [decimalDigit?, if_pos hascii, if_pos h]

theorem isDecimalDigit_of_isDigit (h : c.isDigit = true) : isDecimalDigit c = true := by
  rw [isDecimalDigit, decimalDigit?_of_isDigit h]
  rfl

/-- A digit writes less than ten. -/
theorem decimalDigit?_lt {n : Nat} (h : decimalDigit? c = some n) : n < 10 := by
  unfold decimalDigit? at h
  split at h
  · split at h
    · next hdigit =>
      cases h
      have := toNat_of_isDigit hdigit
      omega
    · cases h
  · obtain ⟨first, hfirst, rfl⟩ := Option.map_eq_some_iff.mp h
    have hblock := List.find?_some hfirst
    simp only [Bool.and_eq_true, decide_eq_true_eq] at hblock
    omega

theorem getD_decimalDigit?_lt (c : Char) : (decimalDigit? c).getD 0 < 10 := by
  cases h : decimalDigit? c with
  | none => exact Nat.succ_pos 9
  | some n => exact decimalDigit?_lt h

/-! ## Numerals -/

/-- Digits write less than the power of ten of their count. -/
theorem digitsValue_lt (cs : List Char) : digitsValue cs < tenTo cs.length := by
  have hfrom : ∀ (cs : List Char) (n : Nat),
      cs.foldl (fun n c => 10 * n + (decimalDigit? c).getD 0) n < (n + 1) * tenTo cs.length := by
    intro cs
    induction cs with
    | nil => exact fun n => (Nat.mul_one (n + 1)).symm ▸ Nat.lt_succ_self n
    | cons c cs ih =>
      intro n
      have hdigit := getD_decimalDigit?_lt c
      calc (c :: cs).foldl (fun n c => 10 * n + (decimalDigit? c).getD 0) n
          < (10 * n + (decimalDigit? c).getD 0 + 1) * tenTo cs.length := ih _
        _ ≤ (n + 1) * 10 * tenTo cs.length := Nat.mul_le_mul_right _ (by omega)
        _ = (n + 1) * tenTo (cs.length + 1) := by
          rw [Nat.mul_assoc, Nat.mul_comm 10]
          rfl
  simpa [digitsValue] using hfrom cs 0

/-- ASCII digits have the value that they write. -/
theorem digitsValue_of_isDigit {cs : List Char} (h : ∀ c ∈ cs, c.isDigit = true) :
    digitsValue cs = Nat.ofDigitChars 10 cs 0 := by
  rw [digitsValue, Nat.ofDigitChars]
  refine List.foldl_ext _ _ _ fun n c hc => ?_
  rw [decimalDigit?_of_isDigit (h c hc)]
  rfl

theorem digitsValue_toDigits (n : Nat) : digitsValue (Nat.toDigits 10 n) = n := by
  rw [digitsValue_of_isDigit fun c hc => Nat.isDigit_of_mem_toDigits (by decide) (by decide) hc,
    Nat.ofDigitChars_toDigits (by decide) (by decide)]

end Verdict
