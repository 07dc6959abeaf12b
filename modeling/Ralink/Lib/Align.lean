import Mathlib.Tactic

/-! Masks that split an address into its block and the place in it, for blocks whose size is a power
of two. -/
namespace Align

theorem and_low (x k : Nat) : x &&& (2 ^ k - 1) = x % 2 ^ k := Nat.and_two_pow_sub_one_eq_mod x k

theorem and_high {x k w : Nat} (hx : x < 2 ^ w) (hk : k ≤ w) :
    x &&& (2 ^ w - 1 - (2 ^ k - 1)) = x / 2 ^ k * 2 ^ k := by
  have hmask : 2 ^ w - 1 - (2 ^ k - 1) = 2 ^ k * (2 ^ (w - k) - 1) := by
    have hpow : 2 ^ w = 2 ^ k * 2 ^ (w - k) := by rw [← Nat.pow_add, Nat.add_sub_cancel' hk]
    have hpos : 0 < 2 ^ k := Nat.two_pow_pos k
    rw [Nat.mul_sub, Nat.mul_one, ← hpow]
    omega
  refine Nat.eq_of_testBit_eq fun i => ?_
  rw [hmask, Nat.testBit_and, Nat.testBit_two_pow_mul, Nat.testBit_mul_two_pow,
    Nat.testBit_two_pow_sub_one, Nat.testBit_div_two_pow]
  by_cases hi : k ≤ i
  · rw [Nat.sub_add_cancel hi]
    by_cases hw : i - k < w - k
    · simp [hi, hw]
    · have hout : x.testBit i = false :=
        Nat.testBit_lt_two_pow (lt_of_lt_of_le hx (Nat.pow_le_pow_right (by decide) (by omega)))
      simp [hout]
  · simp [hi]

theorem div_mul_add_mod (x e : Nat) : x / e * e + x % e = x := by
  rw [Nat.mul_comm]
  exact Nat.div_add_mod x e

theorem dvd_of_and_low {x k : Nat} (h : x &&& (2 ^ k - 1) = 0) : 2 ^ k ∣ x := by
  rw [and_low] at h
  exact Nat.dvd_of_mod_eq_zero h

end Align
