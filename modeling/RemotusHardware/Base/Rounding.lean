import Mathlib

/-! # Rounding to a number of bits

`roundBits p` is the rounding of a binary floating-point format with `p` bits of significand: to
the nearest number of the format, of two to the one with the even significand.  Its exponents have
no bounds.  An integer of at most `p` bits is rounded to itself (`roundBits_intCast`). -/

namespace Rounding

/-- The nearest integer, of two the even one. -/
def roundEven (x : ℚ) : ℤ :=
  if Int.fract x < 1 / 2 ∨ Int.fract x = 1 / 2 ∧ Even ⌊x⌋ then ⌊x⌋ else ⌊x⌋ + 1

/-- The exponent of the last of `p` bits. -/
def lastExponent (p : ℕ) (x : ℚ) : ℤ := Int.log 2 |x| - (p - 1)

def roundBits (p : ℕ) (x : ℚ) : ℚ :=
  roundEven (x / 2 ^ lastExponent p x) * 2 ^ lastExponent p x

@[simp] theorem roundEven_intCast (z : ℤ) : roundEven z = z := by simp [roundEven]

/-- A multiple of its last bit is rounded to itself. -/
theorem roundBits_of_eq_mul {p : ℕ} {x : ℚ} {n : ℤ} (h : x = n * 2 ^ lastExponent p x) :
    roundBits p x = x := by
  have hpow : (2 : ℚ) ^ lastExponent p x ≠ 0 := zpow_ne_zero _ (by norm_num)
  have hn : x / 2 ^ lastExponent p x = n := by
    rw [div_eq_iff hpow]
    exact h
  rw [roundBits, hn, roundEven_intCast, ← h]

theorem log_abs_intCast (z : ℤ) : Int.log 2 |(z : ℚ)| = Nat.log 2 z.natAbs := by
  have habs : |(z : ℚ)| = (z.natAbs : ℕ) := by
    rw [← Int.cast_abs, Int.abs_eq_natAbs]
    rfl
  rw [habs, Int.log_natCast]

/-- `2 ^ p` has one bit more, but it is a zero. -/
theorem roundBits_intCast {p : ℕ} (hp : 0 < p) {z : ℤ} (h : z.natAbs ≤ 2 ^ p) :
    roundBits p z = z := by
  have hexp : lastExponent p z = Nat.log 2 z.natAbs - ((p : ℤ) - 1) := by
    rw [lastExponent, log_abs_intCast]
  rcases Nat.lt_or_eq_of_le h with hlt | heq
  · have hlog : Nat.log 2 z.natAbs < p := Nat.log_lt_of_lt_pow' (by omega) hlt
    have hneg : lastExponent p z = -((p - 1 - Nat.log 2 z.natAbs : ℕ) : ℤ) := by
      rw [hexp]
      omega
    apply roundBits_of_eq_mul (n := z * 2 ^ (p - 1 - Nat.log 2 z.natAbs))
    rw [hneg, zpow_neg, zpow_natCast, Int.cast_mul, Int.cast_pow, Int.cast_ofNat]
    rw [mul_assoc, mul_inv_cancel₀ (by positivity), mul_one]
  · have hone : lastExponent p z = 1 := by
      rw [hexp, heq, Nat.log_pow (by norm_num)]
      omega
    have hdvd : (2 : ℤ) ∣ z := by
      rw [← Int.dvd_natAbs, heq]
      exact_mod_cast dvd_pow_self 2 hp.ne'
    obtain ⟨n, rfl⟩ := hdvd
    apply roundBits_of_eq_mul (n := n)
    rw [hone, zpow_one]
    push_cast
    ring

end Rounding
