import Mathlib

/-! # Numbers on the wire

Two encodings of natural numbers as bytes, and what their decoders read back with any bytes
behind: 16-bit words, the high byte first, and base-128 numbers, the low group first, where
the top bit of a byte says that another group follows.  The decoder of the latter takes at
most a given number of groups, so that damaged input cannot hold it for ever. -/

namespace Wire

/-! ### 16-bit words -/

/-- `n` as two bytes, the high one first. -/
def putWord (n : ℕ) : List UInt8 := [UInt8.ofNat (n / 256), UInt8.ofNat (n % 256)]

/-- The word at the start of `mem`; bytes past its end read as zero. -/
def getWord (mem : List UInt8) : ℕ := 256 * (mem.headD 0).toNat + (mem.tail.headD 0).toNat

@[simp] theorem putWord_length (n : ℕ) : (putWord n).length = 2 := rfl

theorem getWord_putWord_append {n : ℕ} (h : n < 65536) (rest : List UInt8) :
    getWord (putWord n ++ rest) = n := by
  simp [getWord, putWord]
  omega

theorem drop_putWord_append (n : ℕ) (rest : List UInt8) : (putWord n ++ rest).drop 2 = rest := rfl

/-! ### Base-128 numbers -/

/-- The groups of `n`, at most `k` of them. -/
def putGroups : ℕ → ℕ → List UInt8
  | 0, _ => []
  | k + 1, n =>
      if 0 < n / 128 then UInt8.ofNat (n % 128 + 128) :: putGroups k (n / 128)
      else [UInt8.ofNat (n % 128)]

/-- Read at most `k` groups: the number of bytes counted and the value.  `len` bytes of value
`value` have been read, the next group counts `multiplier`.  A number that goes on after the
last group allowed counts one byte more than was read. -/
def getGroups : ℕ → ℕ → ℕ → ℕ → List UInt8 → ℕ × ℕ
  | 0, len, value, _, _ => (len + 1, value)
  | k + 1, len, value, multiplier, mem =>
      let c := (mem.headD 0).toNat
      let value := value + c % 128 * multiplier
      if 128 ≤ c then getGroups k (len + 1) value (multiplier * 128) mem.tail
      else (len + 1, value)

theorem putGroups_of_lt {k n : ℕ} (h : n < 128) : putGroups (k + 1) n = [UInt8.ofNat n] := by
  have h0 : n / 128 = 0 := Nat.div_eq_of_lt h
  simp [putGroups, h0, Nat.mod_eq_of_lt h]

/-- The reader takes back what was written, whatever follows. -/
theorem getGroups_putGroups : ∀ (j k n len value multiplier : ℕ) (rest : List UInt8),
    n < 128 ^ k → k ≤ j → 0 < k →
    getGroups k len value multiplier (putGroups j n ++ rest) =
      (len + (putGroups j n).length, value + n * multiplier)
  | 0, k, _, _, _, _, _, _, hj, hk => by omega
  | _ + 1, 0, _, _, _, _, _, _, _, hk => by omega
  | j + 1, k + 1, n, len, value, multiplier, rest, hn, hj, _ => by
      by_cases h : 0 < n / 128
      · have hc : (UInt8.ofNat (n % 128 + 128)).toNat = n % 128 + 128 := by simp; omega
        have hk : 0 < k := by
          rcases Nat.eq_zero_or_pos k with rfl | hk
          · simp at hn; omega
          · exact hk
        have hn' : n / 128 < 128 ^ k := by
          rw [Nat.pow_succ] at hn
          exact Nat.div_lt_of_lt_mul (by rwa [Nat.mul_comm])
        have ih := getGroups_putGroups j k (n / 128) (len + 1)
          (value + (n % 128 + 128) % 128 * multiplier) (multiplier * 128) rest hn' (by omega) hk
        simp only [putGroups, h, if_true, List.cons_append, getGroups, List.headD_cons, hc,
          List.tail_cons, show 128 ≤ n % 128 + 128 by omega, List.length_cons, ih, Prod.mk.injEq]
        refine ⟨by omega, ?_⟩
        have hmod : (n % 128 + 128) % 128 = n % 128 := by omega
        have hdiv : n % 128 + 128 * (n / 128) = n := Nat.mod_add_div n 128
        calc value + (n % 128 + 128) % 128 * multiplier + n / 128 * (multiplier * 128)
            = value + (n % 128 + 128 * (n / 128)) * multiplier := by rw [hmod]; ring
          _ = value + n * multiplier := by rw [hdiv]
      · have hlt : n < 128 := by omega
        have hc : (UInt8.ofNat n).toNat = n := by simp; omega
        rw [putGroups_of_lt hlt]
        simp [getGroups, hc, Nat.mod_eq_of_lt hlt, Nat.not_le.mpr hlt]

end Wire
