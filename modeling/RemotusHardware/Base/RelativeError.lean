import RemotusHardware.Base.Rounding

/-! # Relative errors

`Near e x y`: `x` is the positive number `y` up to a relative error of `e`.  Rounding to `p` bits
adds `2 ^ (-p)` to the error (`Near.round`); the rules for sums, products and quotients carry it
through a calculation. -/

namespace Rounding

theorem abs_roundEven_sub_le (x : ℚ) : |(roundEven x : ℚ) - x| ≤ 1 / 2 := by
  have hfloor : (⌊x⌋ : ℚ) + Int.fract x = x := Int.floor_add_fract x
  have hnonneg := Int.fract_nonneg x
  have hlt := Int.fract_lt_one x
  unfold roundEven
  split
  · rename_i h
    have hhalf : Int.fract x ≤ 1 / 2 := h.elim le_of_lt fun h => h.1.le
    rw [abs_le]
    constructor <;> linarith
  · rename_i h
    have hhalf : 1 / 2 ≤ Int.fract x := not_lt.mp fun hx => h (.inl hx)
    push_cast
    rw [abs_le]
    constructor <;> linarith

/-- Rounding to `p` bits is off by half a unit in the last of them at most. -/
theorem abs_roundBits_sub_le (p : ℕ) (x : ℚ) : |roundBits p x - x| ≤ |x| / 2 ^ p := by
  rcases eq_or_ne x 0 with rfl | hx
  · simp [roundBits, roundEven]
  · have hpow : (0 : ℚ) < 2 ^ lastExponent p x := zpow_pos (by norm_num) _
    have hlog : (2 : ℚ) ^ Int.log 2 |x| ≤ |x| :=
      Int.zpow_log_le_self (b := 2) (by norm_num) (abs_pos.mpr hx)
    have hunit : (2 : ℚ) ^ lastExponent p x = 2 * 2 ^ Int.log 2 |x| / 2 ^ p := by
      rw [lastExponent, sub_sub_eq_add_sub, zpow_sub₀ (by norm_num), zpow_add₀ (by norm_num),
        zpow_one, zpow_natCast, mul_comm]
    have hx' : x = x / 2 ^ lastExponent p x * 2 ^ lastExponent p x :=
      (div_mul_cancel₀ _ hpow.ne').symm
    calc |roundBits p x - x|
        = |(roundEven (x / 2 ^ lastExponent p x) - x / 2 ^ lastExponent p x) *
            2 ^ lastExponent p x| := by
          rw [sub_mul, ← hx', roundBits]
      _ = |(roundEven (x / 2 ^ lastExponent p x) : ℚ) - x / 2 ^ lastExponent p x| *
            2 ^ lastExponent p x := by rw [abs_mul, abs_of_pos hpow]
      _ ≤ 1 / 2 * 2 ^ lastExponent p x :=
          mul_le_mul_of_nonneg_right (abs_roundEven_sub_le _) hpow.le
      _ = 2 ^ Int.log 2 |x| / 2 ^ p := by
          rw [hunit]
          ring
      _ ≤ |x| / 2 ^ p := by gcongr

/-- `x` is `y` up to a relative error of `e`. -/
structure Near (e x y : ℚ) : Prop where
  pos : 0 < y
  error : |x - y| ≤ e * y

namespace Near

variable {e e' x x' y y' : ℚ}

theorem exact (h : 0 < y) : Near 0 y y := ⟨h, by simp⟩

theorem mono (h : Near e x y) (he : e ≤ e') : Near e' x y :=
  ⟨h.pos, h.error.trans (mul_le_mul_of_nonneg_right he h.pos.le)⟩

theorem nonneg (h : Near e x y) : 0 ≤ e :=
  nonneg_of_mul_nonneg_left ((abs_nonneg _).trans h.error) h.pos

theorem abs_le_mul (h : Near e x y) : |x| ≤ (1 + e) * y := by
  have := abs_sub_abs_le_abs_sub x y
  rw [abs_of_pos h.pos] at this
  linarith [h.error]

theorem round (p : ℕ) (h : Near e x y) : Near (e + (1 + e) / 2 ^ p) (roundBits p x) y := by
  refine ⟨h.pos, ?_⟩
  have hround := (abs_roundBits_sub_le p x).trans
    (div_le_div_of_nonneg_right h.abs_le_mul (by positivity))
  calc |roundBits p x - y| ≤ |roundBits p x - x| + |x - y| := abs_sub_le _ _ _
    _ ≤ (1 + e) * y / 2 ^ p + e * y := add_le_add hround h.error
    _ = (e + (1 + e) / 2 ^ p) * y := by ring

theorem add (h : Near e x y) (h' : Near e x' y') : Near e (x + x') (y + y') := by
  refine ⟨add_pos h.pos h'.pos, ?_⟩
  calc |x + x' - (y + y')| = |(x - y) + (x' - y')| := by ring_nf
    _ ≤ |x - y| + |x' - y'| := abs_add_le _ _
    _ ≤ e * y + e * y' := add_le_add h.error h'.error
    _ = e * (y + y') := by ring

theorem mul (h : Near e x y) (h' : Near e' x' y') : Near (e + (1 + e) * e') (x * x') (y * y') := by
  refine ⟨mul_pos h.pos h'.pos, ?_⟩
  calc |x * x' - y * y'| = |(x - y) * y' + x * (x' - y')| := by ring_nf
    _ ≤ |x - y| * y' + |x| * |x' - y'| := by
        rw [← abs_mul, ← abs_of_pos h'.pos, ← abs_mul, abs_of_pos h'.pos]
        exact abs_add_le _ _
    _ ≤ e * y * y' + (1 + e) * y * (e' * y') :=
        add_le_add (mul_le_mul_of_nonneg_right h.error h'.pos.le)
          (mul_le_mul h.abs_le_mul h'.error (abs_nonneg _) ((abs_nonneg _).trans h.abs_le_mul))
    _ = (e + (1 + e) * e') * (y * y') := by ring

theorem div (h : Near e x y) (h' : Near e' x' y') (he : e' < 1) :
    Near ((e + e') / (1 - e')) (x / x') (y / y') := by
  refine ⟨div_pos h.pos h'.pos, ?_⟩
  have hlow : (1 - e') * y' ≤ x' := by
    have := (abs_le.mp h'.error).1
    linarith
  have hpos : 0 < (1 - e') * y' := mul_pos (by linarith) h'.pos
  have hx' : 0 < x' := hpos.trans_le hlow
  have hcross : |x * y' - y * x'| ≤ (e + e') * (y * y') := by
    calc |x * y' - y * x'| = |(x - y) * y' - y * (x' - y')| := by ring_nf
      _ ≤ |(x - y) * y'| + |y * (x' - y')| := abs_sub _ _
      _ = |x - y| * y' + y * |x' - y'| := by
        rw [abs_mul, abs_mul, abs_of_pos h.pos, abs_of_pos h'.pos]
      _ ≤ e * y * y' + y * (e' * y') :=
          add_le_add (mul_le_mul_of_nonneg_right h.error h'.pos.le)
            (mul_le_mul_of_nonneg_left h'.error h.pos.le)
      _ = (e + e') * (y * y') := by ring
  calc |x / x' - y / y'| = |x * y' - y * x'| / (x' * y') := by
        rw [div_sub_div _ _ hx'.ne' h'.pos.ne', abs_div, abs_of_pos (mul_pos hx' h'.pos),
          mul_comm x' y]
    _ ≤ (e + e') * (y * y') / (x' * y') :=
        div_le_div_of_nonneg_right hcross (mul_pos hx' h'.pos).le
    _ = (e + e') * y / x' := by
        rw [← mul_assoc, mul_div_mul_right _ _ h'.pos.ne']
    _ ≤ (e + e') * y / ((1 - e') * y') := by
        apply div_le_div_of_nonneg_left _ hpos hlow
        exact mul_nonneg (add_nonneg h.nonneg h'.nonneg) h.pos.le
    _ = (e + e') / (1 - e') * (y / y') := by rw [mul_div_mul_comm]

end Near

end Rounding
