import RemotusHardware.Base.CString

/-! # Decimal text, read back

`readInteger` and `readDecimal` say what a whole text denotes: a sign that may be absent, digits
and, in the second case, a point with digits behind it.  `atoi` reads as far as it can instead.
What it makes of memory is settled by its `numeral`, the sign and the digits behind the white
space; behind the digits of an integer the numeral goes on into the digits that follow
(`numeral_append`).

A printed number is read back as itself, also with zeros in front of it
(`digitValue_replicate_append`).  A number of thousandths, say, is printed as its whole part, a
point and the rest, and read back as itself exactly if the rest has its zeros in front
(`readDecimal_fraction_iff`). -/

namespace CLib

/-! ### Signs and digits -/

/-- A sign that may be absent: whether it is a minus, and what follows. -/
def sign : List UInt8 → Bool × List UInt8
  | [] => (false, [])
  | b :: s => if b = 45 then (true, s) else if b = 43 then (false, s) else (false, b :: s)

def signed (negative : Bool) (n : ℕ) : ℤ := if negative then -n else n

/-- The integer a text denotes. -/
def readInteger (text : List UInt8) : Option ℤ :=
  let ds := (sign text).2
  if ds ≠ [] ∧ ds.all isDigit = true then some (signed (sign text).1 (digitValue ds)) else none

/-- The number a text denotes, with or without digits behind a point. -/
def readDecimal (text : List UInt8) : Option ℚ :=
  let s := (sign text).2
  let whole := s.takeWhile isDigit
  let value : ℚ → ℚ := fun q => if (sign text).1 then -q else q
  match s.dropWhile isDigit with
  | [] => if whole ≠ [] then some (value (digitValue whole)) else none
  | b :: u =>
      if b = 46 ∧ whole ≠ [] ∧ u ≠ [] ∧ u.all isDigit = true then
        some (value (digitValue whole + digitValue u / 10 ^ u.length))
      else none

/-- What `atoi` reads: the sign, and the digits up to the first byte that is none. -/
def numeral (mem : List UInt8) : Bool × List UInt8 :=
  ((sign (mem.dropWhile isSpace)).1, (sign (mem.dropWhile isSpace)).2.takeWhile isDigit)

theorem digitValue_append (ds es : List UInt8) :
    digitValue (ds ++ es) = digitValue ds * 10 ^ es.length + digitValue es := by
  induction es using List.reverseRecOn with
  | nil => simp [digitValue]
  | append_singleton es b ih =>
      have hlast (l : List UInt8) : digitValue (l ++ [b]) = 10 * digitValue l + (b.toNat - 48) := by
        simp [digitValue]
      rw [← List.append_assoc, hlast, hlast, ih, List.length_append, List.length_singleton,
        pow_succ]
      ring

theorem isDigit_iff {b : UInt8} : isDigit b = true ↔ 48 ≤ b.toNat ∧ b.toNat ≤ 57 := by
  simp [isDigit, UInt8.le_iff_toNat_le]

theorem digitValue_replicate_append (n : ℕ) (ds : List UInt8) :
    digitValue (List.replicate n 48 ++ ds) = digitValue ds := by
  induction n with
  | zero => rfl
  | succ n ih =>
      rw [List.replicate_succ, List.cons_append, ← ih]
      rfl

/-- Digits have the value 0 if they are zeros. -/
theorem digitValue_eq_zero_iff {ds : List UInt8} (h : ∀ d ∈ ds, isDigit d = true) :
    digitValue ds = 0 ↔ ∀ d ∈ ds, d = 48 := by
  induction ds using List.reverseRecOn with
  | nil => simp [digitValue]
  | append_singleton ds b ih =>
      have hb := isDigit_iff.mp (h b (by simp))
      have ih := ih fun d hd => h d (by simp [hd])
      have hlast : digitValue (ds ++ [b]) = 10 * digitValue ds + (b.toNat - 48) := by
        simp [digitValue]
      have h48 : b = 48 ↔ b.toNat = 48 := by
        rw [← UInt8.toNat_inj]
        rfl
      rw [hlast, List.forall_mem_append, List.forall_mem_singleton, ← ih, h48]
      omega

/-! ### What `atoi` reads -/

theorem atoi_eq (mem : List UInt8) : atoi mem =
    max (-2 ^ 31) (min (2 ^ 31 - 1) (signed (numeral mem).1 (digitValue (numeral mem).2))) := by
  unfold atoi numeral
  cases mem.dropWhile isSpace with
  | nil => rfl
  | cons b s =>
      by_cases h45 : b = 45
      · simp [sign, signed, h45]
      · by_cases h43 : b = 43
        · simp [sign, signed, h43]
        · simp [sign, signed, h45, h43]

theorem takeWhile_isDigit_append {ds : List UInt8} (h : ∀ d ∈ ds, isDigit d = true)
    (rest : List UInt8) : (ds ++ rest).takeWhile isDigit = ds ++ rest.takeWhile isDigit :=
  List.takeWhile_append_of_pos h

theorem isSpace_of_isDigit {b : UInt8} (h : isDigit b = true) : isSpace b = false := by
  have hb := isDigit_iff.mp h
  simp only [isSpace, Bool.or_eq_false_iff, Bool.and_eq_false_iff, decide_eq_false_iff_not,
    UInt8.le_iff_toNat_le, ← UInt8.toNat_inj]
  simp
  omega

/-- Behind the digits of an integer the numeral goes on into the digits that follow. -/
theorem numeral_append {text : List UInt8} (hne : (sign text).2 ≠ [])
    (hall : ∀ d ∈ (sign text).2, isDigit d = true) (rest : List UInt8) :
    numeral (text ++ rest) = ((sign text).1, (sign text).2 ++ rest.takeWhile isDigit) := by
  cases text with
  | nil => exact absurd rfl hne
  | cons b s =>
      have hspace : isSpace b = false := by
        by_cases h45 : b = 45
        · subst h45
          decide
        · by_cases h43 : b = 43
          · subst h43
            decide
          · apply isSpace_of_isDigit
            apply hall
            simp [sign, h45, h43]
      have hdrop : ((b :: s) ++ rest).dropWhile isSpace = (b :: s) ++ rest := by
        simp [hspace]
      have hsign : sign ((b :: s) ++ rest) = ((sign (b :: s)).1, (sign (b :: s)).2 ++ rest) := by
        by_cases h45 : b = 45
        · simp [sign, h45]
        · by_cases h43 : b = 43
          · simp [sign, h43]
          · simp [sign, h45, h43]
      rw [numeral, hdrop, hsign, takeWhile_isDigit_append hall]

/-! ### Printed fractions -/

theorem sign_cons_of_isDigit {b : UInt8} (h : isDigit b = true) (s : List UInt8) :
    sign (b :: s) = (false, b :: s) := by
  have hb := isDigit_iff.mp h
  have h45 : b ≠ 45 := by
    rintro rfl
    simp at hb
  have h43 : b ≠ 43 := by
    rintro rfl
    simp at hb
  simp [sign, h45, h43]

/-- Digits, a point and digits. -/
theorem readDecimal_point {ds es : List UInt8} (hds : ∀ d ∈ ds, isDigit d = true)
    (hes : ∀ d ∈ es, isDigit d = true) (hd : ds ≠ []) (he : es ≠ []) :
    readDecimal (ds ++ 46 :: es) =
      some (digitValue ds + digitValue es / 10 ^ es.length : ℚ) := by
  have hpoint : isDigit 46 = false := by decide
  have hsign : sign (ds ++ 46 :: es) = (false, ds ++ 46 :: es) := by
    cases ds with
    | nil => exact absurd rfl hd
    | cons b ds => exact sign_cons_of_isDigit (hds b List.mem_cons_self) _
  have htake : (ds ++ 46 :: es).takeWhile isDigit = ds := by
    rw [takeWhile_isDigit_append hds, List.takeWhile_cons_of_neg (by simp [hpoint]),
      List.append_nil]
  have hdrop : (ds ++ 46 :: es).dropWhile isDigit = 46 :: es := by
    rw [List.dropWhile_append_of_pos hds, List.dropWhile_cons_of_neg (by simp [hpoint])]
  have hall : es.all isDigit = true := List.all_eq_true.mpr hes
  simp [readDecimal, hsign, htake, hdrop, hd, he, hall]

theorem formatD_natCast (w n : ℕ) :
    formatD w n = List.replicate (w - (decimal n).length) 48 ++ decimal n := by
  have hsign : ¬ (n : ℤ) < 0 := by omega
  simp [formatD, hsign]

theorem isDigit_of_mem_formatD {w n : ℕ} {b : UInt8} (hb : b ∈ formatD w n) :
    isDigit b = true := by
  rw [formatD_natCast, List.mem_append] at hb
  rcases hb with hb | hb
  · rw [List.eq_of_mem_replicate hb]
    decide
  · exact isDigit_of_mem_decimal hb

theorem formatD_ne_nil (w n : ℕ) : formatD w n ≠ [] := by
  rw [formatD_natCast]
  exact List.append_ne_nil_of_right_ne_nil _ (decimal_ne_nil n)

theorem digitValue_formatD (w n : ℕ) : digitValue (formatD w n) = n := by
  rw [formatD_natCast, digitValue_replicate_append, digitValue_decimal]

theorem formatD_length (w n : ℕ) : (formatD w n).length = max w (decimal n).length := by
  rw [formatD_natCast, List.length_append, List.length_replicate]
  omega

theorem decimal_length_lt_iff {n k : ℕ} : k < (decimal n).length ↔ k = 0 ∨ 10 ^ k ≤ n := by
  have hdigits := Nat.digits_length_le_iff (b := 10) (k := k) (by norm_num) n
  unfold decimal
  split
  case isTrue h =>
    subst h
    have : 0 < 10 ^ k := by positivity
    rw [List.length_singleton]
    omega
  case isFalse h =>
    have hpos : 0 < (Nat.digits 10 n).length :=
      List.length_pos_iff.mpr (Nat.digits_ne_nil_iff_ne_zero.mpr h)
    rw [List.length_map, List.length_reverse]
    cases k with
    | zero => simpa using hpos
    | succ k => omega

theorem readDecimal_formatD_point (v w n m : ℕ) :
    readDecimal (formatD v n ++ 46 :: formatD w m) =
      some (n + m / 10 ^ max w (decimal m).length : ℚ) := by
  rw [readDecimal_point (fun d => isDigit_of_mem_formatD) (fun d => isDigit_of_mem_formatD)
    (formatD_ne_nil v n) (formatD_ne_nil w m), digitValue_formatD, digitValue_formatD,
    formatD_length]

/-- `m` of the units of which `10 ^ p` make a whole, printed with the width `w` behind the point,
are read back as such if they fill the `p` places, or are none. -/
theorem readDecimal_fraction_iff {w p m : ℕ} (v n : ℕ) (hw : w ≤ p) (hm : m < 10 ^ p)
    (hp : 0 < p) : readDecimal (formatD v n ++ 46 :: formatD w m) = some (n + m / 10 ^ p : ℚ) ↔
      m = 0 ∨ w = p ∨ 10 ^ (p - 1) ≤ m := by
  have hle : (decimal m).length ≤ p := decimal_length_le hp hm
  have hfull : max w (decimal m).length = p ↔ w = p ∨ p = 1 ∨ 10 ^ (p - 1) ≤ m := by
    have hlt := decimal_length_lt_iff (n := m) (k := p - 1)
    omega
  rw [readDecimal_formatD_point, Option.some_inj, add_right_inj]
  constructor
  · intro h
    by_cases hm0 : m = 0
    · exact .inl hm0
    · have hm0' : (m : ℚ) ≠ 0 := by exact_mod_cast hm0
      have hpow : (10 : ℚ) ^ max w (decimal m).length = 10 ^ p := by
        rw [div_eq_div_iff (by positivity) (by positivity)] at h
        exact (mul_left_cancel₀ hm0' h).symm
      have hlen : max w (decimal m).length = p :=
        pow_right_injective₀ (by norm_num) (by norm_num) hpow
      rcases hfull.mp hlen with h | h | h
      · exact .inr (.inl h)
      · subst h
        exact .inr (.inr (Nat.one_le_iff_ne_zero.mpr hm0))
      · exact .inr (.inr h)
  · rintro (rfl | h)
    · simp
    · rw [hfull.mpr (h.imp_right .inr)]

end CLib
