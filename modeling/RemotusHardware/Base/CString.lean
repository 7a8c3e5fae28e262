import Mathlib

/-! # C strings and the byte functions of the C library

Memory is read through pointers; a pointer is the list of the bytes from the address it
holds on, so moving it forward drops a prefix.  Where such a list ends, the functions below
read a NUL: the list is taken to be as long as the program ever looks.

`CString` is a string with its terminator left out, and carries the proof that it holds no
NUL.  On it the comparisons of the C library decide what a reader expects: `strcmp` decides
equality (`strcmp_eq_zero_iff`), `strncmp` over the length of its second argument decides
only the prefix relation (`strncmp_length_eq_zero_iff`).  `atoi` reads back what `sprintf`
prints with `%d` as long as no digit follows (`atoi_decimal_append`). -/

namespace CLib

/-- The bytes of an ASCII literal. -/
def ascii (s : String) : List UInt8 := s.toList.map fun c => UInt8.ofNat c.toNat

/-- A NUL-terminated string: the bytes before the terminator. -/
@[ext] structure CString where
  bytes : List UInt8
  nul_free : (0 : UInt8) ∉ bytes
deriving DecidableEq, Repr

namespace CString

/-- The string a pointer points to: everything before the first NUL. -/
def ofMem (mem : List UInt8) : CString where
  bytes := mem.takeWhile (· ≠ 0)
  nul_free h := by simpa using List.mem_takeWhile_imp h

/-- A string literal. -/
def lit (s : String) : CString := ofMem (ascii s)

theorem ofMem_bytes {mem : List UInt8} (h : (0 : UInt8) ∉ mem) : (ofMem mem).bytes = mem := by
  apply List.takeWhile_eq_self_iff.mpr
  intro b hb
  simpa using fun h0 : b = 0 => h (h0 ▸ hb)

@[simp] theorem ofMem_bytes_self (s : CString) : ofMem s.bytes = s :=
  CString.ext (ofMem_bytes s.nul_free)

end CString

/-- `strlen`. -/
def strlen (s : CString) : ℕ := s.bytes.length

/-! ### Comparisons -/

/-- `strcmp` on the bytes before the terminators. -/
def strcmpBytes : List UInt8 → List UInt8 → ℤ
  | [], [] => 0
  | [], b :: _ => -(b.toNat : ℤ)
  | a :: _, [] => a.toNat
  | a :: as, b :: bs => if a = b then strcmpBytes as bs else (a.toNat : ℤ) - b.toNat

/-- `strcmp`. -/
def strcmp (s t : CString) : ℤ := strcmpBytes s.bytes t.bytes

/-- `strncmp`, of the memory behind two pointers. -/
def strncmp : List UInt8 → List UInt8 → ℕ → ℤ
  | _, _, 0 => 0
  | as, bs, n + 1 =>
      if as.headD 0 = bs.headD 0 then
        if as.headD 0 = 0 then 0 else strncmp as.tail bs.tail n
      else ((as.headD 0).toNat : ℤ) - (bs.headD 0).toNat

theorem toNat_ne_zero {b : UInt8} (h : b ≠ 0) : b.toNat ≠ 0 := fun h0 => h (UInt8.toNat.inj h0)

theorem toNat_sub_ne_zero {a b : UInt8} (h : a ≠ b) : (a.toNat : ℤ) - b.toNat ≠ 0 := by
  intro h0
  exact h (UInt8.toNat.inj (by omega))

theorem strcmpBytes_eq_zero_iff : ∀ {as bs : List UInt8}, (0 : UInt8) ∉ as → (0 : UInt8) ∉ bs →
    (strcmpBytes as bs = 0 ↔ as = bs)
  | [], [], _, _ => by simp [strcmpBytes]
  | [], b :: bs, _, hb => by
      have := toNat_ne_zero (b := b) (fun h => hb (by simp [h]))
      simp only [strcmpBytes, reduceCtorEq, iff_false]
      omega
  | a :: as, [], ha, _ => by
      have := toNat_ne_zero (b := a) (fun h => ha (by simp [h]))
      simp only [strcmpBytes, reduceCtorEq, iff_false]
      omega
  | a :: as, b :: bs, ha, hb => by
      by_cases hab : a = b
      · subst hab
        have ih : strcmpBytes as bs = 0 ↔ as = bs := strcmpBytes_eq_zero_iff
          (fun h => ha (List.mem_cons_of_mem _ h)) (fun h => hb (List.mem_cons_of_mem _ h))
        simp [strcmpBytes, ih]
      · simp [strcmpBytes, hab, toNat_sub_ne_zero hab]

/-- `strcmp` returns zero on equal strings alone. -/
theorem strcmp_eq_zero_iff {s t : CString} : strcmp s t = 0 ↔ s = t := by
  rw [strcmp, strcmpBytes_eq_zero_iff s.nul_free t.nul_free, CString.ext_iff]

@[simp] theorem strcmp_self (s : CString) : strcmp s s = 0 := strcmp_eq_zero_iff.mpr rfl

theorem strncmp_prefix_iff : ∀ {bs : List UInt8} (as : List UInt8), (0 : UInt8) ∉ bs →
    (strncmp as bs bs.length = 0 ↔ bs <+: as)
  | [], as, _ => by simp [strncmp]
  | b :: bs, [], hb => by
      have h0 : ¬ (0 = b) := fun h => hb (by simp [h])
      have := toNat_ne_zero (b := b) (fun h => h0 h.symm)
      simp [strncmp, h0]
      omega
  | b :: bs, a :: as, hb => by
      have h0 : b ≠ 0 := fun h => hb (by simp [h])
      have ih := strncmp_prefix_iff as (fun h => hb (List.mem_cons_of_mem _ h))
      by_cases hab : a = b
      · subst hab
        simp [strncmp, h0, ih]
      · have hba : ¬ b = a := fun h => hab h.symm
        simp [strncmp, hab, toNat_sub_ne_zero hab, List.cons_prefix_cons, hba]

/-- Bounded by the length of its second argument, `strncmp` decides the prefix relation: it
says nothing about where the first string ends. -/
theorem strncmp_length_eq_zero_iff (mem : List UInt8) (s : CString) :
    strncmp mem s.bytes (strlen s) = 0 ↔ s.bytes <+: mem :=
  strncmp_prefix_iff mem s.nul_free

/-! ### Writing into a buffer -/

/-- `buf` after the bytes `data` have been stored from offset `off` on. -/
def overwrite (buf : List UInt8) (off : ℕ) (data : List UInt8) : List UInt8 :=
  buf.take off ++ data ++ buf.drop (off + data.length)

theorem overwrite_zero (buf data : List UInt8) :
    overwrite buf 0 data = data ++ buf.drop data.length := by simp [overwrite]

theorem overwrite_zero_take (buf data : List UInt8) :
    (overwrite buf 0 data).take data.length = data := by simp [overwrite_zero]

/-! ### Decimal text -/

def isDigit (b : UInt8) : Bool := decide (48 ≤ b) && decide (b ≤ 57)

/-- `isspace` in the C locale. -/
def isSpace (b : UInt8) : Bool := b = 32 || (decide (9 ≤ b) && decide (b ≤ 13))

/-- The number a string of digits denotes. -/
def digitValue (ds : List UInt8) : ℕ := ds.foldl (fun n b => 10 * n + (b.toNat - 48)) 0

/-- `atoi`: white space, a sign, digits up to the first byte that is none, and the value
clamped to the range of `int`, as `strtol` does where C says nothing. -/
def atoi (mem : List UInt8) : ℤ :=
  let number : List UInt8 → ℤ := fun ds => digitValue (ds.takeWhile isDigit)
  let v : ℤ := match mem.dropWhile isSpace with
    | [] => 0
    | b :: ds => if b = 45 then -number ds else if b = 43 then number ds else number (b :: ds)
  max (-2 ^ 31) (min (2 ^ 31 - 1) v)

/-- The decimal digits of a natural number, as `%u` prints it. -/
def decimal (n : ℕ) : List UInt8 :=
  if n = 0 then [48] else (Nat.digits 10 n).reverse.map fun d => UInt8.ofNat (48 + d)

/-- `%0wd`: the sign, zeros up to the width `w`, the digits. -/
def formatD (w : ℕ) (z : ℤ) : List UInt8 :=
  let sign : List UInt8 := if z < 0 then [45] else []
  let digits := decimal z.natAbs
  sign ++ List.replicate (w - sign.length - digits.length) 48 ++ digits

theorem digit_toNat {d : ℕ} (h : d < 10) : (UInt8.ofNat (48 + d)).toNat = 48 + d := by
  simp; omega

theorem isDigit_digit {d : ℕ} (h : d < 10) : isDigit (UInt8.ofNat (48 + d)) = true := by
  have := digit_toNat h
  simp only [isDigit, Bool.and_eq_true, decide_eq_true_eq, UInt8.le_iff_toNat_le, this]
  exact ⟨by simp, by simp; omega⟩

theorem isDigit_of_mem_decimal {n : ℕ} {b : UInt8} (hb : b ∈ decimal n) : isDigit b = true := by
  unfold decimal at hb
  split at hb
  · simp only [List.mem_singleton] at hb
    subst hb
    decide
  · obtain ⟨d, hd, rfl⟩ := List.mem_map.mp hb
    exact isDigit_digit (Nat.digits_lt_base (by norm_num) (List.mem_reverse.mp hd))

theorem decimal_ne_nil (n : ℕ) : decimal n ≠ [] := by
  unfold decimal
  split
  · simp
  · simp_all [Nat.digits_ne_nil_iff_ne_zero]

theorem digitValue_map_digits : ∀ {l : List ℕ}, (∀ d ∈ l, d < 10) →
    digitValue ((l.reverse).map fun d => UInt8.ofNat (48 + d)) = Nat.ofDigits 10 l
  | [], _ => rfl
  | d :: l, h => by
      have ih := digitValue_map_digits (l := l) fun e he => h e (List.mem_cons_of_mem _ he)
      have hd := digit_toNat (h d List.mem_cons_self)
      unfold digitValue at ih ⊢
      simp only [List.reverse_cons, List.map_append, List.foldl_append, ih, List.map_cons,
        List.map_nil, List.foldl_cons, List.foldl_nil, hd, Nat.ofDigits_cons]
      omega

theorem digitValue_decimal (n : ℕ) : digitValue (decimal n) = n := by
  unfold decimal
  split
  · subst n; rfl
  · rw [digitValue_map_digits fun d hd => Nat.digits_lt_base (by norm_num) hd, Nat.ofDigits_digits]

/-- `atoi` reads back a printed number, provided no digit follows it in memory. -/
theorem atoi_decimal_append {n : ℕ} (hn : n < 2 ^ 31) {rest : List UInt8}
    (hr : ∀ b ∈ rest.head?, isDigit b = false) : atoi (decimal n ++ rest) = n := by
  have htake : (decimal n ++ rest).takeWhile isDigit = decimal n := by
    rw [List.takeWhile_append_of_pos fun b hb => isDigit_of_mem_decimal hb]
    cases rest with
    | nil => simp
    | cons b rest => simp [hr b rfl]
  have hv := digitValue_decimal n
  cases hd : decimal n with
  | nil => exact absurd hd (decimal_ne_nil n)
  | cons b ds =>
      have hb : isDigit b = true := isDigit_of_mem_decimal (n := n) (by simp [hd])
      rw [hd] at htake hv
      have hb' : 48 ≤ b.toNat ∧ b.toNat ≤ 57 := by
        simpa [isDigit, UInt8.le_iff_toNat_le] using hb
      have hsp : isSpace b = false := by
        simp only [isSpace, Bool.or_eq_false_iff, Bool.and_eq_false_iff, decide_eq_false_iff_not,
          UInt8.le_iff_toNat_le, ← UInt8.toNat_inj]
        simp; omega
      have h45 : b ≠ 45 := fun h => by simp [h] at hb'
      have h43 : b ≠ 43 := fun h => by simp [h] at hb'
      simp only [List.cons_append] at htake ⊢
      simp only [atoi, List.dropWhile_cons, hsp, Bool.false_eq_true, if_false, h45, h43, htake, hv]
      omega

theorem decimal_length_le {n k : ℕ} (hk : 1 ≤ k) (h : n < 10 ^ k) : (decimal n).length ≤ k := by
  unfold decimal
  split
  · simpa using hk
  · simpa using (Nat.digits_length_le_iff (by norm_num) n).mpr h

theorem formatD_length_le {w : ℕ} {z : ℤ} (h : z.natAbs ≤ 2 ^ 31) :
    (formatD w z).length ≤ max w 11 := by
  have := decimal_length_le (n := z.natAbs) (k := 10) (by norm_num) (by omega)
  unfold formatD
  split <;> simp <;> omega

theorem nul_notMem_formatD (w : ℕ) (z : ℤ) : (0 : UInt8) ∉ formatD w z := by
  have hd : (0 : UInt8) ∉ decimal z.natAbs := fun h => by
    have := isDigit_of_mem_decimal h
    revert this
    decide
  unfold formatD
  split <;> simp [hd]

end CLib
