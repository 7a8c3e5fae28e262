import RemotusHardware.Base.SortedMap
import RemotusHardware.ReadFile

/-! # The grammar of what picojson accepts

`JsonValue c v` derives the text `c` of the value `v`, white space in front of it not counted.
The grammar is that of JSON with a few liberties: digits may be missing on one side of a decimal
point, a number may begin with zeros, bytes from 32 on stand for themselves in a string, and of
several members with one key the last counts (`SortedMap.lookup_ofList`).

`_parse` accepts what the grammar derives and nothing else (`parse_iff`): it reads the value of a
text in front of anything, except that a number ends where no more of its characters follow.  An
escape for a code point stands for its UTF-8 encoding (`utf8_toNat`). -/

namespace RemotusHardware

open CLib Scanner

namespace Picojson

/-! ### The texts of numbers -/

def Digits (ds : List UInt8) : Prop := ∀ b ∈ ds, isDigit b = true

/-- The sign of an exponent. -/
inductive Sign : List UInt8 → Bool → Prop
  | none : Sign [] false
  | plus : Sign [43] false
  | minus : Sign [45] true

inductive Fraction : List UInt8 → List UInt8 → Prop
  | none : Fraction [] []
  | point {ds : List UInt8} : Digits ds → Fraction (46 :: ds) ds

inductive Exponent : List UInt8 → ℤ → Prop
  | none : Exponent [] 0
  | letter {e : UInt8} {t ds : List UInt8} {negative : Bool} : e = 101 ∨ e = 69 →
      Sign t negative → Digits ds → ds ≠ [] →
        Exponent (e :: (t ++ ds)) (signed negative (digitValue ds))

/-- The text of a number.  There is a digit in it, and in front of the point unless it begins
with a minus. -/
inductive Numeral : List UInt8 → ℚ → Prop
  | mk {negative : Bool} {whole f ds e : List UInt8} {n : ℤ} : Digits whole → Fraction f ds →
      Exponent e n → whole ++ ds ≠ [] → (negative = false → whole ≠ []) →
      Numeral ((if negative then [45] else []) ++ (whole ++ (f ++ e)))
        (if negative then -((digitValue (whole ++ ds) : ℚ) * 10 ^ (n - ds.length))
          else (digitValue (whole ++ ds) : ℚ) * 10 ^ (n - ds.length))

theorem sign_split (s : List UInt8) : ∃ p, Sign p (sign s).1 ∧ s = p ++ (sign s).2 := by
  cases s with
  | nil => exact ⟨[], .none, rfl⟩
  | cons b s =>
      by_cases hminus : b = 45
      · refine ⟨[45], ?_, ?_⟩
        · simpa [sign, hminus] using Sign.minus
        · simp [sign, hminus]
      · by_cases hplus : b = 43
        · refine ⟨[43], ?_, ?_⟩
          · simpa [sign, hplus] using Sign.plus
          · simp [sign, hplus]
        · refine ⟨[], ?_, ?_⟩
          · simpa [sign, hminus, hplus] using Sign.none
          · simp [sign, hminus, hplus]

theorem sign_append {p ds : List UInt8} {negative : Bool} (hp : Sign p negative) (hds : Digits ds)
    (hne : ds ≠ []) (rest : List UInt8) : sign (p ++ (ds ++ rest)) = (negative, ds ++ rest) := by
  cases hp with
  | none =>
      cases ds with
      | nil => exact absurd rfl hne
      | cons b ds => exact sign_cons_of_isDigit (hds b List.mem_cons_self) _
  | plus => rfl
  | minus => rfl

/-- Digits are taken as far as they go. -/
theorem takeWhile_digits {ds rest : List UInt8} (h : Digits ds)
    (hrest : ∀ b ∈ rest.head?, isDigit b = false) :
    (ds ++ rest).takeWhile isDigit = ds ∧ (ds ++ rest).dropWhile isDigit = rest := by
  rw [List.takeWhile_append_of_pos h, List.dropWhile_append_of_pos h]
  cases rest with
  | nil => simp
  | cons b rest => simp [hrest b rfl]

theorem takeWhile_digits_self (s : List UInt8) : Digits (s.takeWhile isDigit) :=
  fun _ hb => List.mem_takeWhile_imp hb

theorem exponent_eq {s : List UInt8} (h : (exponent s).2 = []) : Exponent s (exponent s).1 := by
  cases s with
  | nil => exact .none
  | cons e t =>
      obtain ⟨p, hp, ht⟩ := sign_split t
      simp only [exponent] at h ⊢
      split at h
      · rename_i hdigits
        rw [if_pos hdigits]
        have hall := List.takeWhile_append_dropWhile (p := isDigit) (l := (sign t).2)
        rw [show (sign t).2.dropWhile isDigit = [] from h, List.append_nil] at hall
        have htext : e :: t = e :: (p ++ (sign t).2.takeWhile isDigit) := by rw [hall, ← ht]
        rw [htext]
        exact .letter hdigits.1 hp (takeWhile_digits_self _) hdigits.2
      · cases h

theorem exponent_of {s : List UInt8} {n : ℤ} (h : Exponent s n) : exponent s = (n, []) := by
  cases h with
  | none => rfl
  | @letter e t ds negative he ht hds hne =>
      have hsign := sign_append ht hds hne []
      obtain ⟨htake, hdrop⟩ := @takeWhile_digits ds [] hds (by simp)
      rw [List.append_nil] at hsign htake hdrop
      simp only [exponent, hsign, htake, hdrop, he, hne, ne_eq, not_false_eq_true, and_self,
        if_true]
      rfl

/-- An exponent does not begin with a digit. -/
theorem exponent_head {s : List UInt8} {n : ℤ} (h : Exponent s n) :
    ∀ b ∈ s.head?, isDigit b = false ∧ b ≠ 46 := by
  cases h with
  | none => simp
  | letter he =>
      intro b hb
      obtain rfl := Option.some.inj hb
      rcases he with rfl | rfl <;> decide

/-- The digits behind a point, as `strtod` takes them off, and what follows them. -/
def point (whole : List UInt8) : List UInt8 → List UInt8 × List UInt8
  | [] => ([], [])
  | b :: u => if b = 46 ∧ (whole ≠ [] ∨ u.takeWhile isDigit ≠ []) then
      (u.takeWhile isDigit, u.dropWhile isDigit) else ([], b :: u)

theorem point_split (whole t : List UInt8) :
    ∃ f, Fraction f (point whole t).1 ∧ t = f ++ (point whole t).2 := by
  cases t with
  | nil => exact ⟨[], .none, rfl⟩
  | cons b u =>
      by_cases hb : b = 46 ∧ (whole ≠ [] ∨ u.takeWhile isDigit ≠ [])
      · refine ⟨46 :: u.takeWhile isDigit, ?_, ?_⟩
        · rw [point, if_pos hb]
          exact .point (takeWhile_digits_self u)
        · rw [point, if_pos hb, List.cons_append, List.takeWhile_append_dropWhile, hb.1]
      · refine ⟨[], ?_, ?_⟩
        · rw [point, if_neg hb]
          exact .none
        · rw [point, if_neg hb]
          rfl

theorem point_append {whole f ds rest : List UInt8} (hf : Fraction f ds) (hne : whole ++ ds ≠ [])
    (hrest : ∀ b ∈ rest.head?, isDigit b = false ∧ b ≠ 46) :
    point whole (f ++ rest) = (ds, rest) := by
  cases hf with
  | none =>
      cases rest with
      | nil => rfl
      | cons b rest => simp [point, (hrest b rfl).2]
  | point hds =>
      obtain ⟨htake, hdrop⟩ := takeWhile_digits hds fun b hb => (hrest b hb).1
      have hcond : whole ≠ [] ∨ ds ≠ [] := by
        by_contra h
        exact hne (by simp_all)
      rw [List.cons_append, point, htake, hdrop, if_pos ⟨rfl, hcond⟩]

section
variable (round : ℚ → Double)

theorem strtod_eq (s : List UInt8) : strtod round s =
    if (sign s).2.takeWhile isDigit ++
        (point ((sign s).2.takeWhile isDigit) ((sign s).2.dropWhile isDigit)).1 = [] then
      (round 0, s)
    else
      let whole := (sign s).2.takeWhile isDigit
      let p := point whole ((sign s).2.dropWhile isDigit)
      let q := (digitValue (whole ++ p.1) : ℚ) * 10 ^ ((exponent p.2).1 - p.1.length)
      (round (if (sign s).1 then -q else q), (exponent p.2).2) := by
  simp only [strtod]
  cases (sign s).2.dropWhile isDigit <;> rfl

/-- `strtod` reads a whole text that begins with a digit or a minus if it is a numeral. -/
theorem numeral_of_strtod {ch : UInt8} {s : List UInt8} {x : Double}
    (hch : isDigit ch = true ∨ ch = 45) (h : strtod round (ch :: s) = (x, [])) :
    ∃ q, Numeral (ch :: s) q ∧ x = round q := by
  have hsign : ch :: s = (if (sign (ch :: s)).1 then [45] else []) ++ (sign (ch :: s)).2 ∧
      ((sign (ch :: s)).1 = false → (sign (ch :: s)).2.takeWhile isDigit ≠ []) := by
    rcases hch with hch | rfl
    · rw [sign_cons_of_isDigit hch]
      exact ⟨rfl, fun _ => by simp [hch]⟩
    · exact ⟨rfl, fun h => by simp [sign] at h⟩
  obtain ⟨htext, hwhole⟩ := hsign
  have hsplit := List.takeWhile_append_dropWhile (p := isDigit) (l := (sign (ch :: s)).2)
  rw [strtod_eq] at h
  obtain ⟨f, hf, hdrop⟩ := point_split ((sign (ch :: s)).2.takeWhile isDigit)
    ((sign (ch :: s)).2.dropWhile isDigit)
  split at h
  · cases (Prod.mk.inj h).2
  · rename_i hne
    obtain ⟨hx, hnil⟩ := Prod.mk.inj h
    have hnum := Numeral.mk (takeWhile_digits_self _) hf (exponent_eq hnil) hne hwhole
    rw [← hdrop, hsplit, ← htext] at hnum
    exact ⟨_, hnum, hx.symm⟩

theorem strtod_of_numeral {s : List UInt8} {q : ℚ} (h : Numeral s q) :
    strtod round s = (round q, []) := by
  cases h with
  | @mk negative whole f ds e n hwhole hf he hne hminus =>
      have hhead := exponent_head he
      have hstop : ∀ b ∈ (f ++ e).head?, isDigit b = false := by
        cases hf with
        | none => exact fun b hb => (hhead b hb).1
        | point =>
            intro b hb
            obtain rfl := Option.some.inj hb
            decide
      obtain ⟨htake, hdrop⟩ := takeWhile_digits hwhole hstop
      have hsign : sign ((if negative then [45] else []) ++ (whole ++ (f ++ e))) =
          (negative, whole ++ (f ++ e)) := by
        cases negative with
        | true => rfl
        | false => exact sign_append .none hwhole (hminus rfl) (f ++ e)
      rw [strtod_eq]
      simp only [hsign, htake, hdrop, point_append hf hne hhead, hne, exponent_of he, if_false]

end

/-! ### The texts of strings -/

/-- Four hexadecimal digits. -/
inductive Quad : List UInt8 → ℕ → Prop
  | mk {h₁ h₂ h₃ h₄ : UInt8} {d₁ d₂ d₃ d₄ : ℕ} : hexDigit h₁ = some d₁ → hexDigit h₂ = some d₂ →
      hexDigit h₃ = some d₃ → hexDigit h₄ = some d₄ →
      Quad [h₁, h₂, h₃, h₄] (((d₁ * 16 + d₂) * 16 + d₃) * 16 + d₄)

/-- What follows `\u`: a code unit, or two of them, and the code point. -/
inductive CodePoint : List UInt8 → ℕ → Prop
  | unit {t : List UInt8} {n : ℕ} : Quad t n → ¬ (0xd800 ≤ n ∧ n ≤ 0xdfff) → CodePoint t n
  | pair {t₁ t₂ : List UInt8} {n m : ℕ} : Quad t₁ n → Quad t₂ m → 0xd800 ≤ n → n < 0xdc00 →
      0xdc00 ≤ m → m ≤ 0xdfff →
      CodePoint (t₁ ++ 92 :: 117 :: t₂) (0x10000 + (n - 0xd800) * 0x400 + (m - 0xdc00))

/-- What stands between the quotes of a string. -/
inductive JsonString : List UInt8 → List UInt8 → Prop
  | nil : JsonString [] []
  | char {b : UInt8} {t s : List UInt8} : 32 ≤ b → b ≠ 34 → b ≠ 92 → JsonString t s →
      JsonString (b :: t) (b :: s)
  | escape {ch b : UInt8} {t s : List UInt8} : Picojson.escape ch = some b → JsonString t s →
      JsonString (92 :: ch :: t) (b :: s)
  | codePoint {c : Char} {u t s : List UInt8} : CodePoint u c.toNat → JsonString t s →
      JsonString (92 :: 117 :: (u ++ t)) (String.utf8EncodeChar c ++ s)

/-- Bits put in front of others are added to them. -/
theorem or_eq_add {i m : ℕ} (a : ℕ) (h : m < 2 ^ i) : 2 ^ i * a ||| m = m + 2 ^ i * a := by
  rw [← Nat.two_pow_add_eq_or_of_lt h, Nat.add_comm]

theorem utf8_toNat (c : Char) : utf8 c.toNat = String.utf8EncodeChar c := by
  have hv : c.val.toNat < 0x110000 := by
    rcases c.valid with h | h
    · omega
    · exact h.2
  have hlow (m : ℕ) : m &&& 0x3f = m % 64 := Nat.and_two_pow_sub_one_eq_mod m 6
  have h80 (m : ℕ) (hm : m < 64) : 0x80 ||| m = m + 0x80 := or_eq_add (i := 6) 2 hm
  have hc0 (m : ℕ) (hm : m < 32) : 0xc0 ||| m = m + 0xc0 := or_eq_add (i := 5) 6 hm
  have he0 (m : ℕ) (hm : m < 16) : 0xe0 ||| m = m + 0xe0 := or_eq_add (i := 4) 14 hm
  have hf0 (m : ℕ) (hm : m < 8) : 0xf0 ||| m = m + 0xf0 := or_eq_add (i := 3) 30 hm
  unfold utf8 String.utf8EncodeChar
  change (if c.val.toNat < 0x80 then _ else _) = _
  change (if c.val.toNat < 0x80 then [UInt8.ofNat c.val.toNat] else
    (if c.val.toNat < 0x800 then [UInt8.ofNat (0xc0 ||| c.val.toNat >>> 6)] else
      (if c.val.toNat < 0x10000 then [UInt8.ofNat (0xe0 ||| c.val.toNat >>> 12)]
      else [UInt8.ofNat (0xf0 ||| c.val.toNat >>> 18),
        UInt8.ofNat (0x80 ||| (c.val.toNat >>> 12 &&& 0x3f))])
      ++ [UInt8.ofNat (0x80 ||| (c.val.toNat >>> 6 &&& 0x3f))])
    ++ [UInt8.ofNat (0x80 ||| (c.val.toNat &&& 0x3f))]) = _
  generalize c.val.toNat = n at hv
  simp only [Nat.shiftRight_eq_div_pow, hlow, h80 _ (Nat.mod_lt _ (by norm_num : 0 < 64)),
    Nat.reducePow]
  by_cases h₁ : n < 0x80
  · rw [if_pos h₁, if_pos (show n ≤ 0x7f by omega)]
  rw [if_neg h₁, if_neg (show ¬ n ≤ 0x7f by omega)]
  by_cases h₂ : n < 0x800
  · rw [if_pos h₂, if_pos (show n ≤ 0x7ff by omega), hc0 _ (by omega),
      Nat.mod_eq_of_lt (a := n / 64) (by omega)]
    rfl
  rw [if_neg h₂, if_neg (show ¬ n ≤ 0x7ff by omega)]
  by_cases h₃ : n < 0x10000
  · rw [if_pos h₃, if_pos (show n ≤ 0xffff by omega), he0 _ (by omega),
      Nat.mod_eq_of_lt (a := n / 4096) (by omega)]
    rfl
  · rw [if_neg h₃, if_neg (show ¬ n ≤ 0xffff by omega), hf0 _ (by omega),
      Nat.mod_eq_of_lt (a := n / 262144) (by omega)]
    rfl

theorem getc_bind_eq {α β : Type} (q : β → Scanner β α) (b : β) (s : List β) :
    (getc >>= q) (b :: s) = q b s := rfl

theorem getc_bind_eq_some {α β : Type} {q : β → Scanner β α} {s r : List β} {v : α}
    (h : (getc >>= q) s = some (v, r)) : ∃ b t, s = b :: t ∧ q b t = some (v, r) := by
  cases s with
  | nil => cases h
  | cons b t => exact ⟨b, t, rfl, h⟩

/-- One turn of `_parse_quadhex`. -/
theorem quadhexFrom_succ {i u n : ℕ} {s r : List UInt8} :
    quadhexFrom (i + 1) u s = some (n, r) ↔ ∃ b d t, s = b :: t ∧ hexDigit b = some d ∧
      quadhexFrom i (u * 16 + d) t = some (n, r) := by
  cases s with
  | nil => simp [quadhexFrom, getc, bind_eq_some]
  | cons b t =>
      rw [quadhexFrom, getc_bind_eq]
      cases hd : hexDigit b <;> simp [hd]

theorem parseQuadhex_iff {s r : List UInt8} {n : ℕ} :
    parseQuadhex s = some (n, r) ↔ ∃ t, s = t ++ r ∧ Quad t n := by
  unfold parseQuadhex
  constructor
  · intro h
    obtain ⟨h₁, d₁, t, rfl, hd₁, h⟩ := quadhexFrom_succ.mp h
    obtain ⟨h₂, d₂, t, rfl, hd₂, h⟩ := quadhexFrom_succ.mp h
    obtain ⟨h₃, d₃, t, rfl, hd₃, h⟩ := quadhexFrom_succ.mp h
    obtain ⟨h₄, d₄, t, rfl, hd₄, h⟩ := quadhexFrom_succ.mp h
    obtain ⟨rfl, rfl⟩ := pure_eq_some.mp h
    refine ⟨[h₁, h₂, h₃, h₄], rfl, ?_⟩
    simpa using Quad.mk hd₁ hd₂ hd₃ hd₄
  · rintro ⟨t, rfl, ht⟩
    cases ht with
    | mk hd₁ hd₂ hd₃ hd₄ =>
        refine quadhexFrom_succ.mpr ⟨_, _, _, rfl, hd₁, ?_⟩
        refine quadhexFrom_succ.mpr ⟨_, _, _, rfl, hd₂, ?_⟩
        refine quadhexFrom_succ.mpr ⟨_, _, _, rfl, hd₃, ?_⟩
        refine quadhexFrom_succ.mpr ⟨_, _, _, rfl, hd₄, ?_⟩
        simp [quadhexFrom, pure_eq_some]

/-- The two halves of a pair, put together. -/
theorem surrogates_eq {n m : ℕ} (hm : 0xdc00 ≤ m) (hm' : m ≤ 0xdfff) :
    ((n - 0xd800) <<< 10 ||| (m - 0xdc00 &&& 0x3ff)) + 0x10000 =
      0x10000 + (n - 0xd800) * 0x400 + (m - 0xdc00) := by
  have hlow : m - 0xdc00 &&& 0x3ff = m - 0xdc00 :=
    (Nat.and_two_pow_sub_one_eq_mod _ 10).trans (Nat.mod_eq_of_lt (by omega))
  rw [hlow, ← Nat.shiftLeft_add_eq_or_of_lt (show m - 0xdc00 < 2 ^ 10 by omega), Nat.shiftLeft_eq]
  omega

theorem parseCodepoint_iff {out s r v : List UInt8} :
    parseCodepoint out s = some (v, r) ↔
      ∃ t n, s = t ++ r ∧ CodePoint t n ∧ v = out ++ utf8 n := by
  unfold parseCodepoint
  constructor
  · intro h
    obtain ⟨n, m, hn, hrest⟩ := bind_eq_some.mp h
    obtain ⟨t, rfl, ht⟩ := parseQuadhex_iff.mp hn
    by_cases hsurrogate : 0xd800 ≤ n ∧ n ≤ 0xdfff
    · rw [if_pos hsurrogate] at hrest
      by_cases hhigh : 0xdc00 ≤ n
      · rw [if_pos hhigh] at hrest
        cases hrest
      rw [if_neg hhigh] at hrest
      obtain ⟨backslash, m₁, rfl, hrest₁⟩ := getc_bind_eq_some hrest
      by_cases hbackslash : backslash = 92
      · rw [if_neg (not_not.mpr hbackslash)] at hrest₁
        obtain ⟨u, m₂, rfl, hrest₂⟩ := getc_bind_eq_some hrest₁
        by_cases hu : u = 117
        · rw [if_neg (not_not.mpr hu)] at hrest₂
          obtain ⟨second, m₃, hsecond, hrest₃⟩ := bind_eq_some.mp hrest₂
          obtain ⟨t₂, rfl, ht₂⟩ := parseQuadhex_iff.mp hsecond
          by_cases hlow : 0xdc00 ≤ second ∧ second ≤ 0xdfff
          · rw [if_neg (not_not.mpr hlow)] at hrest₃
            obtain ⟨hv, rfl⟩ := pure_eq_some.mp hrest₃
            refine ⟨t ++ 92 :: 117 :: t₂, _, by simp [hbackslash, hu],
              .pair ht ht₂ hsurrogate.1 (by omega) hlow.1 hlow.2, ?_⟩
            rw [← hv, surrogates_eq hlow.1 hlow.2]
          · rw [if_pos hlow] at hrest₃
            cases hrest₃
        · rw [if_pos hu] at hrest₂
          cases hrest₂
      · rw [if_pos hbackslash] at hrest₁
        cases hrest₁
    · rw [if_neg hsurrogate] at hrest
      obtain ⟨hv, rfl⟩ := pure_eq_some.mp hrest
      exact ⟨t, n, rfl, .unit ht hsurrogate, hv.symm⟩
  · rintro ⟨t, n, rfl, ht, rfl⟩
    cases ht with
    | unit hq hsurrogate =>
        rw [bind_of_eq (parseQuadhex_iff.mpr ⟨_, rfl, hq⟩), if_neg hsurrogate]
        rfl
    | @pair t₁ t₂ n m hq hq₂ h₁ h₂ h₃ h₄ =>
        have hfirst : parseQuadhex (t₁ ++ 92 :: 117 :: t₂ ++ r) =
            some (n, 92 :: 117 :: (t₂ ++ r)) := parseQuadhex_iff.mpr ⟨t₁, by simp, hq⟩
        rw [bind_of_eq hfirst, if_pos ⟨h₁, by omega⟩, if_neg (by omega), getc_bind_eq,
          if_neg (by simp), getc_bind_eq, if_neg (by simp),
          bind_of_eq (parseQuadhex_iff.mpr ⟨_, rfl, hq₂⟩), if_neg (not_not.mpr ⟨h₃, h₄⟩),
          surrogates_eq h₃ h₄]
        rfl

theorem hexDigit_lt {b : UInt8} {d : ℕ} (h : hexDigit b = some d) : d < 16 := by
  unfold hexDigit at h
  simp only [UInt8.le_iff_toNat_le] at h
  split at h
  · rename_i hb
    obtain rfl := Option.some.inj h
    have : b.toNat ≤ 57 := hb.2
    omega
  · split at h
    · rename_i hb
      obtain rfl := Option.some.inj h
      have : b.toNat ≤ 70 := hb.2
      omega
    · split at h
      · rename_i hb
        obtain rfl := Option.some.inj h
        have : b.toNat ≤ 102 := hb.2
        omega
      · cases h

theorem quad_lt {t : List UInt8} {n : ℕ} (h : Quad t n) : n < 0x10000 := by
  cases h with
  | mk h₁ h₂ h₃ h₄ =>
      have := hexDigit_lt h₁
      have := hexDigit_lt h₂
      have := hexDigit_lt h₃
      have := hexDigit_lt h₄
      omega

/-- What an escape stands for is a character of Unicode. -/
theorem codePoint_char {t : List UInt8} {n : ℕ} (h : CodePoint t n) : ∃ c : Char, c.toNat = n := by
  have hvalid : n.isValidChar := by
    cases h with
    | unit hq hsurrogate =>
        have := quad_lt hq
        unfold Nat.isValidChar
        omega
    | pair hq hq₂ h₁ h₂ h₃ h₄ =>
        unfold Nat.isValidChar
        omega
  exact ⟨Char.ofNatAux n hvalid, by simp [Char.toNat, Char.ofNatAux]⟩

/-- What follows a backslash in a string. -/
theorem parseEscape_some {out s r v : List UInt8} (h : parseEscape out s = some (v, r)) :
    (∃ ch b, s = ch :: r ∧ escape ch = some b ∧ v = out ++ [b]) ∨
      ∃ c : Char, ∃ u, s = 117 :: (u ++ r) ∧ CodePoint u c.toNat ∧
        v = out ++ String.utf8EncodeChar c := by
  unfold parseEscape at h
  obtain ⟨ch, t, rfl, hrest⟩ := getc_bind_eq_some h
  cases he : escape ch with
  | some b =>
      simp only [he] at hrest
      obtain ⟨hv, rfl⟩ := pure_eq_some.mp hrest
      exact .inl ⟨ch, b, rfl, he, hv.symm⟩
  | none =>
      simp only [he] at hrest
      split at hrest
      · rename_i hu
        obtain ⟨u, n, rfl, hu', rfl⟩ := parseCodepoint_iff.mp hrest
        obtain ⟨c, rfl⟩ := codePoint_char hu'
        exact .inr ⟨c, u, by rw [hu], hu', by rw [utf8_toNat]⟩
      · cases hrest

theorem parseString_sound : ∀ {k : ℕ} {out s r v : List UInt8}, parseString k out s = some (v, r) →
    ∃ t body, s = t ++ 34 :: r ∧ JsonString t body ∧ v = out ++ body
  | 0, _, _, _, _, h => by cases h
  | k + 1, out, s, r, v, h => by
      rw [parseString] at h
      obtain ⟨ch, m, rfl, hrest⟩ := getc_bind_eq_some h
      by_cases hlow : ch < 32
      · rw [if_pos hlow] at hrest
        cases hrest
      rw [if_neg hlow] at hrest
      by_cases hquote : ch = 34
      · rw [if_pos hquote] at hrest
        obtain ⟨rfl, rfl⟩ := pure_eq_some.mp hrest
        exact ⟨[], [], by rw [hquote]; rfl, .nil, by simp⟩
      rw [if_neg hquote] at hrest
      by_cases hbackslash : ch = 92
      · rw [if_pos hbackslash] at hrest
        obtain ⟨s', m', hescape, hmore⟩ := bind_eq_some.mp hrest
        obtain ⟨t, body, rfl, ht, rfl⟩ := parseString_sound hmore
        rcases parseEscape_some hescape with ⟨ch', b, rfl, he, rfl⟩ | ⟨c, u, rfl, hu, rfl⟩
        · exact ⟨92 :: ch' :: t, b :: body, by rw [hbackslash]; rfl, .escape he ht, by simp⟩
        · exact ⟨92 :: 117 :: (u ++ t), _, by simp [hbackslash], .codePoint hu ht, by simp⟩
      · rw [if_neg hbackslash] at hrest
        obtain ⟨t, body, rfl, ht, rfl⟩ := parseString_sound hrest
        refine ⟨ch :: t, ch :: body, rfl, .char ?_ hquote hbackslash ht, by simp⟩
        exact UInt8.not_lt.mp hlow

theorem parseString_complete {t body : List UInt8} (h : JsonString t body) :
    ∀ (out r : List UInt8) (k : ℕ), t.length < k →
      parseString k out (t ++ 34 :: r) = some (out ++ body, r) := by
  induction h with
  | nil =>
      intro out r k hk
      obtain ⟨k, rfl⟩ : ∃ j, k = j + 1 := ⟨k - 1, by omega⟩
      simp [parseString, getc_bind_eq, pure_eq_some]
  | @char b t s hlow hquote hbackslash _ ih =>
      intro out r k hk
      obtain ⟨k, rfl⟩ : ∃ j, k = j + 1 := ⟨k - 1, by omega⟩
      rw [List.length_cons] at hk
      rw [parseString, List.cons_append, getc_bind_eq, if_neg (UInt8.not_lt.mpr hlow),
        if_neg hquote, if_neg hbackslash, ih _ r k (by omega)]
      simp
  | @escape ch b t s he _ ih =>
      intro out r k hk
      obtain ⟨k, rfl⟩ : ∃ j, k = j + 1 := ⟨k - 1, by omega⟩
      rw [List.length_cons, List.length_cons] at hk
      have hescape : parseEscape out (ch :: (t ++ 34 :: r)) = some (out ++ [b], t ++ 34 :: r) := by
        rw [parseEscape, getc_bind_eq, he]
        rfl
      rw [parseString, List.cons_append, List.cons_append, getc_bind_eq, if_neg (by decide),
        if_neg (by decide), if_pos rfl, bind_of_eq hescape, ih _ r k (by omega)]
      simp
  | @codePoint c u t s hu _ ih =>
      intro out r k hk
      obtain ⟨k, rfl⟩ : ∃ j, k = j + 1 := ⟨k - 1, by omega⟩
      rw [List.length_cons, List.length_cons, List.length_append] at hk
      have hescape : parseEscape out (117 :: (u ++ (t ++ 34 :: r))) =
          some (out ++ String.utf8EncodeChar c, t ++ 34 :: r) := by
        rw [parseEscape, getc_bind_eq, show escape 117 = none from rfl]
        exact parseCodepoint_iff.mpr ⟨u, _, rfl, hu, by rw [utf8_toNat]⟩
      rw [parseString, List.cons_append, List.cons_append, List.append_assoc, getc_bind_eq,
        if_neg (by decide), if_neg (by decide), if_pos rfl, bind_of_eq hescape,
        ih _ r k (by omega)]
      simp

/-! ### The texts of values -/

theorem insertField_eq (key : List UInt8) (val : Value) (o : List (List UInt8 × Value)) :
    insertField key val o = SortedMap.insert key val o := by
  induction o with
  | nil => rfl
  | cons kv o ih => rw [insertField, SortedMap.insert, ih]

section
variable (round : ℚ → Double)

mutual

inductive JsonValue : List UInt8 → Value → Prop
  | null : JsonValue (ascii "null") .null
  | false : JsonValue (ascii "false") (.boolean false)
  | true : JsonValue (ascii "true") (.boolean true)
  | number {t : List UInt8} {q : ℚ} : Numeral t q → JsonValue t (.number (round q))
  | string {t s : List UInt8} : JsonString t s → JsonValue (34 :: (t ++ [34])) (.string s)
  | emptyArray {w : List UInt8} : Blank w → JsonValue (91 :: (w ++ [93])) (.array [])
  | array {t : List UInt8} {vs : List Value} : JsonItems t vs →
      JsonValue (91 :: (t ++ [93])) (.array vs)
  | emptyObject {w : List UInt8} : Blank w → JsonValue (123 :: (w ++ [125])) (.object [])
  | object {t : List UInt8} {kvs : List (List UInt8 × Value)} : JsonMembers t kvs →
      JsonValue (123 :: (t ++ [125])) (.object (SortedMap.ofList kvs))

/-- Values with commas between them. -/
inductive JsonItems : List UInt8 → List Value → Prop
  | last {w t w' : List UInt8} {v : Value} : Blank w → JsonValue t v → Blank w' →
      JsonItems (w ++ (t ++ w')) [v]
  | cons {w t w' u : List UInt8} {v : Value} {vs : List Value} : Blank w → JsonValue t v →
      Blank w' → JsonItems u vs → JsonItems (w ++ (t ++ (w' ++ 44 :: u))) (v :: vs)

/-- A key, a colon and a value. -/
inductive JsonMember : List UInt8 → List UInt8 × Value → Prop
  | mk {w₁ k w₂ w₃ t key : List UInt8} {v : Value} : Blank w₁ → JsonString k key → Blank w₂ →
      Blank w₃ → JsonValue t v →
      JsonMember (w₁ ++ 34 :: (k ++ 34 :: (w₂ ++ 58 :: (w₃ ++ t)))) (key, v)

/-- Members with commas between them. -/
inductive JsonMembers : List UInt8 → List (List UInt8 × Value) → Prop
  | last {t w : List UInt8} {kv : List UInt8 × Value} : JsonMember t kv → Blank w →
      JsonMembers (t ++ w) [kv]
  | cons {t w u : List UInt8} {kv : List UInt8 × Value} {kvs : List (List UInt8 × Value)} :
      JsonMember t kv → Blank w → JsonMembers u kvs → JsonMembers (t ++ (w ++ 44 :: u)) (kv :: kvs)

end

end

/-- A number is the one value that ends only where no more of its characters follow. -/
def IsNumber (v : Value) : Prop := ∃ x, v = .number x

/-! ### Leaves -/

theorem matchText_iff {p s r : List UInt8} : matchText p s = some (true, r) ↔ s = p ++ r := by
  induction p generalizing s with
  | nil => simp [matchText]
  | cons b p ih =>
      cases s with
      | nil => simp [matchText]
      | cons b' s =>
          by_cases hb : b' = b
          · simp [matchText, hb, ih]
          · simp [matchText, hb]

theorem keyword_iff {text : String} {val v : Value} {s r : List UInt8} :
    keyword text val s = some (v, r) ↔ s = ascii text ++ r ∧ v = val := by
  unfold keyword
  constructor
  · intro h
    obtain ⟨found, m, hm, hrest⟩ := bind_eq_some.mp h
    cases found with
    | false => cases hrest
    | true =>
        obtain ⟨rfl, rfl⟩ := pure_eq_some.mp hrest
        exact ⟨matchText_iff.mp hm, rfl⟩
  · rintro ⟨hs, rfl⟩
    rw [bind_of_eq (matchText_iff.mpr hs)]
    rfl

theorem expect_true {ch : UInt8} {w r : List UInt8} (hw : Blank w) (hch : isWhitespace ch = false) :
    expect ch (w ++ ch :: r) = some (true, r) := by
  rw [expect, expect_apply hw hch, if_pos rfl]

theorem expect_false {ch b : UInt8} {w r : List UInt8} (hw : Blank w) (hb : isWhitespace b = false)
    (hne : b ≠ ch) : expect ch (w ++ b :: r) = some (false, b :: r) := by
  rw [expect, expect_apply hw hb, if_neg hne]

theorem expect_some {ch : UInt8} {s r : List UInt8} {found : Bool}
    (h : expect ch s = some (found, r)) :
    (found = true ∧ ∃ w, Blank w ∧ s = w ++ ch :: r) ∨
      (found = false ∧
        ∃ w, Blank w ∧ s = w ++ r ∧ ∀ b ∈ r.head?, b ≠ ch ∧ isWhitespace b = false) := by
  unfold expect at h
  rcases nothing_or_token isWhitespace s with hs | ⟨w, b, t, rfl, hw, hb⟩
  · rw [expect_nothing hs] at h
    obtain ⟨rfl, rfl⟩ := Prod.mk.inj (Option.some.inj h)
    have hall := List.takeWhile_append_dropWhile (p := isWhitespace) (l := s)
    rw [hs] at hall
    exact .inr ⟨rfl, _, fun a ha => List.mem_takeWhile_imp ha, hall.symm, by simp⟩
  · rw [expect_apply hw hb] at h
    by_cases hch : b = ch
    · rw [if_pos hch] at h
      obtain ⟨rfl, rfl⟩ := Prod.mk.inj (Option.some.inj h)
      exact .inl ⟨rfl, w, hw, by rw [hch]⟩
    · rw [if_neg hch] at h
      obtain ⟨rfl, rfl⟩ := Prod.mk.inj (Option.some.inj h)
      refine .inr ⟨rfl, w, hw, rfl, ?_⟩
      intro a ha
      obtain rfl := Option.some.inj ha
      exact ⟨hch, hb⟩

theorem isNumberChar_of_isDigit {b : UInt8} (h : isDigit b = true) : isNumberChar b = true := by
  simp [isNumberChar, h]

theorem numeral_chars {t : List UInt8} {q : ℚ} (h : Numeral t q) :
    ∀ b ∈ t, isNumberChar b = true := by
  cases h with
  | @mk negative whole f ds e n hwhole hf he hne hminus =>
      have hdigits {l : List UInt8} (hl : Digits l) : ∀ b ∈ l, isNumberChar b = true :=
        fun b hb => isNumberChar_of_isDigit (hl b hb)
      have hsign : ∀ b ∈ (if negative then [45] else [] : List UInt8), isNumberChar b = true := by
        cases negative <;> simp [isNumberChar]
      have hfraction : ∀ b ∈ f, isNumberChar b = true := by
        cases hf with
        | none => simp
        | point hds => exact List.forall_mem_cons.mpr ⟨rfl, hdigits hds⟩
      have hexponent : ∀ b ∈ e, isNumberChar b = true := by
        cases he with
        | none => simp
        | @letter e t ds negative he ht hds _ =>
            have hletter : isNumberChar e = true := by rcases he with rfl | rfl <;> rfl
            have hsign : ∀ b ∈ t, isNumberChar b = true := by cases ht <;> simp [isNumberChar]
            exact List.forall_mem_cons.mpr
              ⟨hletter, List.forall_mem_append.mpr ⟨hsign, hdigits hds⟩⟩
      simp only [List.forall_mem_append]
      exact ⟨hsign, hdigits hwhole, hfraction, hexponent⟩

theorem numeral_head {t : List UInt8} {q : ℚ} (h : Numeral t q) :
    ∃ ch s, t = ch :: s ∧ (isDigit ch = true ∨ ch = 45) := by
  cases h with
  | @mk negative whole f ds e n hwhole hf he hne hminus =>
      cases negative with
      | true => exact ⟨45, _, rfl, .inr rfl⟩
      | false =>
          cases whole with
          | nil => exact absurd rfl (hminus rfl)
          | cons ch whole => exact ⟨ch, _, rfl, .inl (hwhole ch List.mem_cons_self)⟩

/-- A number does not begin as any other value does. -/
theorem number_start_ne {ch : UInt8} (h : isDigit ch = true ∨ ch = 45) :
    isWhitespace ch = false ∧ ch ≠ 110 ∧ ch ≠ 102 ∧ ch ≠ 116 ∧ ch ≠ 34 ∧ ch ≠ 91 ∧ ch ≠ 123 := by
  have hrange : 45 ≤ ch.toNat ∧ ch.toNat ≤ 57 := by
    rcases h with h | rfl
    · have := isDigit_iff.mp h
      omega
    · decide
  refine ⟨?_, ?_, ?_, ?_, ?_, ?_, ?_⟩
  · simp only [isWhitespace, Bool.or_eq_false_iff, decide_eq_false_iff_not, ← UInt8.toNat_inj]
    simp
    omega
  all_goals
    rintro rfl
    simp at hrange

section
variable (round : ℚ → Double)

theorem parseNumber_iff {ch : UInt8} {s r : List UInt8} {v : Value}
    (hch : isDigit ch = true ∨ ch = 45) :
    parseNumber round (ch :: s) = some (v, r) ↔ ∃ t q, ch :: s = t ++ r ∧ Numeral t q ∧
      v = .number (round q) ∧ Ends isNumberChar r := by
  have hsplit := List.takeWhile_append_dropWhile (p := isNumberChar) (l := ch :: s)
  have hcons : (ch :: s).takeWhile isNumberChar = ch :: s.takeWhile isNumberChar :=
    List.takeWhile_cons_of_pos (number_start hch)
  constructor
  · intro h
    unfold parseNumber at h
    split at h
    · rename_i x hx
      obtain ⟨hv, hr⟩ := Prod.mk.inj (Option.some.inj h)
      rw [hcons] at hx
      obtain ⟨q, hq, rfl⟩ := numeral_of_strtod round hch hx
      rw [← hcons] at hq
      refine ⟨_, q, by rw [← hr, hsplit], hq, hv.symm, ?_⟩
      rw [← hr]
      intro b hb
      have hhead := List.head?_dropWhile_not isNumberChar (ch :: s)
      rw [hb] at hhead
      simpa using hhead
    · cases h
  · rintro ⟨t, q, hs, ht, rfl, hr⟩
    have hchars := numeral_chars ht
    have hrest : r.takeWhile isNumberChar = [] ∧ r.dropWhile isNumberChar = r := by
      cases r with
      | nil => exact ⟨rfl, rfl⟩
      | cons b r => simp [hr b rfl]
    rw [hs, parseNumber, List.takeWhile_append_of_pos hchars, List.dropWhile_append_of_pos hchars,
      hrest.1, hrest.2, List.append_nil, strtod_of_numeral round ht]

/-! ### What is read is derived -/

/-- White space in front of the first value, or of the first key, belongs to it. -/
theorem JsonItems.blank {w t : List UInt8} {vs : List Value} (hw : Blank w)
    (h : JsonItems round t vs) : JsonItems round (w ++ t) vs := by
  cases h with
  | last hw' hv hw'' =>
      rw [← List.append_assoc]
      exact .last (List.forall_mem_append.mpr ⟨hw, hw'⟩) hv hw''
  | cons hw' hv hw'' h =>
      rw [← List.append_assoc]
      exact .cons (List.forall_mem_append.mpr ⟨hw, hw'⟩) hv hw'' h

theorem JsonMember.blank {w t : List UInt8} {kv : List UInt8 × Value} (hw : Blank w)
    (h : JsonMember round t kv) : JsonMember round (w ++ t) kv := by
  cases h with
  | mk hw' hk h₂ h₃ hv =>
      rw [← List.append_assoc]
      exact .mk (List.forall_mem_append.mpr ⟨hw, hw'⟩) hk h₂ h₃ hv

theorem JsonMembers.blank {w t : List UInt8} {kvs : List (List UInt8 × Value)} (hw : Blank w)
    (h : JsonMembers round t kvs) : JsonMembers round (w ++ t) kvs := by
  cases h with
  | last hm hw' =>
      rw [← List.append_assoc]
      exact .last (hm.blank round hw) hw'
  | cons hm hw' h =>
      rw [← List.append_assoc]
      exact .cons (hm.blank round hw) hw' h

/-- What `_parse` with fuel `k` reads is derived by the grammar. -/
def Sound (k : ℕ) : Prop := ∀ ⦃s r : List UInt8⦄ ⦃v : Value⦄, parseValue round k s = some (v, r) →
  ∃ w c, Blank w ∧ s = w ++ (c ++ r) ∧ JsonValue round c v ∧ (IsNumber v → Ends isNumberChar r)

theorem parseMember_sound {k : ℕ} {s r : List UInt8} {kv : List UInt8 × Value}
    (hvalue : Sound round k)
    (h : parseMember (parseString k []) (parseValue round k) s = some (kv, r)) :
    ∃ c, s = c ++ r ∧ JsonMember round c kv := by
  unfold parseMember at h
  obtain ⟨quote, s₁, h₁, h⟩ := bind_eq_some.mp h
  rcases expect_some h₁ with ⟨rfl, w₁, hw₁, hs⟩ | ⟨rfl, -⟩
  · obtain ⟨key, s₂, h₂, h⟩ := bind_eq_some.mp h
    obtain ⟨t, body, hs₁, ht, hkey⟩ := parseString_sound h₂
    obtain ⟨colon, s₃, h₃, h⟩ := bind_eq_some.mp h
    rcases expect_some h₃ with ⟨rfl, w₂, hw₂, hs₂⟩ | ⟨rfl, -⟩
    · obtain ⟨val, s₄, h₄, h⟩ := bind_eq_some.mp h
      obtain ⟨w₃, c, hw₃, hs₃, hc, -⟩ := hvalue h₄
      obtain ⟨hkv, rfl⟩ := pure_eq_some.mp h
      rw [List.nil_append] at hkey
      refine ⟨w₁ ++ 34 :: (t ++ 34 :: (w₂ ++ 58 :: (w₃ ++ c))), ?_, ?_⟩
      · rw [hs, hs₁, hs₂, hs₃]
        simp
      · rw [← hkv, hkey]
        exact .mk hw₁ ht hw₂ hw₃ hc
    · cases h
  · cases h

theorem parseItems_sound : ∀ {k : ℕ}, (∀ j ≤ k, Sound round j) → ∀ {a vs : List Value}
    {s r : List UInt8}, parseItems round k a s = some (vs, r) →
      ∃ t xs, s = t ++ 93 :: r ∧ JsonItems round t xs ∧ vs = a ++ xs
  | 0, _, _, _, _, _, h => by
      rw [parseItems] at h
      cases h
  | k + 1, hvalue, a, vs, s, r, h => by
      rw [parseItems] at h
      simp only [expect, expect_expect] at h
      obtain ⟨val, s₁, h₁, h⟩ := bind_eq_some.mp h
      obtain ⟨w, c, hw, hs, hc, -⟩ := hvalue k (Nat.le_succ k) h₁
      obtain ⟨b, s₂, h₂, h⟩ := bind_eq_some.mp h
      obtain ⟨w', hs₁, hw', -⟩ := token_eq_some.mp h₂
      by_cases hcomma : b = 44
      · rw [if_pos hcomma] at h
        obtain ⟨t, xs, hs₂, ht, hvs⟩ := parseItems_sound (fun j hj => hvalue j (by omega)) h
        refine ⟨w ++ (c ++ (w' ++ 44 :: t)), val :: xs, ?_, .cons hw hc hw' ht, ?_⟩
        · rw [hs, hs₁, hs₂, hcomma]
          simp
        · rw [hvs]
          simp
      · rw [if_neg hcomma] at h
        by_cases hclose : b = 93
        · rw [if_pos hclose] at h
          obtain ⟨rfl, rfl⟩ := pure_eq_some.mp h
          refine ⟨w ++ (c ++ w'), [val], ?_, .last hw hc hw', rfl⟩
          rw [hs, hs₁, hclose]
          simp
        · rw [if_neg hclose] at h
          cases h

theorem parseMembers_sound : ∀ {k : ℕ}, (∀ j ≤ k, Sound round j) →
    ∀ {o o' : List (List UInt8 × Value)} {s r : List UInt8},
      parseMembers round k o s = some (o', r) →
      ∃ t kvs, s = t ++ 125 :: r ∧ JsonMembers round t kvs ∧ o' = SortedMap.insertAll o kvs
  | 0, _, _, _, _, _, h => by
      rw [parseMembers] at h
      cases h
  | k + 1, hvalue, o, o', s, r, h => by
      rw [parseMembers] at h
      simp only [expect, expect_expect, insertField_eq] at h
      obtain ⟨⟨key, val⟩, s₁, h₁, h⟩ := bind_eq_some.mp h
      obtain ⟨c, hs, hc⟩ := parseMember_sound round (hvalue k (Nat.le_succ k)) h₁
      obtain ⟨b, s₂, h₂, h⟩ := bind_eq_some.mp h
      obtain ⟨w', hs₁, hw', -⟩ := token_eq_some.mp h₂
      by_cases hcomma : b = 44
      · rw [if_pos hcomma] at h
        obtain ⟨t, kvs, hs₂, ht, ho⟩ := parseMembers_sound (fun j hj => hvalue j (by omega)) h
        refine ⟨c ++ (w' ++ 44 :: t), (key, val) :: kvs, ?_, .cons hc hw' ht, ho⟩
        rw [hs, hs₁, hs₂, hcomma]
        simp
      · rw [if_neg hcomma] at h
        by_cases hclose : b = 125
        · rw [if_pos hclose] at h
          obtain ⟨rfl, rfl⟩ := pure_eq_some.mp h
          refine ⟨c ++ w', [(key, val)], ?_, .last hc hw', rfl⟩
          rw [hs, hs₁, hclose]
          simp
        · rw [if_neg hclose] at h
          cases h

theorem parseArray_sound {k : ℕ} (hvalue : ∀ j ≤ k, Sound round j) {vs : List Value}
    {s r : List UInt8} (h : parseArray (parseItems round k) s = some (vs, r)) :
    ∃ c, s = c ++ r ∧ JsonValue round (91 :: c) (.array vs) := by
  unfold parseArray at h
  obtain ⟨closed, s₁, h₁, h⟩ := bind_eq_some.mp h
  rcases expect_some h₁ with ⟨rfl, w, hw, hs⟩ | ⟨rfl, w, hw, hs, -⟩
  · obtain ⟨rfl, rfl⟩ := pure_eq_some.mp h
    exact ⟨w ++ [93], by simp [hs], .emptyArray hw⟩
  · obtain ⟨t, xs, hs₁, ht, rfl⟩ := parseItems_sound round hvalue h
    exact ⟨(w ++ t) ++ [93], by simp [hs, hs₁], .array (ht.blank round hw)⟩

theorem parseObject_sound {k : ℕ} (hvalue : ∀ j ≤ k, Sound round j)
    {o : List (List UInt8 × Value)} {s r : List UInt8}
    (h : parseObject (parseMembers round k) s = some (o, r)) :
    ∃ c, s = c ++ r ∧ JsonValue round (123 :: c) (.object o) := by
  unfold parseObject at h
  obtain ⟨closed, s₁, h₁, h⟩ := bind_eq_some.mp h
  rcases expect_some h₁ with ⟨rfl, w, hw, hs⟩ | ⟨rfl, w, hw, hs, -⟩
  · obtain ⟨rfl, rfl⟩ := pure_eq_some.mp h
    exact ⟨w ++ [125], by simp [hs], .emptyObject hw⟩
  · obtain ⟨t, kvs, hs₁, ht, rfl⟩ := parseMembers_sound round hvalue h
    exact ⟨(w ++ t) ++ [125], by simp [hs, hs₁], .object (ht.blank round hw)⟩

/-- What `_parse` goes on with, by the first character of a value. -/
def valueAfter (k : ℕ) (ch : UInt8) : Scanner UInt8 Value :=
  if ch = 110 then keyword "ull" .null
  else if ch = 102 then keyword "alse" (.boolean false)
  else if ch = 116 then keyword "rue" (.boolean true)
  else if ch = 34 then do
    let s ← parseString k []
    pure (.string s)
  else if ch = 91 then do
    let a ← parseArray (parseItems round k)
    pure (.array a)
  else if ch = 123 then do
    let o ← parseObject (parseMembers round k)
    pure (.object o)
  else if isDigit ch = true ∨ ch = 45 then fun s => parseNumber round (ch :: s)
  else fail

theorem parseValue_succ (k : ℕ) :
    parseValue round (k + 1) = token isWhitespace >>= valueAfter round k := by
  rw [parseValue]
  rfl

theorem valueAfter_sound {k : ℕ} (hvalue : ∀ j ≤ k, Sound round j) {ch : UInt8} {s r : List UInt8}
    {v : Value} (h : valueAfter round k ch s = some (v, r)) :
    ∃ c, ch :: s = c ++ r ∧ JsonValue round c v ∧ (IsNumber v → Ends isNumberChar r) := by
  unfold valueAfter at h
  split_ifs at h with hnull hfalse htrue hquote harray hobject hnumber
  · obtain ⟨rfl, rfl⟩ := keyword_iff.mp h
    exact ⟨_, by rw [hnull]; rfl, .null, by rintro ⟨x, hx⟩; cases hx⟩
  · obtain ⟨rfl, rfl⟩ := keyword_iff.mp h
    exact ⟨_, by rw [hfalse]; rfl, .false, by rintro ⟨x, hx⟩; cases hx⟩
  · obtain ⟨rfl, rfl⟩ := keyword_iff.mp h
    exact ⟨_, by rw [htrue]; rfl, .true, by rintro ⟨x, hx⟩; cases hx⟩
  · obtain ⟨body, s₁, h₁, h₂⟩ := bind_eq_some.mp h
    obtain ⟨rfl, rfl⟩ := pure_eq_some.mp h₂
    obtain ⟨t, _, rfl, ht, rfl⟩ := parseString_sound h₁
    exact ⟨34 :: (t ++ [34]), by simp [hquote], .string ht, by rintro ⟨x, hx⟩; cases hx⟩
  · obtain ⟨a, s₁, h₁, h⟩ := bind_eq_some.mp h
    obtain ⟨rfl, rfl⟩ := pure_eq_some.mp h
    obtain ⟨c, rfl, hc⟩ := parseArray_sound round hvalue h₁
    exact ⟨91 :: c, by rw [harray]; rfl, hc, by rintro ⟨x, hx⟩; cases hx⟩
  · obtain ⟨o, s₁, h₁, h⟩ := bind_eq_some.mp h
    obtain ⟨rfl, rfl⟩ := pure_eq_some.mp h
    obtain ⟨c, rfl, hc⟩ := parseObject_sound round hvalue h₁
    exact ⟨123 :: c, by rw [hobject]; rfl, hc, by rintro ⟨x, hx⟩; cases hx⟩
  · obtain ⟨t, q, hs, ht, rfl, hr⟩ := (parseNumber_iff round hnumber).mp h
    exact ⟨t, hs, .number ht, fun _ => hr⟩
  · cases h

theorem parseValue_sound (k : ℕ) : Sound round k := by
  induction k using Nat.strong_induction_on with
  | _ k ih =>
      intro s r v h
      cases k with
      | zero =>
          rw [parseValue] at h
          cases h
      | succ k =>
          rw [parseValue_succ] at h
          obtain ⟨ch, m, htoken, hrest⟩ := bind_eq_some.mp h
          obtain ⟨w, hs, hw, -⟩ := token_eq_some.mp htoken
          obtain ⟨c, hm, hc, hr⟩ := valueAfter_sound round (fun j hj => ih j (by omega)) hrest
          exact ⟨w, c, hw, by rw [hs, hm], hc, hr⟩

/-! ### What is derived is read -/

theorem ends_blank {w : List UInt8} (hw : Blank w) {b : UInt8} (hb : isNumberChar b = false)
    (r : List UInt8) : Ends isNumberChar (w ++ b :: r) := by
  intro a ha
  cases w with
  | nil =>
      obtain rfl := Option.some.inj ha
      exact hb
  | cons c w =>
      obtain rfl := Option.some.inj ha
      have hc := hw c List.mem_cons_self
      simp only [isWhitespace, Bool.or_eq_true, decide_eq_true_eq] at hc
      rcases hc with ((rfl | rfl) | rfl) | rfl <;> rfl

/-- `_parse` with fuel `k` reads the texts that are no longer than that. -/
def Complete (k : ℕ) : Prop := ∀ ⦃w c r : List UInt8⦄ ⦃v : Value⦄, Blank w → JsonValue round c v →
  w.length + c.length ≤ k → (IsNumber v → Ends isNumberChar r) →
    parseValue round k (w ++ (c ++ r)) = some (v, r)

theorem parseMember_complete {k : ℕ} (hvalue : Complete round k) {c r : List UInt8}
    {kv : List UInt8 × Value} (h : JsonMember round c kv) (hk : c.length ≤ k)
    (hr : Ends isNumberChar r) :
    parseMember (parseString k []) (parseValue round k) (c ++ r) = some (kv, r) := by
  cases h with
  | @mk w₁ t w₂ w₃ c key v hw₁ ht hw₂ hw₃ hc =>
      simp only [List.length_append, List.length_cons] at hk
      have hstring := parseString_complete ht [] (w₂ ++ 58 :: (w₃ ++ (c ++ r))) k (by omega)
      have hval := hvalue hw₃ hc (by omega) fun _ => hr
      have htext : w₁ ++ 34 :: (t ++ 34 :: (w₂ ++ 58 :: (w₃ ++ c))) ++ r =
          w₁ ++ 34 :: (t ++ 34 :: (w₂ ++ 58 :: (w₃ ++ (c ++ r)))) := by simp
      rw [htext, parseMember, bind_of_eq (expect_true hw₁ rfl), if_pos rfl, bind_of_eq hstring,
        bind_of_eq (expect_true hw₂ rfl), if_pos rfl, bind_of_eq hval]
      rfl

theorem parseItems_complete : ∀ {k : ℕ}, (∀ j ≤ k, Complete round j) → ∀ {t : List UInt8}
    {xs : List Value}, JsonItems round t xs → t.length < k → ∀ (a : List Value) (r : List UInt8),
      parseItems round k a (t ++ 93 :: r) = some (a ++ xs, r)
  | 0, _, _, _, _, hk, _, _ => by omega
  | k + 1, hvalue, _, _, h, hk, a, r => by
      rw [parseItems]
      simp only [expect, expect_expect]
      cases h with
      | @last w c w' v hw hc hw' =>
          simp only [List.length_append] at hk
          have hval := hvalue k (Nat.le_succ k) (r := w' ++ 93 :: r) hw hc (by omega)
            fun _ => ends_blank hw' rfl r
          have htext : w ++ (c ++ w') ++ 93 :: r = w ++ (c ++ (w' ++ 93 :: r)) := by simp
          rw [htext, bind_of_eq hval, bind_of_eq (token_eq_some.mpr ⟨w', rfl, hw', rfl⟩),
            if_neg (by decide), if_pos rfl]
          rfl
      | @cons w c w' u v vs hw hc hw' hu =>
          simp only [List.length_append, List.length_cons] at hk
          have hval := hvalue k (Nat.le_succ k) (r := w' ++ 44 :: (u ++ 93 :: r)) hw hc (by omega)
            fun _ => ends_blank hw' rfl _
          have htext : w ++ (c ++ (w' ++ 44 :: u)) ++ 93 :: r =
              w ++ (c ++ (w' ++ 44 :: (u ++ 93 :: r))) := by simp
          have ih := parseItems_complete (k := k) (fun j hj => hvalue j (by omega)) hu (by omega)
            (a ++ [v]) r
          rw [htext, bind_of_eq hval, bind_of_eq (token_eq_some.mpr ⟨w', rfl, hw', rfl⟩),
            if_pos rfl, ih]
          simp

theorem parseMembers_complete : ∀ {k : ℕ}, (∀ j ≤ k, Complete round j) → ∀ {t : List UInt8}
    {kvs : List (List UInt8 × Value)}, JsonMembers round t kvs → t.length < k →
    ∀ (o : List (List UInt8 × Value)) (r : List UInt8),
      parseMembers round k o (t ++ 125 :: r) = some (SortedMap.insertAll o kvs, r)
  | 0, _, _, _, _, hk, _, _ => by omega
  | k + 1, hvalue, _, _, h, hk, o, r => by
      rw [parseMembers]
      simp only [expect, expect_expect, insertField_eq]
      cases h with
      | @last c w kv hc hw =>
          simp only [List.length_append] at hk
          have hmember := parseMember_complete round (hvalue k (Nat.le_succ k)) hc (by omega)
            (ends_blank hw (b := 125) rfl r)
          have htext : c ++ w ++ 125 :: r = c ++ (w ++ 125 :: r) := by simp
          rw [htext, bind_of_eq hmember, bind_of_eq (token_eq_some.mpr ⟨w, rfl, hw, rfl⟩),
            if_neg (by decide), if_pos rfl]
          rfl
      | @cons c w u kv kvs hc hw hu =>
          simp only [List.length_append, List.length_cons] at hk
          have hmember := parseMember_complete round (hvalue k (Nat.le_succ k)) hc (by omega)
            (ends_blank hw (b := 44) rfl (u ++ 125 :: r))
          have htext : c ++ (w ++ 44 :: u) ++ 125 :: r = c ++ (w ++ 44 :: (u ++ 125 :: r)) := by
            simp
          have ih := parseMembers_complete (k := k) (fun j hj => hvalue j (by omega)) hu (by omega)
            (SortedMap.insert kv.1 kv.2 o) r
          rw [htext, bind_of_eq hmember, bind_of_eq (token_eq_some.mpr ⟨w, rfl, hw, rfl⟩),
            if_pos rfl, ih]
          rfl

theorem value_head {c : List UInt8} {v : Value} (h : JsonValue round c v) :
    ∃ b u, c = b :: u ∧ isWhitespace b = false ∧ b ≠ 93 := by
  cases h with
  | number ht =>
      obtain ⟨b, u, rfl, hb⟩ := numeral_head ht
      refine ⟨b, u, rfl, (number_start_ne hb).1, ?_⟩
      rintro rfl
      rcases hb with hb | hb <;> revert hb <;> decide
  | _ => exact ⟨_, _, rfl, rfl, by decide⟩

theorem blank_nil : Blank [] := List.forall_mem_nil _

/-- The first value of an array is not taken for its end. -/
theorem items_head {t : List UInt8} {vs : List Value} (h : JsonItems round t vs) :
    ∃ w b u, t = w ++ b :: u ∧ Blank w ∧ isWhitespace b = false ∧ b ≠ 93 ∧
      JsonItems round (b :: u) vs := by
  cases h with
  | last hw hc hw' =>
      obtain ⟨b, u, rfl, hb, hne⟩ := value_head round hc
      exact ⟨_, b, _, rfl, hw, hb, hne, .last blank_nil hc hw'⟩
  | cons hw hc hw' hu =>
      obtain ⟨b, u, rfl, hb, hne⟩ := value_head round hc
      exact ⟨_, b, _, rfl, hw, hb, hne, .cons blank_nil hc hw' hu⟩

theorem member_head {c : List UInt8} {kv : List UInt8 × Value} (h : JsonMember round c kv) :
    ∃ w u, c = w ++ 34 :: u ∧ Blank w ∧ JsonMember round (34 :: u) kv := by
  cases h with
  | mk hw hk hw₂ hw₃ hc => exact ⟨_, _, rfl, hw, .mk blank_nil hk hw₂ hw₃ hc⟩

/-- Nor is the first key of an object. -/
theorem members_head {t : List UInt8} {kvs : List (List UInt8 × Value)}
    (h : JsonMembers round t kvs) :
    ∃ w u, t = w ++ 34 :: u ∧ Blank w ∧ JsonMembers round (34 :: u) kvs := by
  cases h with
  | last hc hw' =>
      obtain ⟨w, u, rfl, hw, hm⟩ := member_head round hc
      exact ⟨w, _, List.append_assoc .., hw, .last hm hw'⟩
  | cons hc hw' hu =>
      obtain ⟨w, u, rfl, hw, hm⟩ := member_head round hc
      exact ⟨w, _, List.append_assoc .., hw, .cons hm hw' hu⟩

theorem parseArray_complete {k : ℕ} (hvalue : ∀ j ≤ k, Complete round j) {t : List UInt8}
    {vs : List Value} (h : JsonItems round t vs) (hk : t.length < k) (r : List UInt8) :
    parseArray (parseItems round k) (t ++ 93 :: r) = some (vs, r) := by
  obtain ⟨w, b, u, rfl, hw, hb, hne, hitems⟩ := items_head round h
  rw [List.length_append] at hk
  rw [parseArray, List.append_assoc, List.cons_append, bind_of_eq (expect_false hw hb hne)]
  exact parseItems_complete round hvalue hitems (by omega) [] r

theorem parseObject_complete {k : ℕ} (hvalue : ∀ j ≤ k, Complete round j) {t : List UInt8}
    {kvs : List (List UInt8 × Value)} (h : JsonMembers round t kvs) (hk : t.length < k)
    (r : List UInt8) :
    parseObject (parseMembers round k) (t ++ 125 :: r) = some (SortedMap.ofList kvs, r) := by
  obtain ⟨w, u, rfl, hw, hmembers⟩ := members_head round h
  rw [List.length_append] at hk
  rw [parseObject, List.append_assoc, List.cons_append,
    bind_of_eq (expect_false (b := 34) hw rfl (by decide))]
  exact parseMembers_complete round hvalue hmembers (by omega) [] r

theorem valueAfter_complete {k : ℕ} (hvalue : ∀ j ≤ k, Complete round j) {b : UInt8}
    {u r : List UInt8} {v : Value} (h : JsonValue round (b :: u) v) (hk : u.length ≤ k)
    (hr : IsNumber v → Ends isNumberChar r) : valueAfter round k b (u ++ r) = some (v, r) := by
  generalize hc : b :: u = c at h
  cases h with
  | null =>
      obtain ⟨rfl, rfl⟩ := List.cons.inj hc
      exact keyword_iff.mpr ⟨rfl, rfl⟩
  | false =>
      obtain ⟨rfl, rfl⟩ := List.cons.inj hc
      exact keyword_iff.mpr ⟨rfl, rfl⟩
  | true =>
      obtain ⟨rfl, rfl⟩ := List.cons.inj hc
      exact keyword_iff.mpr ⟨rfl, rfl⟩
  | @number t q ht =>
      subst hc
      have hb : isDigit b = true ∨ b = 45 := by
        obtain ⟨ch, s, hs, hch⟩ := numeral_head ht
        obtain ⟨rfl, -⟩ := List.cons.inj hs
        exact hch
      obtain ⟨-, h₁, h₂, h₃, h₄, h₅, h₆⟩ := number_start_ne hb
      rw [valueAfter, if_neg h₁, if_neg h₂, if_neg h₃, if_neg h₄, if_neg h₅, if_neg h₆, if_pos hb]
      exact (parseNumber_iff round hb).mpr ⟨_, q, rfl, ht, rfl, hr ⟨_, rfl⟩⟩
  | @string t s ht =>
      obtain ⟨rfl, rfl⟩ := List.cons.inj hc
      rw [List.length_append, List.length_singleton] at hk
      have hstring := parseString_complete ht [] r k (by omega)
      rw [List.append_assoc, List.singleton_append, valueAfter]
      exact bind_of_eq hstring
  | @emptyArray w hw =>
      obtain ⟨rfl, rfl⟩ := List.cons.inj hc
      have harray : parseArray (parseItems round k) (w ++ 93 :: r) = some ([], r) := by
        rw [parseArray, bind_of_eq (expect_true hw rfl)]
        rfl
      rw [List.append_assoc, List.singleton_append, valueAfter]
      exact bind_of_eq harray
  | @array t vs ht =>
      obtain ⟨rfl, rfl⟩ := List.cons.inj hc
      rw [List.length_append, List.length_singleton] at hk
      rw [List.append_assoc, List.singleton_append, valueAfter]
      exact bind_of_eq (parseArray_complete round hvalue ht (by omega) r)
  | @emptyObject w hw =>
      obtain ⟨rfl, rfl⟩ := List.cons.inj hc
      have hobject : parseObject (parseMembers round k) (w ++ 125 :: r) = some ([], r) := by
        rw [parseObject, bind_of_eq (expect_true hw rfl)]
        rfl
      rw [List.append_assoc, List.singleton_append, valueAfter]
      exact bind_of_eq hobject
  | @object t kvs ht =>
      obtain ⟨rfl, rfl⟩ := List.cons.inj hc
      rw [List.length_append, List.length_singleton] at hk
      rw [List.append_assoc, List.singleton_append, valueAfter]
      exact bind_of_eq (parseObject_complete round hvalue ht (by omega) r)

theorem parseValue_complete (k : ℕ) : Complete round k := by
  induction k using Nat.strong_induction_on with
  | _ k ih =>
      intro w c r v hw hc hk hr
      obtain ⟨b, u, rfl, hb, -⟩ := value_head round hc
      rw [List.length_cons] at hk
      obtain ⟨k, rfl⟩ : ∃ j, k = j + 1 := ⟨k - 1, by omega⟩
      have ih : ∀ j ≤ k, Complete round j := fun j hj => ih j (by omega)
      rw [parseValue_succ, List.cons_append, bind_of_eq (token_eq_some.mpr ⟨w, rfl, hw, hb⟩)]
      exact valueAfter_complete round ih hc (by omega) hr

/-- `_parse` reads a value off a text exactly if the grammar derives it, white space in front not
counted; a number also has to end there. -/
theorem parse_iff {s r : List UInt8} {v : Value} :
    parse round s = some (v, r) ↔ ∃ w c, s = w ++ (c ++ r) ∧ Blank w ∧ JsonValue round c v ∧
      (IsNumber v → Ends isNumberChar r) := by
  constructor
  · intro h
    obtain ⟨w, c, hw, hs, hc, hr⟩ := parseValue_sound round _ h
    exact ⟨w, c, hs, hw, hc, hr⟩
  · rintro ⟨w, c, rfl, hw, hc, hr⟩
    apply parseValue_complete round _ hw hc ?_ hr
    simp only [List.length_append]
    omega

end

end Picojson

end RemotusHardware
