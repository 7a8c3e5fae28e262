import RemotusHardware.Base.Rounding
import RemotusHardware.Grammar

/-! # Writing JSON

`value::serialize` of `picojson.h`.  The text of a value is a text of that value in the grammar of
`_parse` (`serialize_derives`), so that it is read back as the same value, whatever follows it
(`parse_serialize`), if the value is `Printable`: if the keys of its objects ascend, as they do
in a `std::map` and in everything `_parse` reads (`parse_wellFormed`), and if its numbers survive.
A number is written with six digits behind the point, or none if it is an integer, into a buffer
that holds 255 characters; an infinite one is not written as JSON. -/

namespace RemotusHardware

open CLib Scanner Rounding

namespace Picojson

/-! ### Numbers -/

/-- The millionths `"%f"` prints. -/
def millionths (q : ℚ) : ℕ := (roundEven (|q| * 10 ^ 6)).toNat

/-- `"%.f"` of a number without a fraction, `"%f"` of another one.  One zero stands for both. -/
def numberText : Double → List UInt8
  | .finite q =>
      (if q < 0 then [45] else []) ++
        if q.den = 1 then formatD 0 (q.num.natAbs : ℕ)
        else formatD 0 (millionths q / 10 ^ 6 : ℕ) ++ 46 :: formatD 6 (millionths q % 10 ^ 6 : ℕ)
  | .infinite negative => ascii (if negative then "-inf" else "inf")

/-- `value::to_str`; `buf` has room for 255 characters of a number. -/
def to_str : Value → List UInt8
  | .null => ascii "null"
  | .boolean b => ascii (if b then "true" else "false")
  | .number x => (numberText x).take 255
  | .string s => s
  | .array _ => ascii "array"
  | .object _ => ascii "object"

/-- The number that is printed in the place of `q`. -/
def printed (q : ℚ) : ℚ :=
  if q.den = 1 then q else if q < 0 then -(millionths q / 10 ^ 6) else millionths q / 10 ^ 6

/-! ### Strings and values -/

/-- A digit of `%x`. -/
def hexChar (d : ℕ) : UInt8 := UInt8.ofNat (if d < 10 then 48 + d else 87 + d)

/-- The text of a character of a string. -/
def escapeChar (b : UInt8) : List UInt8 :=
  if b = 34 then [92, 34]
  else if b = 92 then [92, 92]
  else if b = 47 then [92, 47]
  else if b = 8 then [92, 98]
  else if b = 12 then [92, 102]
  else if b = 10 then [92, 110]
  else if b = 13 then [92, 114]
  else if b = 9 then [92, 116]
  else if b < 32 ∨ b = 127 then
    [92, 117, 48, 48, hexChar (b.toNat / 16), hexChar (b.toNat % 16)]
  else [b]

def serialize_str (s : List UInt8) : List UInt8 := 34 :: (s.flatMap escapeChar ++ [34])

mutual

/-- `value::serialize`. -/
def serialize : Value → List UInt8
  | .string s => serialize_str s
  | .array vs => 91 :: (serializeItems vs ++ [93])
  | .object kvs => 123 :: (serializeMembers kvs ++ [125])
  | .null => to_str .null
  | .boolean b => to_str (.boolean b)
  | .number x => to_str (.number x)

/-- The loop over an array. -/
def serializeItems : List Value → List UInt8
  | [] => []
  | [v] => serialize v
  | v :: v' :: vs => serialize v ++ 44 :: serializeItems (v' :: vs)

/-- The loop over an object. -/
def serializeMembers : List (List UInt8 × Value) → List UInt8
  | [] => []
  | [(key, v)] => serialize_str key ++ 58 :: serialize v
  | (key, v) :: kv :: kvs =>
      serialize_str key ++ 58 :: (serialize v ++ 44 :: serializeMembers (kv :: kvs))

end

/-! ### Values that can be read back -/

/-- Objects are maps: their keys ascend. -/
inductive WellFormed : Value → Prop
  | null : WellFormed .null
  | boolean (b : Bool) : WellFormed (.boolean b)
  | number (x : Double) : WellFormed (.number x)
  | string (s : List UInt8) : WellFormed (.string s)
  | array {vs : List Value} : (∀ v ∈ vs, WellFormed v) → WellFormed (.array vs)
  | object {kvs : List (List UInt8 × Value)} : SortedMap.Sorted kvs →
      (∀ kv ∈ kvs, WellFormed kv.2) → WellFormed (.object kvs)

section
variable (round : ℚ → Double)

/-- Well formed, with numbers that survive being printed and read. -/
inductive Printable : Value → Prop
  | null : Printable .null
  | boolean (b : Bool) : Printable (.boolean b)
  | number {q : ℚ} : round (printed q) = .finite q → (numberText (.finite q)).length < 256 →
      Printable (.number (.finite q))
  | string (s : List UInt8) : Printable (.string s)
  | array {vs : List Value} : (∀ v ∈ vs, Printable v) → Printable (.array vs)
  | object {kvs : List (List UInt8 × Value)} : SortedMap.Sorted kvs →
      (∀ kv ∈ kvs, Printable kv.2) → Printable (.object kvs)

/-! ### The texts are texts of JSON -/

theorem numeral_numberText (q : ℚ) : Numeral (numberText (.finite q)) (printed q) := by
  have hdigits (w n : ℕ) : Digits (formatD w n) := fun b => isDigit_of_mem_formatD
  have hsix : (formatD 6 (millionths q % 10 ^ 6 : ℕ)).length = 6 := by
    rw [formatD_length]
    have := decimal_length_le (n := millionths q % 10 ^ 6) (k := 6) (by norm_num)
      (Nat.mod_lt _ (by norm_num))
    omega
  by_cases hden : q.den = 1
  · have hnum : (q.num : ℚ) = q := Rat.coe_int_num_of_den_eq_one hden
    have h := @Numeral.mk (decide (q < 0)) _ _ _ _ _ (hdigits 0 q.num.natAbs) .none .none
      (by simpa using formatD_ne_nil 0 q.num.natAbs) fun _ => formatD_ne_nil 0 q.num.natAbs
    simp only [numberText, printed, if_pos hden]
    convert h using 1
    · simp
    · have habs : (q.num.natAbs : ℚ) = |q| := by rw [Nat.cast_natAbs, Int.cast_abs, hnum]
      rw [List.append_nil, digitValue_formatD, habs]
      by_cases hneg : q < 0
      · simp [hneg, abs_of_neg hneg]
      · simp [hneg, abs_of_nonneg (not_lt.mp hneg)]
  · have h := @Numeral.mk (decide (q < 0)) _ _ _ _ _ (hdigits 0 (millionths q / 10 ^ 6))
      (.point (hdigits 6 (millionths q % 10 ^ 6))) .none
      (List.append_ne_nil_of_left_ne_nil (formatD_ne_nil 0 _) _) fun _ => formatD_ne_nil 0 _
    have hvalue : (digitValue (formatD 0 (millionths q / 10 ^ 6 : ℕ) ++
        formatD 6 (millionths q % 10 ^ 6 : ℕ)) : ℚ) = millionths q := by
      rw [digitValue_append, digitValue_formatD, digitValue_formatD, hsix]
      exact_mod_cast Nat.div_add_mod' (millionths q) (10 ^ 6)
    simp only [numberText, printed, if_neg hden]
    convert h using 1
    · simp
    · rw [hvalue, hsix]
      by_cases hneg : q < 0
      · simp [hneg, div_eq_mul_inv, zpow_neg]
      · simp [hneg, div_eq_mul_inv, zpow_neg]

theorem hexDigit_hexChar : ∀ d < 16, hexDigit (hexChar d) = some d := by decide

/-- The text of a character stands for it. -/
theorem escapeChar_text (b : UInt8) {t s : List UInt8} (h : JsonString t s) :
    JsonString (escapeChar b ++ t) (b :: s) := by
  unfold escapeChar
  split_ifs with h₁ h₂ h₃ h₄ h₅ h₆ h₇ h₈ h₉
  · exact .escape (by rw [h₁]; rfl) h
  · exact .escape (by rw [h₂]; rfl) h
  · exact .escape (by rw [h₃]; rfl) h
  · exact .escape (by rw [h₄]; rfl) h
  · exact .escape (by rw [h₅]; rfl) h
  · exact .escape (by rw [h₆]; rfl) h
  · exact .escape (by rw [h₇]; rfl) h
  · exact .escape (by rw [h₈]; rfl) h
  · have hb : b.toNat < 128 := by
      rcases h₉ with h₉ | rfl
      · have := UInt8.lt_iff_toNat_lt.mp h₉
        exact this.trans (by decide)
      · decide
    have hzero : hexDigit 48 = some 0 := rfl
    have hquad := Quad.mk hzero hzero (hexDigit_hexChar (b.toNat / 16) (by omega))
      (hexDigit_hexChar (b.toNat % 16) (by omega))
    have hvalue : ((0 * 16 + 0) * 16 + b.toNat / 16) * 16 + b.toNat % 16 = b.toNat := by omega
    rw [hvalue] at hquad
    have hcode := CodePoint.unit hquad (by omega)
    obtain ⟨c, hc⟩ := codePoint_char hcode
    have hutf : String.utf8EncodeChar c = [b] := by
      rw [← utf8_toNat, hc, utf8, if_pos hb, UInt8.ofNat_toNat]
    have hcode : CodePoint [48, 48, hexChar (b.toNat / 16), hexChar (b.toNat % 16)] c.toNat := by
      rw [hc]
      exact hcode
    have htext := JsonString.codePoint hcode h
    rw [hutf] at htext
    exact htext
  · have hlow : 32 ≤ b := UInt8.not_lt.mp fun hlt => h₉ (.inl hlt)
    exact .char hlow h₁ h₂ h

theorem flatMap_escapeChar (s : List UInt8) : JsonString (s.flatMap escapeChar) s := by
  induction s with
  | nil => exact .nil
  | cons b s ih => exact escapeChar_text b ih

theorem serialize_str_eq (s : List UInt8) (r : List UInt8) :
    serialize_str s ++ r = 34 :: (s.flatMap escapeChar ++ 34 :: r) := by simp [serialize_str]

theorem serializeItems_text {vs : List Value}
    (h : ∀ v ∈ vs, JsonValue round (serialize v) v) (hne : vs ≠ []) :
    JsonItems round (serializeItems vs) vs := by
  induction vs with
  | nil => exact absurd rfl hne
  | cons v vs ih =>
      have hv := h v List.mem_cons_self
      cases vs with
      | nil =>
          have := JsonItems.last blank_nil hv blank_nil
          simpa [serializeItems] using this
      | cons v' vs =>
          have := JsonItems.cons blank_nil hv blank_nil
            (ih (fun w hw => h w (List.mem_cons_of_mem _ hw)) (by simp))
          simpa [serializeItems] using this

theorem serializeMember_text {key : List UInt8} {v : Value} (h : JsonValue round (serialize v) v) :
    JsonMember round (serialize_str key ++ 58 :: serialize v) (key, v) := by
  have := JsonMember.mk blank_nil (flatMap_escapeChar key) blank_nil blank_nil h
  rw [serialize_str_eq]
  simpa using this

theorem serializeMembers_text {kvs : List (List UInt8 × Value)}
    (h : ∀ kv ∈ kvs, JsonValue round (serialize kv.2) kv.2) (hne : kvs ≠ []) :
    JsonMembers round (serializeMembers kvs) kvs := by
  induction kvs with
  | nil => exact absurd rfl hne
  | cons kv kvs ih =>
      obtain ⟨key, v⟩ := kv
      have hv := @serializeMember_text round key _ (h _ List.mem_cons_self)
      cases kvs with
      | nil =>
          have := JsonMembers.last hv blank_nil
          simpa [serializeMembers] using this
      | cons kv kvs =>
          have := JsonMembers.cons hv blank_nil
            (ih (fun w hw => h w (List.mem_cons_of_mem _ hw)) (by simp))
          simpa [serializeMembers] using this

/-- The text of a printable value derives it. -/
theorem serialize_text {v : Value} (h : Printable round v) : JsonValue round (serialize v) v := by
  induction h with
  | null => rw [serialize]; exact .null
  | boolean b =>
      rw [serialize]
      cases b with
      | false => exact .false
      | true => exact .true
  | @number q hround hlen =>
      have hnumber : JsonValue round _ (.number (round (printed q))) :=
        .number (numeral_numberText q)
      rw [serialize, to_str, List.take_of_length_le (by omega)]
      rwa [hround] at hnumber
  | string s => rw [serialize]; exact .string (flatMap_escapeChar s)
  | @array vs _ ih =>
      rw [serialize]
      cases vs with
      | nil => exact .emptyArray blank_nil
      | cons v vs => exact .array (serializeItems_text round ih (by simp))
  | @object kvs hsorted _ ih =>
      rw [serialize]
      cases kvs with
      | nil => exact .emptyObject blank_nil
      | cons kv kvs =>
          have := JsonValue.object (serializeMembers_text round ih (by simp))
          rwa [SortedMap.ofList_of_sorted hsorted] at this

/-- A printable value is read back from its text, whatever follows; a number has to end there. -/
theorem parse_serialize {v : Value} (h : Printable round v) (r : List UInt8)
    (hr : IsNumber v → Ends isNumberChar r) : parse round (serialize v ++ r) = some (v, r) :=
  (parse_iff round).mpr ⟨[], _, rfl, blank_nil, serialize_text round h, hr⟩

/-! ### What is read is well formed -/

mutual

theorem JsonValue.wellFormed : ∀ {c : List UInt8} {v : Value}, JsonValue round c v → WellFormed v
  | _, _, .null => .null
  | _, _, .false => .boolean false
  | _, _, .true => .boolean true
  | _, _, .number _ => .number _
  | _, _, .string _ => .string _
  | _, _, .emptyArray _ => .array (by simp)
  | _, _, .array h => .array h.wellFormed
  | _, _, .emptyObject _ => .object List.Pairwise.nil (by simp)
  | _, _, .object h => .object (SortedMap.ofList_sorted _) fun kv hkv =>
      h.wellFormed kv (SortedMap.mem_ofList hkv)

theorem JsonItems.wellFormed : ∀ {t : List UInt8} {vs : List Value}, JsonItems round t vs →
    ∀ v ∈ vs, WellFormed v
  | _, _, .last _ h _ => List.forall_mem_singleton.mpr h.wellFormed
  | _, _, .cons _ h _ hs => List.forall_mem_cons.mpr ⟨h.wellFormed, hs.wellFormed⟩

theorem JsonMember.wellFormed : ∀ {t : List UInt8} {kv : List UInt8 × Value},
    JsonMember round t kv → WellFormed kv.2
  | _, _, .mk _ _ _ _ h => h.wellFormed

theorem JsonMembers.wellFormed : ∀ {t : List UInt8} {kvs : List (List UInt8 × Value)},
    JsonMembers round t kvs → ∀ kv ∈ kvs, WellFormed kv.2
  | _, _, .last h _ => List.forall_mem_singleton.mpr h.wellFormed
  | _, _, .cons h _ hs => List.forall_mem_cons.mpr ⟨h.wellFormed, hs.wellFormed⟩

end

/-- The objects in a value that has been read are maps. -/
theorem parse_wellFormed {s r : List UInt8} {v : Value} (h : parse round s = some (v, r)) :
    WellFormed v := by
  obtain ⟨_, _, _, _, hv, _⟩ := (parse_iff round).mp h
  exact hv.wellFormed

/-- A text of an object is read as a map in which `get` finds the last member of each key. -/
theorem parse_members {t : List UInt8} {kvs : List (List UInt8 × Value)}
    (h : JsonMembers round t kvs) (r : List UInt8) :
    ∃ v, parse round (123 :: (t ++ 125 :: r)) = some (v, r) ∧ WellFormed v ∧
      ∀ key : String, v.get key = .ok ((SortedMap.lookup (ascii key) kvs.reverse).getD .null) := by
  have hv := JsonValue.object h
  refine ⟨_, (parse_iff round).mpr ⟨[], _, by simp, blank_nil, hv, ?_⟩, hv.wellFormed,
    fun key => ?_⟩
  · rintro ⟨x, hx⟩
    cases hx
  · rw [← SortedMap.lookup_ofList]
    rfl

end

/-! ### A reading with a fraction, and a key given twice -/

/-- A temperature of 23.5 degrees. -/
def reading : Value :=
  .object [(ascii "celsius", .number (.finite (47 / 2))), (ascii "place", .string (ascii "a\\b/c"))]

theorem parse_serialize_reading :
    parse Double.finite (serialize reading ++ [10]) = some (reading, [10]) := by
  apply parse_serialize
  · refine .object ?_ ?_
    · rw [SortedMap.sorted_iff_keys, List.map_cons, List.map_cons, List.map_nil]
      decide
    · simp only [List.forall_mem_cons, List.not_mem_nil, false_imp_iff, implies_true, and_true]
      exact ⟨.number (by decide +kernel) (by decide +kernel), .string _⟩
  · rintro ⟨x, hx⟩
    cases hx

theorem parse_members_twice : ∃ v,
    parse Double.finite (ascii "\x7b\"a\":null,\"a\":true\x7d") = some (v, []) ∧ WellFormed v ∧
      ∀ key : String, v.get key = .ok ((SortedMap.lookup (ascii key)
        [(ascii "a", .boolean true), (ascii "a", .null)]).getD .null) := by
  have ha : JsonString [97] [97] := .char (by decide) (by decide) (by decide) .nil
  have hfirst : JsonMember Double.finite (34 :: ([97] ++ 34 :: ([] ++ 58 :: ([] ++ ascii "null"))))
      ([97], .null) := @JsonMember.mk _ [] _ _ _ _ _ _ blank_nil ha blank_nil blank_nil .null
  have hsecond : JsonMember Double.finite (34 :: ([97] ++ 34 :: ([] ++ 58 :: ([] ++ ascii "true"))))
      ([97], .boolean true) :=
    @JsonMember.mk _ [] _ _ _ _ _ _ blank_nil ha blank_nil blank_nil .true
  exact parse_members Double.finite
    (.cons hfirst blank_nil (.last hsecond blank_nil)) []

end Picojson

end RemotusHardware
