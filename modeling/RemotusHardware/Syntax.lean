import RemotusHardware.Base.Decimal
import RemotusHardware.Base.Scanner
import RemotusHardware.PicoJson

/-! # The syntax picojson reads

`_parse` of `picojson.h` and the functions it calls, as scanners of bytes: what is left of the
input is the state, and `return false` is failure.  A character that is put back by `ungetc` has
not been taken off.  The functions that call each other, and the loop over the characters of a
string, are given fuel; by `Picojson.parse_eq` as much of it as the input is long is enough.

The value of a number is what `strtod` makes of it.  How that rounds is the parameter `round`.

What `_parse` has taken off it takes off whatever follows, and there is no NUL in it
(`Picojson.parse_prefix`). -/

namespace RemotusHardware

open CLib Scanner

namespace Picojson

/-! ### Numbers -/

/-- The characters `_parse_number` collects. -/
def isNumberChar (b : UInt8) : Bool :=
  isDigit b || b = 43 || b = 45 || b = 46 || b = 101 || b = 69

/-- The exponent of a number that ends in one, else 0. -/
def exponent (s : List UInt8) : ℤ × List UInt8 :=
  match s with
  | [] => (0, s)
  | e :: t =>
      let (negative, t) := sign t
      let digits := t.takeWhile isDigit
      if (e = 101 ∨ e = 69) ∧ digits ≠ [] then
        (if negative then -(digitValue digits : ℤ) else digitValue digits, t.dropWhile isDigit)
      else (0, s)

/-- `strtod` on a string of the characters above, of which neither a hexadecimal number nor an
infinity is made: the value, and the string from `endp` on.  Without a digit there is no number,
and `endp` is where the string begins. -/
def strtod (round : ℚ → Double) (s : List UInt8) : Double × List UInt8 :=
  let (negative, t) := sign s
  let whole := t.takeWhile isDigit
  let t := t.dropWhile isDigit
  let (fraction, t) := match t with
    | [] => ([], t)
    | b :: u => if b = 46 ∧ (whole ≠ [] ∨ u.takeWhile isDigit ≠ []) then
        (u.takeWhile isDigit, u.dropWhile isDigit) else ([], t)
  if whole ++ fraction = [] then (round 0, s)
  else
    let (e, t) := exponent t
    let q := (digitValue (whole ++ fraction) : ℚ) * 10 ^ (e - fraction.length)
    (round (if negative then -q else q), t)

section
variable (round : ℚ → Double)

/-- `_parse_number`. -/
def parseNumber : Scanner UInt8 Value := fun s =>
  match strtod round (s.takeWhile isNumberChar) with
  | (x, []) => some (.number x, s.dropWhile isNumberChar)
  | _ => none

end

/-! ### Strings -/

/-- The value of a hexadecimal digit. -/
def hexDigit (hex : UInt8) : Option ℕ :=
  if 48 ≤ hex ∧ hex ≤ 57 then some (hex.toNat - 48)
  else if 65 ≤ hex ∧ hex ≤ 70 then some (hex.toNat - 55)
  else if 97 ≤ hex ∧ hex ≤ 102 then some (hex.toNat - 87)
  else none

/-- The loop of `_parse_quadhex`, `i` turns before its end. -/
def quadhexFrom : ℕ → ℕ → Scanner UInt8 ℕ
  | 0, uni_ch => pure uni_ch
  | i + 1, uni_ch => do
      let ch ← getc
      match hexDigit ch with
      | some hex => quadhexFrom i (uni_ch * 16 + hex)
      | none => fail

def parseQuadhex : Scanner UInt8 ℕ := quadhexFrom 4 0

/-- The bytes of a code point. -/
def utf8 (uni_ch : ℕ) : List UInt8 :=
  if uni_ch < 0x80 then [UInt8.ofNat uni_ch]
  else
    (if uni_ch < 0x800 then [UInt8.ofNat (0xc0 ||| uni_ch >>> 6)]
    else
      (if uni_ch < 0x10000 then [UInt8.ofNat (0xe0 ||| uni_ch >>> 12)]
      else [UInt8.ofNat (0xf0 ||| uni_ch >>> 18), UInt8.ofNat (0x80 ||| (uni_ch >>> 12 &&& 0x3f))])
      ++ [UInt8.ofNat (0x80 ||| (uni_ch >>> 6 &&& 0x3f))])
    ++ [UInt8.ofNat (0x80 ||| (uni_ch &&& 0x3f))]

/-- `_parse_codepoint`, which appends to `out`. -/
def parseCodepoint (out : List UInt8) : Scanner UInt8 (List UInt8) := do
  let uni_ch ← parseQuadhex
  if 0xd800 ≤ uni_ch ∧ uni_ch ≤ 0xdfff then
    if 0xdc00 ≤ uni_ch then fail
    else do
      let backslash ← getc
      if backslash ≠ 92 then fail
      else do
        let u ← getc
        if u ≠ 117 then fail
        else do
          let second ← parseQuadhex
          if ¬ (0xdc00 ≤ second ∧ second ≤ 0xdfff) then fail
          else pure (out ++
            utf8 (((uni_ch - 0xd800) <<< 10 ||| (second - 0xdc00 &&& 0x3ff)) + 0x10000))
  else pure (out ++ utf8 uni_ch)

/-- The escapes of one character. -/
def escape (ch : UInt8) : Option UInt8 :=
  if ch = 34 then some 34
  else if ch = 92 then some 92
  else if ch = 47 then some 47
  else if ch = 98 then some 8
  else if ch = 102 then some 12
  else if ch = 110 then some 10
  else if ch = 114 then some 13
  else if ch = 116 then some 9
  else none

/-- What follows a backslash. -/
def parseEscape (s : List UInt8) : Scanner UInt8 (List UInt8) := do
  let ch ← getc
  match escape ch with
  | some val => pure (s ++ [val])
  | none => if ch = 117 then parseCodepoint s else fail

/-- `_parse_string`, the opening quote having been read; `s` is the string so far. -/
def parseString : ℕ → List UInt8 → Scanner UInt8 (List UInt8)
  | 0, _ => fail
  | k + 1, s => do
      let ch ← getc
      if ch < 32 then fail
      else if ch = 34 then pure s
      else if ch = 92 then do
        let s ← parseEscape s
        parseString k s
      else parseString k (s ++ [ch])

/-! ### Values -/

def isWhitespace (ch : UInt8) : Bool := ch = 32 || ch = 9 || ch = 10 || ch = 13

/-- `in.expect(ch)`. -/
def expect (ch : UInt8) : Scanner UInt8 Bool := Scanner.expect isWhitespace ch

/-- `in.match(pattern)`. -/
def matchText : List UInt8 → Scanner UInt8 Bool
  | [], s => some (true, s)
  | _ :: _, [] => some (false, [])
  | p :: pattern, b :: s => if b = p then matchText pattern s else some (false, b :: s)

/-- `o[key] = val`. -/
def insertField (key : List UInt8) (val : Value) :
    List (List UInt8 × Value) → List (List UInt8 × Value)
  | [] => [(key, val)]
  | (k, w) :: o =>
      if k = key then (key, val) :: o
      else if key < k then (key, val) :: (k, w) :: o
      else (k, w) :: insertField key val o

/-- A keyword of which the first character has been read. -/
def keyword (text : String) (val : Value) : Scanner UInt8 Value := do
  if ← matchText (ascii text) then pure val else fail

/-- `_parse_array`, with its loop. -/
def parseArray (items : List Value → Scanner UInt8 (List Value)) : Scanner UInt8 (List Value) := do
  if ← expect 93 then pure [] else items []

/-- `_parse_object`, with its loop. -/
def parseObject (members : List (List UInt8 × Value) → Scanner UInt8 (List (List UInt8 × Value))) :
    Scanner UInt8 (List (List UInt8 × Value)) := do
  if ← expect 125 then pure [] else members []

/-- The condition in the loop of `_parse_object`; the key and the value it has read. -/
def parseMember (string : Scanner UInt8 (List UInt8)) (value : Scanner UInt8 Value) :
    Scanner UInt8 (List UInt8 × Value) := do
  if ← expect 34 then do
    let key ← string
    if ← expect 58 then do
      let val ← value
      pure (key, val)
    else fail
  else fail

section
variable (round : ℚ → Double)

mutual

/-- `_parse`. -/
def parseValue : ℕ → Scanner UInt8 Value
  | 0 => fail
  | k + 1 => do
      let ch ← token isWhitespace
      if ch = 110 then keyword "ull" .null
      else if ch = 102 then keyword "alse" (.boolean false)
      else if ch = 116 then keyword "rue" (.boolean true)
      else if ch = 34 then do
        let s ← parseString k []
        pure (.string s)
      else if ch = 91 then do
        let a ← parseArray (parseItems k)
        pure (.array a)
      else if ch = 123 then do
        let o ← parseObject (parseMembers k)
        pure (.object o)
      else if isDigit ch = true ∨ ch = 45 then fun s => parseNumber round (ch :: s)
      else fail

/-- The loop of `_parse_array`. -/
def parseItems : ℕ → List Value → Scanner UInt8 (List Value)
  | 0, _ => fail
  | k + 1, a => do
      let val ← parseValue k
      if ← expect 44 then parseItems k (a ++ [val])
      else if ← expect 93 then pure (a ++ [val])
      else fail

/-- The loop of `_parse_object`. -/
def parseMembers : ℕ → List (List UInt8 × Value) → Scanner UInt8 (List (List UInt8 × Value))
  | 0, _ => fail
  | k + 1, o => do
      let (key, val) ← parseMember (parseString k []) (parseValue k)
      if ← expect 44 then parseMembers k (insertField key val o)
      else if ← expect 125 then pure (insertField key val o)
      else fail

end

/-- `_parse` with as much fuel as there are characters: the value, and what is left. -/
def parse (s : List UInt8) : Option (Value × List UInt8) := parseValue round s.length s

end

/-! ### What the parts look at -/

/-- No NUL is taken off. -/
abbrev Nonzero (b : UInt8) : Prop := b ≠ 0

/-- What a scanner looks at, a number being read up to the last of its characters. -/
abbrev Reads {α : Type} (n : ℕ) (P : ℕ → Scanner UInt8 α) (k : ℕ) : Prop :=
  Local isNumberChar Nonzero n P k

theorem whitespace_nonzero (b : UInt8) (h : isWhitespace b = true) : Nonzero b := by
  rintro rfl
  cases h

section
variable {k : ℕ}

theorem quadhexFrom_local : ∀ (i uni_ch : ℕ), Reads 0 (fun _ => quadhexFrom i uni_ch) k
  | 0, uni_ch => local_pure uni_ch
  | i + 1, uni_ch => by
      refine (Local.getc_bind (n := 0) ?_ ?_).weaken (Nat.zero_le _)
      · intro b _
        cases hexDigit b with
        | some hex => exact quadhexFrom_local i (uni_ch * 16 + hex)
        | none => exact local_fail
      · intro _ b hb
        obtain rfl := not_not.mp hb
        rfl

theorem parseCodepoint_local (out : List UInt8) : Reads 0 (fun _ => parseCodepoint out) k := by
  apply Local.bind (n := 0) (m := 0) (quadhexFrom_local 4 0)
  intro uni_ch
  refine local_ite (fun _ => ?_) fun _ => local_pure _
  apply local_ite (fun _ => local_fail)
  intro _
  refine (Local.getc_bind (n := 0) ?_ ?_).weaken (Nat.zero_le _)
  · intro backslash _
    apply local_ite (fun _ => local_fail)
    intro _
    refine (Local.getc_bind (n := 0) ?_ ?_).weaken (Nat.zero_le _)
    · intro u _
      apply local_ite (fun _ => local_fail)
      intro _
      apply Local.bind (n := 0) (m := 0) (quadhexFrom_local 4 0)
      intro second
      exact local_ite (fun _ => local_fail) fun _ => local_pure _
    · intro _ u hu
      obtain rfl := not_not.mp hu
      rfl
  · intro _ backslash hb
    obtain rfl := not_not.mp hb
    rfl

theorem parseEscape_local (s : List UInt8) : Reads 0 (fun _ => parseEscape s) k := by
  refine (Local.getc_bind (n := 0) ?_ ?_).weaken (Nat.zero_le _)
  · intro ch _
    cases escape ch with
    | some val => exact local_pure _
    | none => exact local_ite (fun _ => parseCodepoint_local s) fun _ => local_fail
  · intro _ ch hch
    obtain rfl := not_not.mp hch
    rfl

theorem parseString_local : ∀ (k : ℕ) (s : List UInt8), Reads 1 (fun k => parseString k s) k
  | 0, s => local_zero rfl
  | k + 1, s => by
      apply Local.turn_getc (fun _ => rfl)
      · intro ch _
        apply local_ite (fun _ => local_fail)
        intro _
        apply local_ite (fun _ => local_pure s)
        intro _
        refine local_ite (fun _ => ?_) fun _ => ?_
        · apply Local.bind (n := 0) (m := 0) (parseEscape_local s)
          intro s'
          exact (parseString_local k s').weaken (Nat.zero_le _)
        · exact (parseString_local k _).weaken (Nat.zero_le _)
      · intro _ ch hch
        obtain rfl := not_not.mp hch
        rfl

theorem keyword_local (text : String) (val : Value) (h : ∀ b ∈ ascii text, Nonzero b) :
    Reads 0 (fun _ => keyword text val) k := by
  unfold keyword
  generalize ascii text = pattern at h
  induction pattern with
  | nil => exact local_pure val
  | cons p pattern ih =>
      have hstep : (do if ← matchText (p :: pattern) then pure val else fail) =
          (getc >>= fun b => if b = p then do if ← matchText pattern then pure val else fail
            else fail : Scanner UInt8 Value) := by
        funext s
        cases s with
        | nil => rfl
        | cons b s =>
            rw [bind_of_eq (show getc (b :: s) = some (b, s) from rfl)]
            by_cases hb : b = p
            · rw [if_pos hb]
              change ((matchText (p :: pattern) (b :: s)).bind _) = ((matchText pattern s).bind _)
              rw [matchText, if_pos hb]
            · rw [if_neg hb]
              change ((matchText (p :: pattern) (b :: s)).bind _) = _
              rw [matchText, if_neg hb]
              rfl
      rw [hstep]
      refine (Local.getc_bind (n := 0) ?_ ?_).weaken (Nat.zero_le _)
      · intro b _
        exact local_ite (fun _ => ih fun b hb => h b (List.mem_cons_of_mem _ hb))
          fun _ => local_fail
      · intro _ b hb
        have hp := h p List.mem_cons_self
        obtain rfl := not_not.mp hb
        exact if_neg (Ne.symm hp)

variable (round : ℚ → Double)

theorem isNumberChar_nonzero (b : UInt8) (h : isNumberChar b = true) : Nonzero b := by
  rintro rfl
  cases h

/-- A number, its first character having been looked at. -/
theorem parseNumber_local {ch : UInt8} (hch : isNumberChar ch = true) :
    Reads 0 (fun _ s => parseNumber round (ch :: s)) k := by
  intro s r v hs
  have hsplit := List.takeWhile_append_dropWhile (p := isNumberChar) (l := s)
  have htake (t : List UInt8) : (ch :: t).takeWhile isNumberChar =
      ch :: t.takeWhile isNumberChar := List.takeWhile_cons_of_pos hch
  have hdrop (t : List UInt8) : (ch :: t).dropWhile isNumberChar = t.dropWhile isNumberChar :=
    List.dropWhile_cons_of_pos hch
  simp only [parseNumber, htake, hdrop] at hs
  split at hs
  · rename_i x hx
    obtain ⟨rfl, rfl⟩ : .number x = v ∧ s.dropWhile isNumberChar = r := by simpa using hs
    have hw : ∀ b ∈ s.takeWhile isNumberChar, isNumberChar b = true :=
      fun b hb => List.mem_takeWhile_imp hb
    refine ⟨_, hsplit.symm, Nat.zero_le _, fun b hb => isNumberChar_nonzero b (hw b hb), ?_⟩
    intro k' r' _ hend
    have hends : Ends isNumberChar (s.dropWhile isNumberChar) := by
      intro b hb
      cases hd : s.dropWhile isNumberChar with
      | nil => simp [hd] at hb
      | cons a t =>
          have := List.head_dropWhile_not isNumberChar (l := s) (by simp [hd])
          simp_all
    have hr' : r'.takeWhile isNumberChar = [] ∧ r'.dropWhile isNumberChar = r' := by
      cases r' with
      | nil => exact ⟨rfl, rfl⟩
      | cons b t =>
          have hb : isNumberChar b = false := hend hends b rfl
          simp [hb]
    simp only [parseNumber, htake, hdrop, List.takeWhile_append_of_pos hw,
      List.dropWhile_append_of_pos hw, hr'.1, hr'.2, List.append_nil, hx]
  · cases hs

theorem number_start {ch : UInt8} (h : isDigit ch = true ∨ ch = 45) : isNumberChar ch = true := by
  unfold isNumberChar
  rcases h with h | h <;> simp [h]

theorem parseMember_local {string : ℕ → Scanner UInt8 (List UInt8)}
    {value : ℕ → Scanner UInt8 Value}
    (hstring : Reads 1 string k) (hvalue : Reads 1 value k) :
    Reads 0 (fun k => parseMember (string k) (value k)) k := by
  simp only [parseMember, expect, expect_fail]
  refine (Local.token_bind (n := 0) whitespace_nonzero ?_ ?_).weaken (Nat.zero_le _)
  · intro quote _
    refine local_ite (fun _ => ?_) fun _ => local_fail
    refine (Local.bind (m := 0) hstring fun key => ?_).weaken (Nat.zero_le _)
    refine (Local.token_bind (n := 0) whitespace_nonzero ?_ ?_).weaken (Nat.zero_le _)
    · intro colon _
      refine local_ite (fun _ => ?_) fun _ => local_fail
      exact (Local.bind (m := 0) hvalue fun val => local_pure _).weaken (Nat.zero_le _)
    · intro _ colon hcolon
      obtain rfl := not_not.mp hcolon
      rfl
  · intro _ quote hquote
    obtain rfl := not_not.mp hquote
    rfl

mutual

theorem parseValue_local : ∀ k, Reads 1 (parseValue round) k
  | 0 => local_zero (by rw [parseValue])
  | k + 1 => by
      apply Local.turn_token (fun j => by rw [parseValue]) whitespace_nonzero
      · intro ch _
        apply local_ite (fun _ => keyword_local _ _ (by decide +kernel))
        intro _
        apply local_ite (fun _ => keyword_local _ _ (by decide +kernel))
        intro _
        apply local_ite (fun _ => keyword_local _ _ (by decide +kernel))
        intro _
        refine local_ite (fun _ => ?_) fun _ => ?_
        · exact Local.bind (m := 0) (parseString_local k []) (fun s => local_pure _)
            |>.weaken (Nat.zero_le _)
        refine local_ite (fun _ => ?_) fun _ => ?_
        · refine (Local.bind (n := 1) (m := 0) ?_ fun a => local_pure _).weaken (Nat.zero_le _)
          exact Local.expect_bind whitespace_nonzero (by decide) (local_pure [])
            (parseItems_local k [])
        refine local_ite (fun _ => ?_) fun _ => ?_
        · refine (Local.bind (n := 1) (m := 0) ?_ fun o => local_pure _).weaken (Nat.zero_le _)
          exact Local.expect_bind whitespace_nonzero (by decide) (local_pure [])
            (parseMembers_local k [])
        exact local_ite (fun h => parseNumber_local round (number_start h)) fun _ => local_fail
      · intro _ ch hch
        obtain rfl := not_not.mp hch
        rfl

theorem parseItems_local : ∀ (k : ℕ) (a : List Value), Reads 1 (fun k => parseItems round k a) k
  | 0, a => local_zero (by rw [parseItems])
  | k + 1, a => by
      refine Local.turn (A := parseValue round) (fun j => by
          rw [parseItems]
          simp only [expect, expect_expect]
          rfl) whitespace_nonzero
        ((parseValue_local k).weaken (Nat.zero_le _)) ?_ ?_
      · intro val b _
        refine local_ite (fun _ => ?_) fun _ => ?_
        · exact (parseItems_local k (a ++ [val])).weaken (Nat.zero_le _)
        · exact local_ite (fun _ => local_pure _) fun _ => local_fail
      · intro _ val b hb
        obtain rfl := not_not.mp hb
        rfl

theorem parseMembers_local : ∀ (k : ℕ) (o : List (List UInt8 × Value)),
    Reads 1 (fun k => parseMembers round k o) k
  | 0, o => local_zero (by rw [parseMembers])
  | k + 1, o => by
      refine Local.turn (A := fun k => parseMember (parseString k []) (parseValue round k))
        (fun j => by
          rw [parseMembers]
          simp only [expect, expect_expect]
          rfl) whitespace_nonzero
        (parseMember_local (parseString_local k []) (parseValue_local k)) ?_ ?_
      · rintro ⟨key, val⟩ b _
        refine local_ite (fun _ => ?_) fun _ => ?_
        · exact (parseMembers_local k (insertField key val o)).weaken (Nat.zero_le _)
        · exact local_ite (fun _ => local_pure _) fun _ => local_fail
      · rintro _ ⟨key, val⟩ b hb
        obtain rfl := not_not.mp hb
        rfl

end

/-- More fuel than there are characters makes no difference. -/
theorem parse_fuel {k : ℕ} {s r : List UInt8} {v : Value} (h : parseValue round k s = some (v, r)) :
    parse round s = some (v, r) := (parseValue_local round k).fuel h le_rfl

/-- What is read is a prefix without a NUL, and would be read whatever followed. -/
theorem parse_prefix {s r : List UInt8} {v : Value} (h : parse round s = some (v, r)) :
    ∃ c, s = c ++ r ∧ 1 ≤ c.length ∧ (∀ b ∈ c, b ≠ 0) ∧
      ∀ r', (Ends isNumberChar r → Ends isNumberChar r') →
        parse round (c ++ r') = some (v, r') := by
  obtain ⟨c, hc, hn, hgood, hr⟩ := parseValue_local round s.length h
  refine ⟨c, hc, hn, hgood, fun r' hend => ?_⟩
  exact hr (c ++ r').length r' (by simp) hend

end

end Picojson

end RemotusHardware
