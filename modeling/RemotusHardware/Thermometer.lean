import RemotusHardware.Base.Rounding
import RemotusHardware.Texts

/-! # The text of a temperature

`readData` of the class `DHT` samples its pin, makes five bytes of the samples and, if the last of
them is the sum of the others, a temperature of the third and the fourth: a sign and tenths of a
degree, divided by ten.  The temperature branch of `updateSensorData` takes it apart with
conversions to `uint32_t`, which have no meaning below zero.

Whatever a pin does, a read that returns 0 has received five bytes with a valid checksum
(`readData_ok`).  The arithmetic is that of `float`, which is exact on the numbers there are here
(`binary32_lit_intCast`).  The conversions are in range and the text is read back as the
temperature exactly if that is not negative (`temperature_text_iff`). -/

namespace RemotusHardware

open CLib Rounding

/-! ### Reading the pin -/

inductive eError where
  | ERROR_NONE
  | BUS_BUSY
  | ERROR_NOT_PRESENT
  | ERROR_ACK_TOO_LONG
  | ERROR_SYNC_TIMEOUT
  | ERROR_DATA_TIMEOUT
  | ERROR_CHECKSUM
  | ERROR_NO_PATIENCE
deriving DecidableEq

/-- The number `readData` returns. -/
def eError.code : eError → ℤ
  | ERROR_NONE => 0
  | BUS_BUSY => 1
  | ERROR_NOT_PRESENT => 2
  | ERROR_ACK_TOO_LONG => 3
  | ERROR_SYNC_TIMEOUT => 4
  | ERROR_DATA_TIMEOUT => 5
  | ERROR_CHECKSUM => 6
  | ERROR_NO_PATIENCE => 7

/-- A program that reads a pin: the stream holds the levels of the reads to come. -/
abbrev PinReader := StateT (Stream' Bool) (Except eError)

def DHT_io : PinReader Bool := fun levels => .ok (levels.head, levels.tail)

/-- `do { if (retryCount > k-1) return err; retryCount++; } while (DHT_io==level)` -/
def await (err : eError) (level : Bool) : ℕ → PinReader Unit
  | 0 => fun _ => .error err
  | k + 1 => do if (← DHT_io) = level then await err level k else pure ()

/-- `while (DHT_io == 1 && count < k-1) count++;` -/
def skipPulse : ℕ → PinReader Unit
  | 0 => pure ()
  | k + 1 => do if (← DHT_io) = true then skipPulse k else pure ()

def readBit : PinReader Bool := do
  await .ERROR_DATA_TIMEOUT false 76
  let bit ← DHT_io
  skipPulse 101
  pure bit

/-- The first entries of `bitTimes`. -/
def readBits : ℕ → PinReader (List Bool)
  | 0 => pure []
  | k + 1 => do
      let bit ← readBit
      let bits ← readBits k
      pure (bit :: bits)

/-- The exchange with the device, which the program starts by pulling the pin down. -/
def exchange : PinReader (List Bool) := do
  await .BUS_BUSY false 126
  await .ERROR_NOT_PRESENT true 41
  readBits 40

/-- A program that fails says why. -/
def SaysWhy {α : Type} (p : PinReader α) : Prop := ∀ levels, p levels ≠ .error .ERROR_NONE

theorem SaysWhy.pure {α : Type} (a : α) : SaysWhy (pure a : PinReader α) := by
  intro levels h
  cases h

theorem SaysWhy.bind {α β : Type} {p : PinReader α} {f : α → PinReader β} (hp : SaysWhy p)
    (hf : ∀ a, SaysWhy (f a)) : SaysWhy (p >>= f) := by
  intro levels h
  change (p levels >>= fun s => f s.1 s.2) = _ at h
  cases hr : p levels with
  | error err =>
      rw [hr] at h
      apply hp levels
      rw [hr, Except.error.inj h]
  | ok s =>
      rw [hr] at h
      exact hf s.1 s.2 h

theorem DHT_io_saysWhy : SaysWhy DHT_io := by
  intro levels h
  cases h

theorem await_saysWhy {err : eError} (herr : err ≠ .ERROR_NONE) (level : Bool) (k : ℕ) :
    SaysWhy (await err level k) := by
  induction k with
  | zero =>
      intro levels h
      exact herr (Except.error.inj h)
  | succ k ih =>
      apply DHT_io_saysWhy.bind
      intro l
      split
      · exact ih
      · exact SaysWhy.pure _

theorem skipPulse_saysWhy (k : ℕ) : SaysWhy (skipPulse k) := by
  induction k with
  | zero => exact SaysWhy.pure _
  | succ k ih =>
      apply DHT_io_saysWhy.bind
      intro l
      split
      · exact ih
      · exact SaysWhy.pure _

theorem readBit_saysWhy : SaysWhy readBit := by
  apply (await_saysWhy (by decide) false 76).bind
  intro _
  apply DHT_io_saysWhy.bind
  intro bit
  exact (skipPulse_saysWhy 101).bind fun _ => SaysWhy.pure bit

theorem readBits_saysWhy (k : ℕ) : SaysWhy (readBits k) := by
  induction k with
  | zero => exact SaysWhy.pure _
  | succ k ih =>
      apply readBit_saysWhy.bind
      intro bit
      exact ih.bind fun bits => SaysWhy.pure _

theorem exchange_saysWhy : SaysWhy exchange := by
  apply (await_saysWhy (by decide) false 126).bind
  intro _
  apply (await_saysWhy (by decide) true 41).bind
  intro _
  exact readBits_saysWhy 40

/-! ### What a device sends -/

/-- A device answers with the pin pulled down, and sends a bit as a pulse that is long or short. -/
def pulses (bits : List Bool) : List Bool := bits.flatMap fun bit => [true, bit, false]

theorem readBits_pulses (rest : Stream' Bool) : ∀ bits : List Bool,
    readBits bits.length (.appendStream' (pulses bits) rest) = .ok (bits, rest)
  | [] => rfl
  | bit :: bits => by
      have hbit : readBit (.appendStream' (pulses (bit :: bits)) rest) =
          .ok (bit, .appendStream' (pulses bits) rest) := by
        cases bit <;> rfl
      change (readBit (.appendStream' (pulses (bit :: bits)) rest) >>= fun s =>
        (readBits bits.length s.2 >>= fun t => .ok (s.1 :: t.1, t.2))) = _
      rw [hbit]
      change (readBits bits.length (.appendStream' (pulses bits) rest) >>= fun t =>
        .ok (bit :: t.1, t.2)) = _
      rw [readBits_pulses rest bits]
      rfl

theorem exchange_pulses {bits : List Bool} (h : bits.length = 40) (rest : Stream' Bool) :
    exchange (.appendStream' (true :: false :: pulses bits) rest) = .ok (bits, rest) := by
  have hbits := readBits_pulses rest bits
  rw [h] at hbits
  exact hbits

/-- The five bytes of `DHT_data`. -/
abbrev Frame := Fin 5 → UInt8

/-- `b |= ( 1 << (7-j))` for the bits that are set. -/
def byteOf (bit : ℕ → Bool) : UInt8 :=
  (List.range 8).foldl (fun b j => if bit j then b ||| (1 <<< UInt8.ofNat (7 - j)) else b) 0

/-- The bytes made of `bitTimes`, whose last entry is never set. -/
def frameOf (bitTimes : List Bool) : Frame := fun i =>
  byteOf fun j => bitTimes.getD (i * 8 + j + 1) false

theorem byteOf_congr {f g : ℕ → Bool} (h : ∀ j < 8, f j = g j) : byteOf f = byteOf g := by
  apply List.foldl_ext
  intro b j hj
  rw [h j (List.mem_range.mp hj)]

theorem byteOf_testBit (b : UInt8) : byteOf (fun j => b.toNat.testBit (7 - j)) = b := by
  have h : ∀ n : Fin 256, byteOf (fun j => (UInt8.ofNat n).toNat.testBit (7 - j)) =
      UInt8.ofNat n := by
    decide +kernel
  simpa using h ⟨b.toNat, b.toNat_lt⟩

/-- What is sampled of a frame: the device answers with a long pulse first, and its last bit is
not sampled. -/
def samples (frame : Frame) : List Bool :=
  true :: (List.range 39).map fun n => (frame (Fin.ofNat 5 (n / 8))).toNat.testBit (7 - n % 8)

theorem samples_length (frame : Frame) : (samples frame).length = 40 := by simp [samples]

/-- A frame with the last bit clear is put together again. -/
theorem frameOf_samples {frame : Frame} (h : (frame 4).toNat % 2 = 0) :
    frameOf (samples frame) = frame := by
  funext i
  rw [← byteOf_testBit (frame i)]
  apply byteOf_congr
  intro j hj
  have hi := i.isLt
  change ((List.range 39).map _).getD (i * 8 + j) false = _
  by_cases hlast : i * 8 + j < 39
  · have hbyte : Fin.ofNat 5 ((i * 8 + j) / 8) = i := by
      apply Fin.ext
      simp only [Fin.ofNat_eq_cast, Fin.val_natCast]
      omega
    have hbit : (i * 8 + j) % 8 = j := by omega
    rw [List.getD_eq_getElem _ _ (by simpa using hlast), List.getElem_map, List.getElem_range,
      hbyte, hbit]
  · obtain rfl : i = 4 := by
      apply Fin.ext
      change (i : ℕ) = 4
      omega
    obtain rfl : j = 7 := by
      change ¬ 4 * 8 + j < 39 at hlast
      omega
    rw [Nat.testBit_zero, h]
    rfl

/-- The forty bits on the line. -/
def Frame.bits (frame : Frame) : List Bool :=
  (List.range 40).map fun n => (frame (Fin.ofNat 5 (n / 8))).toNat.testBit (7 - n % 8)

/-- The frame as it is received: its last bit is not. -/
def Frame.received (frame : Frame) : Frame := fun i => if i = 4 then frame 4 &&& 0xFE else frame i

/-- The bit that is lost is clear. -/
def Frame.EvenChecksum (frame : Frame) : Prop := (frame 4).toNat % 2 = 0

instance (frame : Frame) : Decidable frame.EvenChecksum := inferInstanceAs (Decidable (_ = _))

/-! ### The class -/

/-- `DHT_data` is an array of `int`, of which only the eight low bits are ever set. -/
structure DHT (F : Type) where
  _DHTtype : ℕ
  _firsttime : Bool
  _lastReadTime : ℤ
  DHT_data : Frame
  _lastTemperature : F
  _lastHumidity : F

namespace DHT

section
variable {F : Type} (u : FloatUnit F)

def CalcTemperature (d : DHT F) : F :=
  if d._DHTtype = 11 then u.lit (d.DHT_data 2).toNat
  else if d._DHTtype = 22 then
    let v : ℕ := (((d.DHT_data 2).toNat &&& 0x7F) * 256 + (d.DHT_data 3).toNat) / 10
    u.lit ((if (d.DHT_data 2).toNat &&& 0x80 ≠ 0 then (v : ℤ) * -1 else v : ℤ) : ℚ)
  else u.lit 0

def CalcHumidity (d : DHT F) : F :=
  if d._DHTtype = 11 then u.lit (d.DHT_data 0).toNat
  else if d._DHTtype = 22 then
    u.lit ((((d.DHT_data 0).toNat * 256 + (d.DHT_data 1).toNat) / 10 : ℕ) : ℚ)
  else u.lit 0

/-- `ReadTemperature(CELCIUS)`; the program asks for no other scale. -/
def ReadTemperature (d : DHT F) : F := d._lastTemperature

def ReadHumidity (d : DHT F) : F := d._lastHumidity

/-- `DHT_data[4] == ((DHT_data[0] + DHT_data[1] + DHT_data[2] + DHT_data[3]) & 0xFF)` -/
def Checksum (frame : Frame) : Prop :=
  (frame 4).toNat =
    ((frame 0).toNat + (frame 1).toNat + (frame 2).toNat + (frame 3).toNat) &&& 0xFF

instance (frame : Frame) : Decidable (Checksum frame) := inferInstanceAs (Decidable (_ = _))

/-- The end of `readData`, from `DHT_data` on. -/
def receive (currentTime : ℤ) (frame : Frame) (d : DHT F) : eError × DHT F :=
  let d := { d with DHT_data := frame }
  if Checksum frame then
    (.ERROR_NONE, { d with
      _lastReadTime := currentTime
      _lastTemperature := d.CalcTemperature u
      _lastHumidity := d.CalcHumidity u })
  else (.ERROR_CHECKSUM, d)

def readData (currentTime : ℤ) (levels : Stream' Bool) (d : DHT F) : eError × DHT F :=
  if d._firsttime = false ∧ currentTime - d._lastReadTime < 2 then (.ERROR_NO_PATIENCE, d)
  else
    let d :=
      if d._firsttime then { d with _firsttime := false, _lastReadTime := currentTime } else d
    match exchange levels with
    | .error err => (err, d)
    | .ok (bitTimes, _) => d.receive u currentTime (frameOf bitTimes)

/-- What `updateSensorData` sees of a read. -/
def report (a : eError × DHT F) : DhtRead F := ⟨a.1.code, a.2.ReadTemperature, a.2.ReadHumidity⟩

/-- A read that returns 0 has received five bytes with a valid checksum. -/
theorem readData_ok {d d' : DHT F} {currentTime : ℤ} {levels : Stream' Bool}
    (h : d.readData u currentTime levels = (.ERROR_NONE, d')) :
    ∃ (frame : Frame) (d₀ : DHT F), Checksum frame ∧ d₀._DHTtype = d._DHTtype ∧
      d₀.receive u currentTime frame = (.ERROR_NONE, d') := by
  unfold readData at h
  split at h
  case isTrue => cases h
  case isFalse =>
    dsimp only at h
    split at h
    case h_1 err herr =>
      obtain ⟨rfl, -⟩ := Prod.mk.inj h
      exact absurd herr (exchange_saysWhy levels)
    case h_2 bitTimes rest hbits =>
      refine ⟨frameOf bitTimes, _, ?_, ?_, h⟩
      · by_contra hsum
        rw [receive, if_neg hsum] at h
        cases h
      · split <;> rfl

/-- The levels of a pin on which a device answers and sends a frame. -/
def levelsOf (frame : Frame) (rest : Stream' Bool) : Stream' Bool :=
  .appendStream' (true :: false :: pulses (samples frame)) rest

/-- A frame is received if its last bit is clear. -/
theorem readData_levelsOf {d : DHT F} (hd : d._firsttime = true) (currentTime : ℤ)
    {frame : Frame} (hlast : (frame 4).toNat % 2 = 0) (rest : Stream' Bool) :
    d.readData u currentTime (levelsOf frame rest) =
      ({ d with _firsttime := false, _lastReadTime := currentTime }).receive u currentTime
        frame := by
  simp only [readData, hd, Bool.true_eq_false, false_and, if_false, if_true, levelsOf,
    exchange_pulses (samples_length frame) rest, frameOf_samples hlast]

end

end DHT

/-! ### The temperature of a frame -/

/-- Tenths of a degree, without the sign. -/
def Frame.tenths (frame : Frame) : ℕ := ((frame 2).toNat &&& 0x7F) * 256 + (frame 3).toNat

/-- The sign bit is set. -/
def Frame.Negative (frame : Frame) : Prop := (frame 2).toNat &&& 0x80 ≠ 0

instance (frame : Frame) : Decidable frame.Negative := inferInstanceAs (Decidable (_ ≠ _))

/-- Whole percents, as `CalcHumidity` makes them of a frame. -/
def Frame.humidity (frame : Frame) : ℕ := ((frame 0).toNat * 256 + (frame 1).toNat) / 10

/-- The degrees `CalcTemperature` makes of a frame. -/
def Frame.degrees (frame : Frame) : ℤ :=
  if frame.Negative then -((frame.tenths / 10 : ℕ) : ℤ) else (frame.tenths / 10 : ℕ)

theorem Frame.degrees_le (frame : Frame) : frame.degrees.natAbs ≤ 3276 := by
  have hlow : (frame 2).toNat &&& 0x7F ≤ 0x7F := Nat.and_le_right
  have hbyte : (frame 3).toNat < 256 := (frame 3).toNat_lt
  have htenths : frame.tenths ≤ 32767 := by
    unfold tenths
    omega
  unfold degrees
  split <;> omega

theorem Frame.degrees_nonneg_iff (frame : Frame) :
    0 ≤ frame.degrees ↔ ¬ frame.Negative ∨ frame.tenths < 10 := by
  unfold degrees
  split
  case isTrue h =>
    have hnot : ¬ ¬ frame.Negative := not_not_intro h
    simp only [hnot, false_or]
    omega
  case isFalse h =>
    simp only [h, not_false_eq_true, true_or, iff_true]
    omega

theorem DHT.receive_report {F : Type} (u : FloatUnit F) {d : DHT F} (hd : d._DHTtype = 22)
    (currentTime : ℤ) {frame : Frame} (hframe : Checksum frame) :
    (report (d.receive u currentTime frame)).state = 0 ∧
      (report (d.receive u currentTime frame)).temperature = u.lit frame.degrees := by
  have hdegrees : CalcTemperature u { d with DHT_data := frame } = u.lit frame.degrees := by
    unfold CalcTemperature
    simp only [hd, Frame.degrees, Frame.Negative, Frame.tenths]
    simp
  rw [receive, if_pos hframe]
  exact ⟨rfl, hdegrees⟩

/-! ### Arithmetic on `float` -/

/-- Every result is rounded to 24 bits.  The bounds of the exponent are left out. -/
def binary32 : FloatUnit ℚ where
  lit := roundBits 24
  mul x y := roundBits 24 (x * y)
  sub x y := roundBits 24 (x - y)
  toUint32 := exactUnit.toUint32
  toUint32_lt := exactUnit.toUint32_lt
  toInt := exactUnit.toInt
  toInt_fits := exactUnit.toInt_fits

theorem binary32_lit_intCast {z : ℤ} (h : z.natAbs ≤ 2 ^ 24) : binary32.lit z = z :=
  roundBits_intCast (by norm_num) h

theorem binary32_lit_natCast {n : ℕ} (h : n ≤ 2 ^ 24) : binary32.lit n = n := by
  have := binary32_lit_intCast (z := n) (by simpa using h)
  exact_mod_cast this

theorem binary32_mul_natCast {m n : ℕ} (h : m * n ≤ 2 ^ 24) : binary32.mul m n = m * n := by
  have := binary32_lit_natCast h
  rw [Nat.cast_mul] at this
  exact this

theorem binary32_sub_self (x : ℚ) : binary32.sub x x = 0 := by
  have := binary32_lit_natCast (n := 0) (by norm_num)
  rw [Nat.cast_zero] at this
  change binary32.lit (x - x) = 0
  rw [sub_self, this]

/-! ### Conversions -/

section
variable {F : Type} (u : FloatUnit F)

/-- What `fixedText` converts to `uint32_t`. -/
def conversions (x : F) : List F :=
  [x, u.sub (u.mul x (u.lit 1000)) (u.lit ((u.toUint32 x * 1000 % 2 ^ 32 : ℕ) : ℚ))]

theorem fixedText_eq (w : ℕ) {x a b : F} (h : conversions u x = [a, b]) :
    fixedText u w x =
      formatD 0 (asInt (u.toUint32 a)) ++ 46 :: formatD w (asInt (u.toUint32 b)) := by
  simp only [conversions, List.cons.injEq, and_true] at h
  obtain ⟨ha, hb⟩ := h
  rw [← ha, ← hb, fixedText, List.append_assoc]
  rfl

end

/-- The number without its fraction is one of `uint32_t`. -/
def InUint32 (x : ℚ) : Prop := -1 < x ∧ x < 2 ^ 32

instance (x : ℚ) : Decidable (InUint32 x) := inferInstanceAs (Decidable (_ ∧ _))

/-- The conversions of the temperature branch are in range, and the text is read back as the
temperature. -/
structure Printed (x : ℚ) : Prop where
  conversions : ∀ y ∈ conversions binary32 x, InUint32 y
  text : readDecimal (fixedText binary32 1 x) = some x

theorem binary32_toUint32_natCast {n : ℕ} (h : n < 2 ^ 32) : binary32.toUint32 n = n := by
  have hlt : (n : ℚ) < 2 ^ 32 := by exact_mod_cast h
  change exactUnit.toUint32 n = n
  rw [toUint32_exactUnit (Nat.cast_nonneg n) hlt, Nat.floor_natCast]

theorem conversions_natCast {n : ℕ} (h : n * 1000 ≤ 2 ^ 24) :
    conversions binary32 (n : ℚ) = [(n : ℚ), (0 : ℕ)] := by
  have hlit : binary32.lit 1000 = (1000 : ℕ) := binary32_lit_natCast (by norm_num)
  have hmod : n * 1000 % 2 ^ 32 = n * 1000 := Nat.mod_eq_of_lt (by omega)
  rw [conversions, binary32_toUint32_natCast (by omega), hlit, hmod, binary32_mul_natCast h,
    binary32_lit_natCast h, Nat.cast_mul, binary32_sub_self, Nat.cast_zero]

theorem inUint32_natCast {n : ℕ} (h : n < 2 ^ 32) : InUint32 n := by
  have hpos : (0 : ℚ) ≤ n := Nat.cast_nonneg n
  exact ⟨by linarith, by exact_mod_cast h⟩

theorem printed_natCast {n : ℕ} (h : n * 1000 ≤ 2 ^ 24) : Printed n where
  conversions := by
    rw [conversions_natCast h, List.forall_mem_cons, List.forall_mem_singleton]
    exact ⟨inUint32_natCast (by omega), inUint32_natCast (by omega)⟩
  text := by
    have hread := readDecimal_formatD_point 0 1 n 0
    rw [fixedText_eq binary32 1 (conversions_natCast h), binary32_toUint32_natCast (by omega),
      binary32_toUint32_natCast (by omega), asInt_of_lt (by omega), asInt_of_lt (by omega), hread]
    simp

/-- Of the integers a temperature may be, those that are not negative are printed. -/
theorem printed_intCast_iff {z : ℤ} (h : z.natAbs ≤ 3276) : Printed z ↔ 0 ≤ z := by
  constructor
  · intro hp
    have hrange : InUint32 (z : ℚ) := hp.conversions z List.mem_cons_self
    have : -1 < z := by exact_mod_cast hrange.1
    omega
  · intro hz
    obtain ⟨n, rfl⟩ := Int.eq_ofNat_of_zero_le hz
    exact printed_natCast (n := n) (by omega)

/-! ### The branch -/

/-- After a read that has returned 0 a thermometer publishes the temperature read. -/
theorem temperatureHumidity_read {F σ : Type} {u : FloatUnit F} {G : Globals} {r : Readings F}
    {send : CString → Message → σ → σ} {i : ℕ} {s : Sensor} (hs : EntryOf G i s)
    (hk : s.kind = .temperature) (hstate : (r.dht i).state = 0) (t : Round F σ) :
    temperatureHumidity u G r send i t =
      .ok ⟨(r.dht i).temperature, (r.dht i).humidity,
        send s.topic (messageOf (fixedText u 1 (r.dht i).temperature)) t.out⟩ := by
  have hrefresh : refresh r i s (t.temperatura, t.humedad) =
      ((r.dht i).temperature, (r.dht i).humidity) := if_pos ⟨.inl hk, hstate⟩
  rw [temperatureHumidity_eq hs, if_pos (.inl hk), hrefresh]
  simp only [sensorText, hk]

/-- After a frame with a valid checksum the temperature branch prints the temperature it has read
exactly if the sign bit is clear or the frame says less than a degree. -/
theorem temperature_text_iff {v : Value} {G : Globals} (hv : parse v = .ok G) {i : ℕ}
    (hi : deref G.typesObjects i = .ok (.lit "temperature")) {d : DHT ℚ} (hd : d._DHTtype = 22)
    (currentTime : ℤ) {frame : Frame} (hframe : DHT.Checksum frame) {r : Readings ℚ}
    (hr : r.dht i = DHT.report (d.receive binary32 currentTime frame)) :
    ∃ topic text, deref G.topicsMQTT i = .ok topic ∧
      (∀ (σ : Type) (send : CString → Message → σ → σ) (t : Round ℚ σ),
        temperatureHumidity binary32 G r send i t =
          .ok ⟨(r.dht i).temperature, (r.dht i).humidity, send topic (messageOf text) t.out⟩) ∧
      ((∀ x ∈ conversions binary32 (r.dht i).temperature, InUint32 x) ∧
          readDecimal text = some (r.dht i).temperature ↔
        (frame 2).toNat &&& 0x80 = 0 ∨ frame.tenths < 10) := by
  obtain ⟨-, -, ss, -, -, hG⟩ := parse_ok hv
  obtain ⟨s, hs⟩ := hG.sensor_at hi
  have hentry : EntryOf G i s := hG.entry hs
  have hk : s.kind = .temperature := hentry.kind_eq hi
  obtain ⟨hstate, htemperature⟩ := DHT.receive_report binary32 hd currentTime hframe
  rw [← hr] at hstate htemperature
  have hdegrees : (r.dht i).temperature = frame.degrees := by
    rw [htemperature, binary32_lit_intCast (frame.degrees_le.trans (by norm_num))]
  refine ⟨s.topic, fixedText binary32 1 (r.dht i).temperature, hentry.topic, ?_, ?_⟩
  · intro σ send t
    exact temperatureHumidity_read hentry hk hstate t
  · have hprinted : Printed (r.dht i).temperature ↔
        (∀ x ∈ conversions binary32 (r.dht i).temperature, InUint32 x) ∧
          readDecimal (fixedText binary32 1 (r.dht i).temperature) = some (r.dht i).temperature :=
      ⟨fun h => ⟨h.conversions, h.text⟩, fun h => ⟨h.1, h.2⟩⟩
    rw [← hprinted, hdegrees, printed_intCast_iff frame.degrees_le, frame.degrees_nonneg_iff,
      Frame.Negative, not_not]

/-- A thermometer in a garden. -/
def garden : Globals := globalsOf [⟨.temperature, .lit "garden", .DHT .p10 22, rfl⟩]

/-- A `DHT` that has not been read. -/
def DHT.unread (DHTtype : ℕ) : DHT ℚ := ⟨DHTtype, true, 0, fun _ => 0, 0, 0⟩

/-- 40 % and 21.5 °C. -/
def mild : Frame := ![0x01, 0x90, 0x00, 0xD7, 0x68]

/-- 40 % and -10.1 °C. -/
def frost : Frame := ![0x01, 0x90, 0x80, 0x65, 0x76]

/-- A round in which the `DHT` of the garden has received a frame. -/
def gardenReadings (frame : Frame) : Readings ℚ :=
  { steadyReadings 0 (fun _ => false) with
    dht := fun _ => DHT.report ((DHT.unread 22).receive binary32 0 frame) }

theorem temperature_text_iff_mild : ∃ topic text, deref garden.topicsMQTT 0 = .ok topic ∧
    (∀ (σ : Type) (send : CString → Message → σ → σ) (t : Round ℚ σ),
      temperatureHumidity binary32 garden (gardenReadings mild) send 0 t =
        .ok ⟨((gardenReadings mild).dht 0).temperature, ((gardenReadings mild).dht 0).humidity,
          send topic (messageOf text) t.out⟩) ∧
    ((∀ x ∈ conversions binary32 ((gardenReadings mild).dht 0).temperature, InUint32 x) ∧
        readDecimal text = some ((gardenReadings mild).dht 0).temperature ↔
      (mild 2).toNat &&& 0x80 = 0 ∨ mild.tenths < 10) := by
  have hsum : DHT.Checksum mild := by decide
  exact temperature_text_iff (v := config [element .temperature "garden" 10]) (G := garden) rfl rfl
    (d := DHT.unread 22) rfl 0 hsum rfl

/-- The thermometer in the garden is read in frost, and what is published is made by a conversion
that is out of range. -/
theorem frost_out_of_range :
    parse (config [element .temperature "garden" 10]) = .ok garden ∧
      ∃ levels d, (DHT.unread 22).readData binary32 0 levels = (.ERROR_NONE, d) ∧
        DHT.Checksum d.DHT_data ∧ d.ReadTemperature = -10 ∧
        (∀ r : Readings ℚ, r.dht 0 = DHT.report (.ERROR_NONE, d) →
          ∀ (σ : Type) (send : CString → Message → σ → σ) (t : Round ℚ σ),
            temperatureHumidity binary32 garden r send 0 t =
              .ok ⟨d.ReadTemperature, d.ReadHumidity, send (.lit "garden")
                (messageOf (fixedText binary32 1 d.ReadTemperature)) t.out⟩) ∧
        ¬ ∀ x ∈ conversions binary32 d.ReadTemperature, InUint32 x := by
  have hsum : DHT.Checksum frost := by decide
  have hlast : (frost 4).toNat % 2 = 0 := by decide
  have hread := DHT.readData_levelsOf binary32 (d := DHT.unread 22) rfl 0 hlast (.const false)
  have hdegrees := (DHT.receive_report binary32 (d := { DHT.unread 22 with _firsttime := false })
    rfl 0 hsum).2
  have hten : ((DHT.receive binary32 0 frost { DHT.unread 22 with _firsttime := false }).2
      ).ReadTemperature = -10 := by
    apply hdegrees.trans
    rw [binary32_lit_intCast (by decide)]
    rfl
  refine ⟨rfl, _, _, hread, hsum, hten, ?_, ?_⟩
  · intro r hr σ send t
    have hentry : EntryOf garden 0 ⟨.temperature, .lit "garden", .DHT .p10 22, rfl⟩ :=
      (globalsOf_aligned _).entry rfl
    rw [temperatureHumidity_read hentry rfl (by rw [hr]; rfl), hr]
    rfl
  · intro h
    have hrange : InUint32 (-10) := hten ▸ h _ List.mem_cons_self
    exact absurd hrange (by decide)

end RemotusHardware
