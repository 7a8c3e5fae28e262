import RemotusHardware.Base.Decimal
import RemotusHardware.Update

/-! # The texts of readings that are not negative

Three branches of `updateSensorData` print a reading as its whole part, a point and the
thousandths behind it.  The thousandths of a wind speed have no zeros in front, those of a rainfall
and of a distance are padded to three digits.

Without rounding the two conversions of the branch take a number apart into its whole part and its
thousandths, as long as a thousand times it fits in 32 bits (`fixedText_exactUnit`).  The text is
read back as the number cut off after three places if it is padded, and without padding if the
thousandths are none or a hundred at least (`fixedText_reads_iff`); those of a multiple of 12/5
are.  So each of the three publishes its reading to the thousandth (`unsigned_texts`). -/

namespace RemotusHardware

open CLib

/-! ### What the devices report -/

/-- `CAnemometer::OneSecondTickerISR`: what `GetCurrentWindSpeed` returns for the second that
follows, from the count of the second before. -/
def OneSecondTickerISR {F : Type} (u : FloatUnit F) (GetCurrentCount : ℕ) : F :=
  u.mul (u.lit GetCurrentCount) (u.lit 2.4)

/-- `SRF05::_falling`: what `read` returns, from the microseconds of the echo.  The quotient is not
rounded here. -/
def _falling (read_us : ℕ) : ℚ := read_us / 58.0

/-! ### Taking a number apart -/

theorem toUint32_exactUnit {x : ℚ} (h0 : 0 ≤ x) (h : x < 2 ^ 32) :
    exactUnit.toUint32 x = ⌊x⌋₊ := by
  change (if 0 ≤ x ∧ x < 2 ^ 32 then ⌊x⌋.toNat else 0) = ⌊x⌋₊
  rw [if_pos ⟨h0, h⟩, Int.floor_toNat]

theorem asInt_of_lt {n : ℕ} (h : n < 2 ^ 31) : asInt n = n := if_pos h

theorem floor_div_thousand (x : ℚ) : ⌊x⌋₊ = ⌊1000 * x⌋₊ / 1000 := by
  have h := Nat.floor_div_natCast (1000 * x) 1000
  rwa [Nat.cast_ofNat, mul_div_cancel_left₀ x (by norm_num)] at h

/-- What is left of the thousandths without the whole part. -/
theorem floor_sub_whole (x : ℚ) :
    ⌊x * 1000 - (⌊x⌋₊ * 1000 : ℕ)⌋₊ = ⌊1000 * x⌋₊ % 1000 := by
  have hdiv := floor_div_thousand x
  rw [Nat.floor_sub_natCast, mul_comm x]
  omega

theorem fixedText_exactUnit (w : ℕ) {x : ℚ} (h0 : 0 ≤ x) (h : x < 4294967) :
    fixedText exactUnit w x =
      formatD 0 (⌊1000 * x⌋₊ / 1000 : ℕ) ++ 46 :: formatD w (⌊1000 * x⌋₊ % 1000 : ℕ) := by
  have hwhole : exactUnit.toUint32 x = ⌊x⌋₊ := toUint32_exactUnit h0 (by linarith)
  have hlt : ⌊x⌋₊ < 4294967 := (Nat.floor_lt h0).mpr (by exact_mod_cast h)
  have hle : (⌊x⌋₊ : ℚ) ≤ x := Nat.floor_le h0
  have hup : x < ⌊x⌋₊ + 1 := Nat.lt_floor_add_one x
  have hwrap : ⌊x⌋₊ * 1000 % 2 ^ 32 = ⌊x⌋₊ * 1000 := Nat.mod_eq_of_lt (by omega)
  have hrest : exactUnit.toUint32 (x * 1000 - (⌊x⌋₊ * 1000 : ℕ)) = ⌊1000 * x⌋₊ % 1000 := by
    rw [toUint32_exactUnit, floor_sub_whole]
    · push_cast
      linarith
    · push_cast
      linarith
  have hlt' : ⌊1000 * x⌋₊ % 1000 < 1000 := Nat.mod_lt _ (by norm_num)
  change formatD 0 (asInt (exactUnit.toUint32 x)) ++ [46] ++
    formatD w (asInt (exactUnit.toUint32 (x * 1000 -
      ((exactUnit.toUint32 x * 1000 % 2 ^ 32 : ℕ) : ℚ)))) = _
  rw [hwhole, hwrap, hrest, asInt_of_lt (by omega), asInt_of_lt (by omega), floor_div_thousand x,
    List.append_assoc, List.singleton_append]

/-! ### Reading it back -/

/-- The text of a number is read back as the number cut off after three places if the places are
filled, or empty. -/
theorem fixedText_reads_iff {w : ℕ} (hw : w ≤ 3) {x : ℚ} (h0 : 0 ≤ x) (h : x < 4294967) :
    readDecimal (fixedText exactUnit w x) = some (⌊1000 * x⌋₊ / 1000 : ℚ) ↔
      ⌊1000 * x⌋₊ % 1000 = 0 ∨ w = 3 ∨ 100 ≤ ⌊1000 * x⌋₊ % 1000 := by
  have hsplit : ((⌊1000 * x⌋₊ : ℕ) : ℚ) / 1000 =
      (⌊1000 * x⌋₊ / 1000 : ℕ) + (⌊1000 * x⌋₊ % 1000 : ℕ) / 10 ^ 3 := by
    have := congrArg (Nat.cast (R := ℚ)) (Nat.div_add_mod ⌊1000 * x⌋₊ 1000)
    push_cast at this ⊢
    linarith
  rw [fixedText_exactUnit w h0 h, hsplit]
  exact readDecimal_fraction_iff 0 _ hw (Nat.mod_lt _ (by norm_num)) (by norm_num)

theorem fixedText_length_le {F : Type} (u : FloatUnit F) {w : ℕ} (hw : w ≤ 11) (x : F) :
    (fixedText u w x).length ≤ 23 := by
  have hfits (n : ℕ) (hn : n < 2 ^ 32) : (asInt n).natAbs ≤ 2 ^ 31 := by
    unfold asInt
    split <;> omega
  have hwhole := formatD_length_le (w := 0) (hfits _ (u.toUint32_lt x))
  have hrest := formatD_length_le (w := w) (hfits _ (u.toUint32_lt (u.sub (u.mul x (u.lit 1000))
    (u.lit ((u.toUint32 x * 1000 % 2 ^ 32 : ℕ) : ℚ)))))
  have hdot : (ascii ".").length = 1 := rfl
  simp only [fixedText, List.length_append]
  omega

/-! ### The three sensors -/

/-- The sensor at index `i` is one whose reading is not negative, and reads `x`. -/
inductive UnsignedReading (G : Globals) (r : Readings ℚ) (i : ℕ) : ℚ → Prop
  | windspeed (c : ℕ) : deref G.typesObjects i = .ok (.lit "windspeed") →
      r.windSpeed i = OneSecondTickerISR exactUnit c → UnsignedReading G r i (12 * c / 5)
  | raingauge (c : ℕ) : deref G.typesObjects i = .ok (.lit "raingauge") →
      r.rainCount i = c → UnsignedReading G r i (0.2794 * c)
  | sonar (k : ℕ) : deref G.typesObjects i = .ok (.lit "sonar") →
      r.sonar i = _falling k → UnsignedReading G r i (k / 58)

theorem UnsignedReading.nonneg {G : Globals} {r : Readings ℚ} {i : ℕ} {x : ℚ}
    (h : UnsignedReading G r i x) : 0 ≤ x := by
  cases h with
  | windspeed c => positivity
  | raingauge c => positivity
  | sonar k => positivity

/-- The thousandths of a wind speed are none, or a hundred at least. -/
theorem windspeed_thousandths (c : ℕ) :
    ⌊1000 * (12 * c / 5 : ℚ)⌋₊ % 1000 = 0 ∨ 100 ≤ ⌊1000 * (12 * c / 5 : ℚ)⌋₊ % 1000 := by
  have hthousandths : 1000 * (12 * c / 5 : ℚ) = (2400 * c : ℕ) := by
    push_cast
    ring
  rw [hthousandths, Nat.floor_natCast]
  omega

/-- The type stored at an index is that of the sensor there. -/
theorem EntryOf.kind_eq {G : Globals} {i : ℕ} {s : Sensor} (h : EntryOf G i s) {k : SensorKind}
    (hk : deref G.typesObjects i = .ok k.name) : s.kind = k := by
  rw [h.type] at hk
  exact SensorKind.name_inj.mp (Except.ok.inj hk)

theorem sensorText_unsigned {G : Globals} {r : Readings ℚ} {i : ℕ} {s : Sensor}
    (hs : EntryOf G i s) {x : ℚ} (hx : UnsignedReading G r i x) (g : ℚ × ℚ) :
    ∃ w, sensorText exactUnit r i s g = fixedText exactUnit w x ∧
      (w = 3 ∨ w = 1 ∧ (⌊1000 * x⌋₊ % 1000 = 0 ∨ 100 ≤ ⌊1000 * x⌋₊ % 1000)) := by
  cases hx with
  | windspeed c htype hreads =>
      have hk : s.kind = .windspeed := hs.kind_eq htype
      refine ⟨1, ?_, .inr ⟨rfl, windspeed_thousandths c⟩⟩
      have hspeed : OneSecondTickerISR exactUnit c = 12 * c / 5 := by
        change (c : ℚ) * 2.4 = _
        ring
      simp only [sensorText, hk, hreads, hspeed]
  | raingauge c htype hreads =>
      have hk : s.kind = .raingauge := hs.kind_eq htype
      refine ⟨3, ?_, .inl rfl⟩
      have hrain : GetRainfall exactUnit c = 0.2794 * c := by
        change (c : ℚ) * 0.2794 = _
        ring
      simp only [sensorText, hk, hreads, hrain]
  | sonar k htype hreads =>
      have hk : s.kind = .sonar := hs.kind_eq htype
      refine ⟨3, ?_, .inl rfl⟩
      have hdistance : _falling k = k / 58 := by
        change (k : ℚ) / 58.0 = _
        norm_num
      simp only [sensorText, hk, hreads, hdistance]

/-- The message of the sensor at an index of a round. -/
theorem roundTexts_of_sensor {F : Type} (u : FloatUnit F) (r : Readings F) {s : Sensor} :
    ∀ (ss : List Sensor) (k i : ℕ) (g : F × F), ss[k]? = some s →
      ∃ g', (roundTexts u r i ss g)[k]? = some (s.topic, sensorText u r (i + k) s g')
  | s' :: ss, 0, i, g, h => by
      obtain rfl := Option.some.inj h
      exact ⟨refresh r i s' g, rfl⟩
  | s' :: ss, k + 1, i, g, h => by
      obtain ⟨g', hg'⟩ := roundTexts_of_sensor u r ss k (i + 1) (refresh r i s' g) h
      rw [show i + 1 + k = i + (k + 1) by omega] at hg'
      exact ⟨g', hg'⟩

theorem Aligned.sensor_at {G : Globals} {ss : List Sensor} (h : Aligned G ss) {i : ℕ}
    {type : CString} (htype : deref G.typesObjects i = .ok type) : ∃ s, ss[i]? = some s := by
  rw [h.typesObjects] at htype
  cases hi : ss[i]? with
  | some s => exact ⟨s, rfl⟩
  | none => simp [deref, hi, undefined] at htype

theorem UnsignedReading.type {G : Globals} {r : Readings ℚ} {i : ℕ} {x : ℚ}
    (h : UnsignedReading G r i x) : ∃ type, deref G.typesObjects i = .ok type := by
  cases h with
  | windspeed c htype => exact ⟨_, htype⟩
  | raingauge c htype => exact ⟨_, htype⟩
  | sonar k htype => exact ⟨_, htype⟩

/-- In every round each wind speed, rainfall and distance is published as a text, with a NUL behind
it, that is read back as the reading cut off after the thousandths, and that fits `intStr`. -/
theorem unsigned_texts {v : Value} {G : Globals} (hv : parse v = .ok G) (r : Readings ℚ)
    (temperatura humedad : ℚ) : ∃ messages : List (CString × Message),
      (∀ (σ : Type) (send : CString → Message → σ → σ) (a : σ), ∃ t h,
        updateSensorData exactUnit G r send ⟨temperatura, humedad, a⟩ =
          .ok ⟨t, h, messages.foldl (fun a m => send m.1 m.2 a) a⟩) ∧
      ∀ i x, UnsignedReading G r i x → x < 4294967 → ∃ topic message text,
        deref G.topicsMQTT i = .ok topic ∧ messages[i]? = some (topic, message) ∧
          message.payload = text ++ [0] ∧ message.payloadlen = text.length + 1 ∧
          readDecimal text = some (⌊1000 * x⌋ / 1000 : ℚ) ∧ text.length + 1 ≤ 30 := by
  obtain ⟨-, -, ss, -, -, hG⟩ := parse_ok hv
  refine ⟨(roundTexts exactUnit r 0 ss (temperatura, humedad)).map fun m => (m.1, messageOf m.2),
    ?_, ?_⟩
  · intro σ send a
    refine ⟨(roundGlobals r 0 ss (temperatura, humedad)).1,
      (roundGlobals r 0 ss (temperatura, humedad)).2, ?_⟩
    rw [updateSensorData_eq hG, List.foldl_map, sendAll]
  · intro i x hx hlt
    obtain ⟨type, htype⟩ := hx.type
    obtain ⟨s, hs⟩ := hG.sensor_at htype
    have hentry : EntryOf G i s := hG.entry hs
    obtain ⟨g, hg⟩ := roundTexts_of_sensor exactUnit r ss i 0 (temperatura, humedad) hs
    rw [Nat.zero_add] at hg
    obtain ⟨w, htext, hw⟩ := sensorText_unsigned hentry hx g
    rw [htext] at hg
    have hfloor : ((⌊1000 * x⌋ : ℤ) : ℚ) = (⌊1000 * x⌋₊ : ℕ) := by
      have h0 : 0 ≤ 1000 * x := mul_nonneg (by norm_num) hx.nonneg
      exact_mod_cast (Int.natCast_floor_eq_floor h0).symm
    have hlength := fixedText_length_le exactUnit (w := w) (by omega) x
    have hpayloadlen := messageOf_payloadlen (nul_notMem_fixedText exactUnit w x)
    rw [List.length_append, List.length_singleton] at hpayloadlen
    refine ⟨s.topic, _, fixedText exactUnit w x, hentry.topic, ?_, rfl, hpayloadlen, ?_, ?_⟩
    · rw [List.getElem?_map, hg]
      rfl
    · rw [hfloor]
      apply (fixedText_reads_iff (by omega) hx.nonneg hlt).mpr
      omega
    · omega

/-- An anemometer, a rain gauge and a sonar at a weather station. -/
def stationConfig : Value :=
  config [element .windspeed "wind" 9, element .raingauge "rain" 10, sonarElement "tank" 14 15]

def station : Globals :=
  globalsOf [⟨.windspeed, .lit "wind", .CAnemometer .p9, rfl⟩,
    ⟨.raingauge, .lit "rain", .CRainGauge .p10, rfl⟩, tankSensor]

/-- A round in which seven turns and four tips have been counted. -/
def stationReadings : Readings ℚ :=
  { steadyReadings (OneSecondTickerISR exactUnit 7) (fun _ => false) with
    rainCount := fun _ => 4, sonar := fun _ => _falling 1000 }

theorem unsigned_texts_station : ∃ messages : List (CString × Message),
    (∀ (σ : Type) (send : CString → Message → σ → σ) (a : σ), ∃ t h,
      updateSensorData exactUnit station stationReadings send ⟨0, 0, a⟩ =
        .ok ⟨t, h, messages.foldl (fun a m => send m.1 m.2 a) a⟩) ∧
    (∃ topic message text, deref station.topicsMQTT 0 = .ok topic ∧
      messages[0]? = some (topic, message) ∧ message.payload = text ++ [0] ∧
      message.payloadlen = text.length + 1 ∧ readDecimal text = some 16.8 ∧
      text.length + 1 ≤ 30) ∧
    (∃ topic message text, deref station.topicsMQTT 1 = .ok topic ∧
      messages[1]? = some (topic, message) ∧ message.payload = text ++ [0] ∧
      message.payloadlen = text.length + 1 ∧ readDecimal text = some 1.117 ∧
      text.length + 1 ≤ 30) ∧
    (∃ topic message text, deref station.topicsMQTT 2 = .ok topic ∧
      messages[2]? = some (topic, message) ∧ message.payload = text ++ [0] ∧
      message.payloadlen = text.length + 1 ∧ readDecimal text = some 17.241 ∧
      text.length + 1 ≤ 30) := by
  obtain ⟨messages, hround, hmessages⟩ := unsigned_texts (v := stationConfig) (G := station) rfl
    stationReadings 0 0
  have hreading (i : ℕ) (x y : ℚ) (hx : UnsignedReading station stationReadings i x)
      (hlt : x < 4294967) (hy : (⌊1000 * x⌋ / 1000 : ℚ) = y) :
      ∃ topic message text, deref station.topicsMQTT i = .ok topic ∧
        messages[i]? = some (topic, message) ∧ message.payload = text ++ [0] ∧
        message.payloadlen = text.length + 1 ∧ readDecimal text = some y ∧ text.length + 1 ≤ 30 :=
    hy ▸ hmessages i x hx hlt
  exact ⟨messages, hround,
    hreading 0 _ _ (.windspeed 7 rfl rfl) (by norm_num) (by norm_num),
    hreading 1 _ _ (.raingauge 4 rfl rfl) (by norm_num) (by norm_num),
    hreading 2 _ _ (.sonar 1000 rfl rfl) (by norm_num) (by norm_num)⟩

example : fixedText exactUnit 1 (OneSecondTickerISR exactUnit 7) = ascii "16.800" := by
  decide +kernel

end RemotusHardware
