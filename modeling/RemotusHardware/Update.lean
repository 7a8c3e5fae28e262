import RemotusHardware.Tables
import RemotusHardware.Client

/-! # Publishing the readings

`updateSensorData` of `main.cpp`: a loop over the tables in which a chain of independent `if`s
compares the stored type with each name, casts the stored object, makes a text of its reading
and sends it.  What the devices report is the input `Readings`, arithmetic on `float` the input
`FloatUnit`; how a message is sent is the parameter `send`, so that one definition serves the
program, which sends on copies of its client (`sendMQTT`), and the programs it is compared with.

On the tables of a list of sensors no cast goes wrong and every sensor sends exactly one
message (`updateSensorData_eq`): the round is the list `roundMessages`, sent in order. -/

namespace RemotusHardware

open CLib

/-! ### Arithmetic on `float` -/

/-- The operations on `float` the program uses.  Outside the range of its result a conversion
may give anything that fits. -/
structure FloatUnit (F : Type) where
  /-- a literal, or an integer converted -/
  lit : ℚ → F
  mul : F → F → F
  sub : F → F → F
  toUint32 : F → ℕ
  toUint32_lt : ∀ x, toUint32 x < 2 ^ 32
  toInt : F → ℤ
  toInt_fits : ∀ x, FitsInt (toInt x)

/-- Arithmetic without rounding. -/
def exactUnit : FloatUnit ℚ where
  lit := id
  mul := (· * ·)
  sub := (· - ·)
  toUint32 x := if 0 ≤ x ∧ x < 2 ^ 32 then ⌊x⌋.toNat else 0
  toUint32_lt x := by
    split
    · rename_i h
      have : ⌊x⌋ < 2 ^ 32 := Int.floor_lt.mpr (by exact_mod_cast h.2)
      omega
    · norm_num
  toInt x := if FitsInt (trunc x) then trunc x else 0
  toInt_fits x := by
    split
    · assumption
    · decide

/-! ### Texts -/

/-- The `int` that `%d` makes of a `uint32_t`. -/
def asInt (n : ℕ) : ℤ := if n < 2 ^ 31 then n else (n : ℤ) - 2 ^ 32

/-- `"%d.%0wd"` of `(uint32_t)x` and `(uint32_t)((x * 1000) - (uint32_t)(x) * 1000)`. -/
def fixedText {F : Type} (u : FloatUnit F) (w : ℕ) (x : F) : List UInt8 :=
  let whole := u.toUint32 x
  let thousandths :=
    u.toUint32 (u.sub (u.mul x (u.lit 1000)) (u.lit ((whole * 1000 % 2 ^ 32 : ℕ) : ℚ)))
  formatD 0 (asInt whole) ++ ascii "." ++ formatD w (asInt thousandths)

/-- The sixteen strings of `g_WindVaneDescriptionTable`. -/
def directions : List String :=
  ["North", "North North East", "North East", "East North East", "East", "East South East",
    "South East", "South South East", "South", "South South West", "South West",
    "West South West", "West", "West North West", "North West", "North North West"]

def direction (i : Fin 16) : List UInt8 := ascii (directions.getD i "")

/-- `message` with a text as its payload: `main` has set it to QoS 0 and not retained. -/
def messageOf (text : List UInt8) : Message where
  qos := 0
  retained := false
  dup := false
  id := 0
  payload := text ++ [0]
  payloadlen := strlen (.ofMem text) + 1

/-! ### The loop -/

/-- What `readData` of a `DHT` returns, and its two readings afterwards. -/
structure DhtRead (F : Type) where
  state : ℤ
  temperature : F
  humidity : F

/-- What the devices report in a round, by index in the tables. -/
structure Readings (F : Type) where
  windSpeed : ℕ → F
  windDirection : ℕ → Fin 16
  rainCount : ℕ → ℕ
  dht : ℕ → DhtRead F
  analog : ℕ → F
  analog_u16 : ℕ → Fin 65536
  levels : Levels
  sonar : ℕ → F

/-- Devices that report one value everywhere, the outputs being at the levels `g`. -/
def steadyReadings {F : Type} (x : F) (g : Levels) : Readings F where
  windSpeed _ := x
  windDirection _ := 0
  rainCount _ := 0
  dht _ := ⟨0, x, x⟩
  analog _ := x
  analog_u16 _ := 0
  levels := g
  sonar _ := x

/-- The global readings, and what has been sent. -/
structure Round (F σ : Type) where
  temperatura : F
  humedad : F
  out : σ

/-- Following an entry of a table. -/
def deref {α : Type} (table : List (Option α)) (i : ℕ) : Except Stop α :=
  match table[i]? with
  | some (some a) => .ok a
  | _ => undefined .nullPointer

section
variable {F σ : Type} (u : FloatUnit F) (G : Globals) (r : Readings F)
  (send : CString → Message → σ → σ)

/-- `sendMQTT(topicsMQTT[i], client, message)` -/
def sendText (i : ℕ) (text : List UInt8) (s : Round F σ) : Except Stop (Round F σ) := do
  let topic ← deref G.topicsMQTT i
  pure { s with out := send topic (messageOf text) s.out }

/-- A branch that makes a text of one reading. -/
def branch (name : String) (c : SensorClass) (text : SensorObject → List UInt8) (i : ℕ)
    (s : Round F σ) : Except Stop (Round F σ) := do
  let type ← deref G.typesObjects i
  if strcmp type (.lit name) = 0 then do
    let object ← (← deref G.objectsSensors i).cast c
    sendText G send i (text object) s
  else pure s

def windspeed (i : ℕ) : Round F σ → Except Stop (Round F σ) :=
  branch G send "windspeed" .CAnemometer (fun _ => fixedText u 1 (r.windSpeed i)) i

def winddirection (i : ℕ) : Round F σ → Except Stop (Round F σ) :=
  branch G send "winddirection" .CWindVane (fun _ => direction (r.windDirection i)) i

/-- `CRainGauge::GetRainfall`, from the count. -/
def GetRainfall (count : ℕ) : F := u.mul (u.lit count) (u.lit 0.2794)

def raingauge (i : ℕ) : Round F σ → Except Stop (Round F σ) :=
  branch G send "raingauge" .CRainGauge (fun _ => fixedText u 3 (GetRainfall u (r.rainCount i))) i

/-- The branch of the two names read from a `DHT`: the globals are set if the read succeeds and
sent in either case. -/
def temperatureHumidity (i : ℕ) (s : Round F σ) : Except Stop (Round F σ) := do
  let type ← deref G.typesObjects i
  if strcmp type (.lit "temperature") = 0 ∨ strcmp type (.lit "humidity") = 0 then do
    let _ ← (← deref G.objectsSensors i).cast .DHT
    let d := r.dht i
    let s :=
      if d.state ≠ 0 then s else { s with temperatura := d.temperature, humedad := d.humidity }
    let s ← if strcmp type (.lit "temperature") = 0 then
        sendText G send i (fixedText u 1 s.temperatura) s
      else pure s
    if strcmp type (.lit "humidity") = 0 then
      sendText G send i (formatD 0 (u.toInt s.humedad)) s
    else pure s
  else pure s

def soilHumidity (i : ℕ) : Round F σ → Except Stop (Round F σ) :=
  branch G send "soilHumidity" .AnalogIn
    (fun _ => formatD 0 (u.toInt (u.mul (r.analog i) (u.lit 1000)))) i

def aIn (i : ℕ) : Round F σ → Except Stop (Round F σ) :=
  branch G send "aIn" .AnalogIn (fun _ => formatD 0 (r.analog_u16 i : ℕ)) i

def dOut (i : ℕ) : Round F σ → Except Stop (Round F σ) :=
  branch G send "dOut" .DigitalOut (fun object => formatD 0 ((r.levels object.pin).toNat : ℕ)) i

def sonar (i : ℕ) : Round F σ → Except Stop (Round F σ) :=
  branch G send "sonar" .SRF05 (fun _ => fixedText u 3 (r.sonar i)) i

/-- The body of the loop: one `if` after another. -/
def updateSensor (i : ℕ) (s : Round F σ) : Except Stop (Round F σ) := do
  let s ← windspeed u G r send i s
  let s ← winddirection G r send i s
  let s ← raingauge u G r send i s
  let s ← temperatureHumidity u G r send i s
  let s ← soilHumidity u G r send i s
  let s ← aIn G r send i s
  let s ← dOut G r send i s
  sonar u G r send i s

/-- The loop, `k` turns before its end. -/
def updateFrom : ℕ → ℕ → Round F σ → Except Stop (Round F σ)
  | 0, _, s => pure s
  | k + 1, i, s => do updateFrom k (i + 1) (← updateSensor u G r send i s)

def updateSensorData (s : Round F σ) : Except Stop (Round F σ) :=
  updateFrom u G r send G.numSensors 0 s

end

/-- `sendMQTT`: the client is a parameter passed by value, the copy is gone on return. -/
def sendMQTT {H σ : Type} (call : H → MessageData → σ → σ) (client : Client H)
    (topicName : CString) (message : Message) (w : World σ) : World σ :=
  (client.publish call topicName message w).world

/-! ### A round as a list of messages -/

section
variable {F : Type} (u : FloatUnit F) (r : Readings F)

/-- What the sensor at index `i` leaves in the global readings. -/
def refresh (i : ℕ) (s : Sensor) (g : F × F) : F × F :=
  if (s.kind = .temperature ∨ s.kind = .humidity) ∧ (r.dht i).state = 0 then
    ((r.dht i).temperature, (r.dht i).humidity)
  else g

/-- The text the sensor at index `i` publishes, with `g` in the global readings. -/
def sensorText (i : ℕ) (s : Sensor) (g : F × F) : List UInt8 :=
  match s.kind with
  | .windspeed => fixedText u 1 (r.windSpeed i)
  | .winddirection => direction (r.windDirection i)
  | .raingauge => fixedText u 3 (GetRainfall u (r.rainCount i))
  | .temperature => fixedText u 1 g.1
  | .humidity => formatD 0 (u.toInt g.2)
  | .soilHumidity => formatD 0 (u.toInt (u.mul (r.analog i) (u.lit 1000)))
  | .aIn => formatD 0 (r.analog_u16 i : ℕ)
  | .dOut => formatD 0 ((r.levels s.object.pin).toNat : ℕ)
  | .sonar => fixedText u 3 (r.sonar i)

/-- The topics and texts of the sensors from index `i` on. -/
def roundTexts : ℕ → List Sensor → F × F → List (CString × List UInt8)
  | _, [], _ => []
  | i, s :: ss, g =>
      let g := refresh r i s g
      (s.topic, sensorText u r i s g) :: roundTexts (i + 1) ss g

/-- The global readings after the sensors from index `i` on. -/
def roundGlobals : ℕ → List Sensor → F × F → F × F
  | _, [], g => g
  | i, s :: ss, g => roundGlobals (i + 1) ss (refresh r i s g)

theorem roundTexts_length : ∀ (i : ℕ) (ss : List Sensor) (g : F × F),
    (roundTexts u r i ss g).length = ss.length
  | _, [], _ => rfl
  | i, s :: ss, g => by simp [roundTexts, roundTexts_length (i + 1) ss]

theorem roundTexts_topics : ∀ (i : ℕ) (ss : List Sensor) (g : F × F),
    (roundTexts u r i ss g).map (·.1) = ss.map (·.topic)
  | _, [], _ => rfl
  | i, s :: ss, g => by simp [roundTexts, roundTexts_topics (i + 1) ss]

end

/-! ### The loop sends that list -/

section
variable {F σ : Type} {u : FloatUnit F} {G : Globals} {r : Readings F}
  {send : CString → Message → σ → σ}

/-- The entries at one index are those of one sensor. -/
structure EntryOf (G : Globals) (i : ℕ) (s : Sensor) : Prop where
  type : deref G.typesObjects i = .ok s.kind.name
  topic : deref G.topicsMQTT i = .ok s.topic
  object : deref G.objectsSensors i = .ok s.object

theorem deref_map {α : Type} (f : Sensor → α) {ss : List Sensor} {i : ℕ} {s : Sensor}
    (h : ss[i]? = some s) : deref (ss.map fun s => some (f s)) i = .ok (f s) := by
  simp [deref, h]

theorem Aligned.entry {ss : List Sensor} (h : Aligned G ss) {i : ℕ} {s : Sensor}
    (hi : ss[i]? = some s) : EntryOf G i s := by
  refine ⟨?_, ?_, ?_⟩
  · rw [h.typesObjects]; exact deref_map (·.kind.name) hi
  · rw [h.topicsMQTT]; exact deref_map (·.topic) hi
  · rw [h.objectsSensors]; exact deref_map (·.object) hi

/-- The entries from an index on are those of one sensor, and of the others from the next on. -/
theorem entries_cons {i : ℕ} {s : Sensor} {ss : List Sensor}
    (h : ∀ j s', (s :: ss)[j]? = some s' → EntryOf G (i + j) s') :
    EntryOf G i s ∧ ∀ j s', ss[j]? = some s' → EntryOf G (i + 1 + j) s' := by
  refine ⟨h 0 s rfl, fun j s' hj => ?_⟩
  have := h (j + 1) s' (by simpa using hj)
  rwa [show i + (j + 1) = i + 1 + j by omega] at this

/-- Comparing the stored type with a literal picks out one kind. -/
theorem strcmp_kind {k j : SensorKind} (name : String) (hname : j.name = .lit name) :
    strcmp k.name (.lit name) = 0 ↔ k = j := by
  rw [← hname, SensorKind.strcmp_name]

/-- A branch sends the text of a sensor of its own kind and passes over any other. -/
theorem branch_eq (send : CString → Message → σ → σ) {i : ℕ} {s : Sensor} (h : EntryOf G i s)
    (k : SensorKind) (name : String) (hname : k.name = .lit name) {c : SensorClass} (hc : k.cls = c)
    (text : SensorObject → List UInt8) (t : Round F σ) :
    branch G send name c text i t =
      .ok (if s.kind = k then { t with out := send s.topic (messageOf (text s.object)) t.out }
        else t) := by
  simp only [branch, h.type, ok_bind, strcmp_kind name hname]
  by_cases hk : s.kind = k
  · have hcast : s.object.cast c = .ok s.object :=
      SensorObject.cast_eq_ok.mpr ⟨by rw [s.fits, hk, hc], rfl⟩
    simp only [if_pos hk, h.object, ok_bind, hcast, sendText, h.topic, pure, Except.pure]
  · simp only [if_neg hk, pure, Except.pure]

/-- The branch of the two kinds read from a `DHT` refreshes the globals and sends one of them. -/
theorem temperatureHumidity_eq {i : ℕ} {s : Sensor} (h : EntryOf G i s) (t : Round F σ) :
    temperatureHumidity u G r send i t =
      .ok (if s.kind = .temperature ∨ s.kind = .humidity then
          let g := refresh r i s (t.temperatura, t.humedad)
          ⟨g.1, g.2, send s.topic (messageOf (sensorText u r i s g)) t.out⟩
        else t) := by
  have ht := strcmp_kind (k := s.kind) (j := .temperature) "temperature" rfl
  have hh := strcmp_kind (k := s.kind) (j := .humidity) "humidity" rfl
  simp only [temperatureHumidity, h.type, ok_bind, ht, hh]
  by_cases hk : s.kind = .temperature ∨ s.kind = .humidity
  · have hcast : s.object.cast .DHT = .ok s.object := by
      refine SensorObject.cast_eq_ok.mpr ⟨?_, rfl⟩
      rcases hk with hk | hk <;> rw [s.fits, hk] <;> rfl
    simp only [h.object, ok_bind, hcast, refresh, hk, if_true, true_and]
    by_cases hs : (r.dht i).state = 0 <;> rcases hk with hk | hk <;>
      simp [hs, hk, sendText, h.topic, sensorText, pure, Except.pure]
  · simp only [if_neg hk, pure, Except.pure]

/-- One turn of the loop sends one message, on the topic of the sensor at its index. -/
theorem updateSensor_eq {i : ℕ} {s : Sensor} (h : EntryOf G i s) (t : Round F σ) :
    updateSensor u G r send i t =
      .ok ⟨(refresh r i s (t.temperatura, t.humedad)).1,
        (refresh r i s (t.temperatura, t.humedad)).2,
        send s.topic (messageOf (sensorText u r i s (refresh r i s (t.temperatura, t.humedad))))
          t.out⟩ := by
  have h₁ := branch_eq (F := F) send h .windspeed "windspeed" rfl (c := .CAnemometer) rfl
  have h₂ := branch_eq (F := F) send h .winddirection "winddirection" rfl
    (c := .CWindVane) rfl
  have h₃ := branch_eq (F := F) send h .raingauge "raingauge" rfl (c := .CRainGauge) rfl
  have h₅ := branch_eq (F := F) send h .soilHumidity "soilHumidity" rfl
    (c := .AnalogIn) rfl
  have h₆ := branch_eq (F := F) send h .aIn "aIn" rfl (c := .AnalogIn) rfl
  have h₇ := branch_eq (F := F) send h .dOut "dOut" rfl (c := .DigitalOut) rfl
  have h₈ := branch_eq (F := F) send h .sonar "sonar" rfl (c := .SRF05) rfl
  cases hk : s.kind <;>
    simp only [updateSensor, windspeed, winddirection, raingauge, soilHumidity, aIn, dOut, sonar,
      h₁, h₂, h₃, temperatureHumidity_eq h, h₅, h₆, h₇, h₈, ok_bind, hk, reduceCtorEq, if_true,
      if_false, or_self, or_true, true_or, false_and, refresh, sensorText]

/-- Sending a list of topics and texts, one after another. -/
def sendAll (send : CString → Message → σ → σ) (texts : List (CString × List UInt8)) (a : σ) : σ :=
  texts.foldl (fun a m => send m.1 (messageOf m.2) a) a

theorem updateFrom_eq : ∀ (ss : List Sensor) (i : ℕ) (t : Round F σ),
    (∀ j s, ss[j]? = some s → EntryOf G (i + j) s) →
    updateFrom u G r send ss.length i t =
      .ok ⟨(roundGlobals r i ss (t.temperatura, t.humedad)).1,
        (roundGlobals r i ss (t.temperatura, t.humedad)).2,
        sendAll send (roundTexts u r i ss (t.temperatura, t.humedad)) t.out⟩
  | [], _, _, _ => rfl
  | s :: ss, i, t, h => by
      obtain ⟨h0, hs⟩ := entries_cons h
      simp only [List.length_cons, updateFrom, updateSensor_eq h0, ok_bind,
        updateFrom_eq ss (i + 1) _ hs, roundGlobals, roundTexts, sendAll, List.foldl_cons]

/-- On the tables of `ss` a round comes to its end, and has sent one message for each sensor, in
the order of the tables. -/
theorem updateSensorData_eq {ss : List Sensor} (h : Aligned G ss) (t : Round F σ) :
    updateSensorData u G r send t =
      .ok ⟨(roundGlobals r 0 ss (t.temperatura, t.humedad)).1,
        (roundGlobals r 0 ss (t.temperatura, t.humedad)).2,
        sendAll send (roundTexts u r 0 ss (t.temperatura, t.humedad)) t.out⟩ := by
  rw [updateSensorData, h.numSensors]
  exact updateFrom_eq ss 0 t fun j s hj => by simpa using h.entry hj

end

/-! ### The texts hold no NUL -/

theorem nul_notMem_fixedText {F : Type} (u : FloatUnit F) (w : ℕ) (x : F) :
    (0 : UInt8) ∉ fixedText u w x := by
  have hdot : (0 : UInt8) ∉ ascii "." := by decide
  unfold fixedText
  simp only [List.mem_append, not_or]
  exact ⟨⟨nul_notMem_formatD _ _, hdot⟩, nul_notMem_formatD _ _⟩

theorem nul_notMem_direction (i : Fin 16) : (0 : UInt8) ∉ direction i := by
  fin_cases i <;> decide

theorem nul_notMem_sensorText {F : Type} (u : FloatUnit F) (r : Readings F) (i : ℕ) (s : Sensor)
    (g : F × F) : (0 : UInt8) ∉ sensorText u r i s g := by
  unfold sensorText
  split <;> first
    | exact nul_notMem_fixedText _ _ _
    | exact nul_notMem_direction _
    | exact nul_notMem_formatD _ _

theorem nul_notMem_roundTexts {F : Type} (u : FloatUnit F) (r : Readings F) :
    ∀ (i : ℕ) (ss : List Sensor) (g : F × F), ∀ m ∈ roundTexts u r i ss g, (0 : UInt8) ∉ m.2
  | _, [], _, m, hm => by simp [roundTexts] at hm
  | i, s :: ss, g, m, hm => by
      rcases List.mem_cons.mp hm with rfl | hm
      · exact nul_notMem_sensorText _ _ _ _ _
      · exact nul_notMem_roundTexts u r (i + 1) ss _ m hm

theorem messageOf_payloadlen {text : List UInt8} (h : (0 : UInt8) ∉ text) :
    (messageOf text).payloadlen = (text ++ [0]).length := by
  have : strlen (.ofMem text) = text.length := by rw [strlen, CString.ofMem_bytes h]
  simp [messageOf, this]

end RemotusHardware
