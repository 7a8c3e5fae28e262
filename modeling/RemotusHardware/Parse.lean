import RemotusHardware.PicoJson

/-! # Reading the configuration

`parse()` of `main.cpp`, from the JSON value on that `picojson::parse` has stored: the list of
sensors is taken out of it, the connection data are checked and copied, and a loop over the
list fills three parallel arrays with a counter that is advanced by hand.  `Globals` is what
it leaves in the global variables.

The second half states what the arrays hold.  A `Sensor` is an accepted element: its kind, its
topic and an object whose class is the one of the kind.  `parse_ok` says that after a normal
return the arrays are, entry by entry, those of a list of sensors as long as `configSensors`;
every later function is proved about that list. -/

namespace RemotusHardware

open CLib

/-! ### The checks -/

/-- A disjunction, evaluated from the left up to the first disjunct that is true. -/
def anyOf : List (Except Stop Bool) → Except Stop Bool
  | [] => pure false
  | c :: cs => do
      let b ← c
      if b then pure true else anyOf cs

/-- `v.get(key).get<string>().size()==0` -/
def isEmpty (v : Value) (key : String) : Except Stop Bool := do
  let s ← (← v.get key).getString
  pure (s.length = 0)

/-- `(int)v.get(key).get<double>()==0` -/
def isZero (v : Value) (key : String) : Except Stop Bool := do
  let n ← (← (← v.get key).getDouble).toInt
  pure (n = 0)

/-- `v.get(key) == NULL`: the constructors of `value` being explicit, the comparison is the
built-in one, after `operator bool`. -/
def isNULL (v : Value) (key : String) : Except Stop Bool := do
  pure (!(← v.get key).toBool)

def serverChecks (v : Value) : List (Except Stop Bool) :=
  [isEmpty v "server", isNULL v "server", isZero v "port", isNULL v "port",
    isEmpty v "user", isNULL v "user", isEmpty v "pass", isNULL v "pass"]

def sensorChecks (e : Value) : List (Except Stop Bool) :=
  [isEmpty e "sensor", isEmpty e "topic", isZero e "pin",
    isNULL e "sensor", isNULL e "topic", isNULL e "pin"]

/-! ### The loop over the sensors -/

/-- `strcpy` of `src.c_str()` into an array of `capacity` bytes. -/
def strcpy (capacity : ℕ) (src : List UInt8) : Except Stop CString :=
  if strlen (.ofMem src) < capacity then .ok (.ofMem src) else undefined .bufferOverflow

/-- The three arrays while they are filled; `cont` is the next index. -/
structure Tables where
  cont : ℕ
  topicsMQTT : List (Option CString)
  typesObjects : List (Option CString)
  objectsSensors : List (Option SensorObject)

/-- `calloc` of the three arrays. -/
def Tables.calloc (numSensors : ℕ) : Tables where
  cont := 0
  topicsMQTT := List.replicate numSensors none
  typesObjects := List.replicate numSensors none
  objectsSensors := List.replicate numSensors none

/-- The nine branches on the sensor's name, as far as they differ: the object built. -/
def construct (sensor : CString) (p : ℤ) (e : Value) : Except Stop SensorObject :=
  if strcmp sensor (.lit "windspeed") = 0 then do
    pure (.CAnemometer (← pinAt p))
  else if strcmp sensor (.lit "winddirection") = 0 then do
    pure (.CWindVane (← pinAt p) 220)
  else if strcmp sensor (.lit "raingauge") = 0 then do
    pure (.CRainGauge (← pinAt p))
  else if strcmp sensor (.lit "temperature") = 0 then do
    pure (.DHT (← pinAt p) 22)
  else if strcmp sensor (.lit "humidity") = 0 then do
    pure (.DHT (← pinAt p) 22)
  else if strcmp sensor (.lit "soilHumidity") = 0 then do
    pure (.AnalogIn (← pinAt p))
  else if strcmp sensor (.lit "aIn") = 0 then do
    pure (.AnalogIn (← pinAt p))
  else if strcmp sensor (.lit "dOut") = 0 then do
    pure (.DigitalOut (← pinAt p))
  else if strcmp sensor (.lit "sonar") = 0 then do
    let pAux ← (← (← e.get "pin2").getDouble).toInt
    pure (.SRF05 (← pinAt p) (← pinAt pAux))
  else errorConfig 5

/-- One turn of the loop. -/
def parseSensor (e : Value) (t : Tables) : Except Stop Tables := do
  let bad ← anyOf (sensorChecks e)
  if bad then errorConfig 4 else do
    let sensor := CString.ofMem (← (← e.get "sensor").getString)
    let sChar := CString.ofMem (← (← e.get "topic").getString)
    let p ← (← (← e.get "pin").getDouble).toInt
    let object ← construct sensor p e
    pure
      { cont := t.cont + 1
        topicsMQTT := t.topicsMQTT.set t.cont (some sChar)
        typesObjects := t.typesObjects.set t.cont (some sensor)
        objectsSensors := t.objectsSensors.set t.cont (some object) }

def parseSensors : List Value → Tables → Except Stop Tables
  | [], t => pure t
  | e :: es, t => do parseSensors es (← parseSensor e t)

/-- The global variables `parse` sets. -/
structure Globals where
  numSensors : ℕ
  server : CString
  port : ℤ
  user : CString
  pass : CString
  topicsMQTT : List (Option CString)
  typesObjects : List (Option CString)
  objectsSensors : List (Option SensorObject)

/-- `parse()`, the text having passed the syntax check with the value `v`. -/
def parse (v : Value) : Except Stop Globals := do
  let list ← (← v.get "configSensors").getArray
  let numSensors := list.length
  let bad ← anyOf (serverChecks v)
  if bad then errorConfig 3 else do
    let server ← strcpy 20 (← (← v.get "server").getString)
    let port ← (← (← v.get "port").getDouble).toInt
    let user ← strcpy 20 (← (← v.get "user").getString)
    let pass ← strcpy 20 (← (← v.get "pass").getString)
    let t ← parseSensors list (.calloc numSensors)
    pure
      { numSensors := if t.cont ≠ numSensors then t.cont else numSensors
        server := server
        port := port
        user := user
        pass := pass
        topicsMQTT := t.topicsMQTT
        typesObjects := t.typesObjects
        objectsSensors := t.objectsSensors }

/-! ### Kinds of sensors -/

/-- The nine names `parse` knows. -/
inductive SensorKind where
  | windspeed | winddirection | raingauge | temperature | humidity | soilHumidity | aIn | dOut
  | sonar
deriving DecidableEq, Repr

namespace SensorKind

def all : List SensorKind :=
  [windspeed, winddirection, raingauge, temperature, humidity, soilHumidity, aIn, dOut, sonar]

def name : SensorKind → CString
  | windspeed => .lit "windspeed"
  | winddirection => .lit "winddirection"
  | raingauge => .lit "raingauge"
  | temperature => .lit "temperature"
  | humidity => .lit "humidity"
  | soilHumidity => .lit "soilHumidity"
  | aIn => .lit "aIn"
  | dOut => .lit "dOut"
  | sonar => .lit "sonar"

/-- The class of the object that reads a sensor of this kind. -/
def cls : SensorKind → SensorClass
  | windspeed => .CAnemometer
  | winddirection => .CWindVane
  | raingauge => .CRainGauge
  | temperature => .DHT
  | humidity => .DHT
  | soilHumidity => .AnalogIn
  | aIn => .AnalogIn
  | dOut => .DigitalOut
  | sonar => .SRF05

theorem name_injective : Function.Injective name := by
  intro j k
  cases j <;> cases k <;> decide

@[simp] theorem name_inj {j k : SensorKind} : j.name = k.name ↔ j = k := name_injective.eq_iff

/-- Comparing the stored name with a literal picks out one kind. -/
@[simp] theorem strcmp_name {j k : SensorKind} : strcmp j.name k.name = 0 ↔ j = k := by
  rw [strcmp_eq_zero_iff, name_inj]

end SensorKind

/-- The kind a name stands for. -/
def kindOf (sensor : CString) : Option SensorKind := SensorKind.all.find? fun k => k.name = sensor

theorem kindOf_name (k : SensorKind) : kindOf k.name = some k := by cases k <;> decide

theorem kindOf_eq_some {sensor : CString} {k : SensorKind} (h : kindOf sensor = some k) :
    sensor = k.name := by
  have := List.find?_some h
  simpa [eq_comm] using this

/-- The object built for an element of a known kind. -/
def build (k : SensorKind) (p : ℤ) (e : Value) : Except Stop SensorObject :=
  match k with
  | .windspeed => do pure (.CAnemometer (← pinAt p))
  | .winddirection => do pure (.CWindVane (← pinAt p) 220)
  | .raingauge => do pure (.CRainGauge (← pinAt p))
  | .temperature => do pure (.DHT (← pinAt p) 22)
  | .humidity => do pure (.DHT (← pinAt p) 22)
  | .soilHumidity => do pure (.AnalogIn (← pinAt p))
  | .aIn => do pure (.AnalogIn (← pinAt p))
  | .dOut => do pure (.DigitalOut (← pinAt p))
  | .sonar => do
      let pAux ← (← (← e.get "pin2").getDouble).toInt
      pure (.SRF05 (← pinAt p) (← pinAt pAux))

theorem construct_name (k : SensorKind) (p : ℤ) (e : Value) :
    construct k.name p e = build k p e := by
  have hcmp (l : SensorKind) : (strcmp k.name l.name = 0) = (k = l) := by simp
  unfold construct
  change (if strcmp k.name SensorKind.windspeed.name = 0 then _
    else if strcmp k.name SensorKind.winddirection.name = 0 then _
    else if strcmp k.name SensorKind.raingauge.name = 0 then _
    else if strcmp k.name SensorKind.temperature.name = 0 then _
    else if strcmp k.name SensorKind.humidity.name = 0 then _
    else if strcmp k.name SensorKind.soilHumidity.name = 0 then _
    else if strcmp k.name SensorKind.aIn.name = 0 then _
    else if strcmp k.name SensorKind.dOut.name = 0 then _
    else if strcmp k.name SensorKind.sonar.name = 0 then _ else _) = _
  simp only [hcmp]
  cases k <;> rfl

theorem construct_unknown {sensor : CString} (h : kindOf sensor = none) (p : ℤ) (e : Value) :
    construct sensor p e = errorConfig 5 := by
  have hne (k : SensorKind) : ¬ strcmp sensor k.name = 0 := by
    rw [strcmp_eq_zero_iff]
    rintro rfl
    rw [kindOf_name] at h
    cases h
  have h₁ : ¬ strcmp sensor (.lit "windspeed") = 0 := hne .windspeed
  have h₂ : ¬ strcmp sensor (.lit "winddirection") = 0 := hne .winddirection
  have h₃ : ¬ strcmp sensor (.lit "raingauge") = 0 := hne .raingauge
  have h₄ : ¬ strcmp sensor (.lit "temperature") = 0 := hne .temperature
  have h₅ : ¬ strcmp sensor (.lit "humidity") = 0 := hne .humidity
  have h₆ : ¬ strcmp sensor (.lit "soilHumidity") = 0 := hne .soilHumidity
  have h₇ : ¬ strcmp sensor (.lit "aIn") = 0 := hne .aIn
  have h₈ : ¬ strcmp sensor (.lit "dOut") = 0 := hne .dOut
  have h₉ : ¬ strcmp sensor (.lit "sonar") = 0 := hne .sonar
  simp only [construct, h₁, h₂, h₃, h₄, h₅, h₆, h₇, h₈, h₉, if_false]

/-- An object that is built has the class its sensor is later read as. -/
theorem build_cls {k : SensorKind} {p : ℤ} {e : Value} {o : SensorObject}
    (h : build k p e = .ok o) : o.cls = k.cls := by
  cases k with
  | sonar =>
      obtain ⟨v, -, h⟩ := bind_eq_ok.mp h
      obtain ⟨x, -, h⟩ := bind_eq_ok.mp h
      obtain ⟨n, -, h⟩ := bind_eq_ok.mp h
      obtain ⟨a, -, h⟩ := bind_eq_ok.mp h
      obtain ⟨b, -, h⟩ := bind_eq_ok.mp h
      cases h
      rfl
  | _ =>
      obtain ⟨a, -, h⟩ := bind_eq_ok.mp h
      cases h
      rfl

end RemotusHardware
