import RemotusHardware.Serialize
import RemotusHardware.Validation

/-! # Configurations as files

A `Configuration` is what a user means to configure: a server, a port, the account, and a list of
sensors, each with its kind, its topic and its pins.  `toValue` is the JSON value that says so and
`globals` what the program is to work with.  Written as JSON and read from the file, the first
becomes the second (`readConfig_serialize`), whatever the strings hold, provided only that
`strtod` reads the integers an `int` holds exactly. -/

namespace RemotusHardware

open CLib Scanner Picojson

/-! ### What is configured -/

/-- The pin of the number `p`, counted from 1. -/
def pinOf (p : ℕ) : PinName := pines.getD (p - 1) .zero

/-- A sensor; `pin2` is the second pin of a sonar. -/
structure SensorConfig where
  kind : SensorKind
  topic : CString
  pin : ℕ
  pin2 : ℕ
  topic_ne : topic.bytes ≠ []
  pin_range : 1 ≤ pin ∧ pin ≤ 35
  pin2_range : kind = .sonar → 1 ≤ pin2 ∧ pin2 ≤ 35

namespace SensorConfig

def toValue (s : SensorConfig) : Value :=
  .object ((ascii "pin", .number (.finite s.pin)) ::
    ((if s.kind = .sonar then [(ascii "pin2", .number (.finite s.pin2))] else []) ++
      [(ascii "sensor", .string s.kind.name.bytes), (ascii "topic", .string s.topic.bytes)]))

def object (s : SensorConfig) : SensorObject :=
  match s.kind with
  | .windspeed => .CAnemometer (pinOf s.pin)
  | .winddirection => .CWindVane (pinOf s.pin) 220
  | .raingauge => .CRainGauge (pinOf s.pin)
  | .temperature => .DHT (pinOf s.pin) 22
  | .humidity => .DHT (pinOf s.pin) 22
  | .soilHumidity => .AnalogIn (pinOf s.pin)
  | .aIn => .AnalogIn (pinOf s.pin)
  | .dOut => .DigitalOut (pinOf s.pin)
  | .sonar => .SRF05 (pinOf s.pin) (pinOf s.pin2)

theorem object_cls (s : SensorConfig) : s.object.cls = s.kind.cls := by
  unfold object
  cases s.kind <;> rfl

def sensor (s : SensorConfig) : Sensor := ⟨s.kind, s.topic, s.object, s.object_cls⟩

end SensorConfig

structure Configuration where
  server : CString
  port : ℤ
  user : CString
  pass : CString
  sensors : List SensorConfig
  server_fits : server.bytes ≠ [] ∧ strlen server < 20
  port_fits : port ≠ 0 ∧ FitsInt port
  user_fits : user.bytes ≠ [] ∧ strlen user < 20
  pass_fits : pass.bytes ≠ [] ∧ strlen pass < 20

namespace Configuration

def toValue (c : Configuration) : Value :=
  .object [(ascii "configSensors", .array (c.sensors.map SensorConfig.toValue)),
    (ascii "pass", .string c.pass.bytes), (ascii "port", .number (.finite c.port)),
    (ascii "server", .string c.server.bytes), (ascii "user", .string c.user.bytes)]

/-- The global variables of a program so configured. -/
def globals (c : Configuration) : Globals where
  numSensors := c.sensors.length
  server := c.server
  port := c.port
  user := c.user
  pass := c.pass
  topicsMQTT := c.sensors.map fun s => some s.topic
  typesObjects := c.sensors.map fun s => some s.kind.name
  objectsSensors := c.sensors.map fun s => some s.object

end Configuration

/-! ### The value is printable -/

section
variable {round : ℚ → Double}

/-- An integer is printed and read back as itself. -/
theorem printable_int {z : ℤ} (hz : FitsInt z) (hround : round z = .finite z) :
    Printable round (.number (.finite z)) := by
  have hden : ((z : ℚ)).den = 1 := Rat.den_intCast z
  refine .number ?_ ?_
  · rw [printed, if_pos hden, hround]
  · have hlen : (decimal z.natAbs).length ≤ 10 := by
      apply decimal_length_le (by norm_num)
      have := hz.1
      have := hz.2
      omega
    have hsign : (if (z : ℚ) < 0 then [45] else [] : List UInt8).length ≤ 1 := by split <;> simp
    simp only [numberText, hden, if_true, List.length_append, Rat.num_intCast]
    rw [formatD_length]
    omega

theorem sensor_printable (hround : ∀ z : ℤ, FitsInt z → round z = .finite z) (s : SensorConfig) :
    Printable round s.toValue := by
  have hfits {n : ℕ} (h : n ≤ 35) : FitsInt n := ⟨by omega, by omega⟩
  have hpin : Printable round (.number (.finite s.pin)) := by
    have := printable_int (hfits s.pin_range.2) (hround s.pin (hfits s.pin_range.2))
    simpa using this
  unfold SensorConfig.toValue
  by_cases hk : s.kind = .sonar
  · have hpin2 : Printable round (.number (.finite s.pin2)) := by
      have := printable_int (hfits (s.pin2_range hk).2) (hround s.pin2 (hfits (s.pin2_range hk).2))
      simpa using this
    rw [if_pos hk]
    refine .object (SortedMap.sorted_iff_keys.mpr ?_) ?_
    · simp only [List.map_cons, List.map_append, List.map_nil]
      decide
    · simpa using ⟨hpin, hpin2, .string _, .string _⟩
  · rw [if_neg hk]
    refine .object (SortedMap.sorted_iff_keys.mpr ?_) ?_
    · simp only [List.map_cons, List.map_append, List.map_nil]
      decide
    · simpa using ⟨hpin, .string _, .string _⟩

theorem configuration_printable (hround : ∀ z : ℤ, FitsInt z → round z = .finite z)
    (c : Configuration) : Printable round c.toValue := by
  refine .object (SortedMap.sorted_iff_keys.mpr ?_) ?_
  · simp only [List.map_cons, List.map_nil]
    decide
  · have hport := printable_int c.port_fits.2 (hround c.port c.port_fits.2)
    have hsensors : Printable round (.array (c.sensors.map SensorConfig.toValue)) := by
      refine .array fun v hv => ?_
      obtain ⟨s, -, rfl⟩ := List.mem_map.mp hv
      exact sensor_printable hround s
    simpa using ⟨hsensors, .string _, hport, .string _, .string _⟩

end

/-! ### The value is read -/

section
variable (s : SensorConfig)

theorem SensorConfig.isObject : s.toValue.isObject = true := rfl

theorem SensorConfig.field_sensor : s.toValue.field "sensor" = .string s.kind.name.bytes := by
  unfold toValue
  split <;> rfl

theorem SensorConfig.field_topic : s.toValue.field "topic" = .string s.topic.bytes := by
  unfold toValue
  split <;> rfl

theorem SensorConfig.field_pin : s.toValue.field "pin" = .number (.finite s.pin) := by
  unfold toValue
  split <;> rfl

theorem SensorConfig.field_pin2 (h : s.kind = .sonar) :
    s.toValue.field "pin2" = .number (.finite s.pin2) := by
  unfold toValue
  rw [if_pos h]
  rfl

theorem toInt_natCast {n : ℕ} (h : n ≤ 35) : (Double.finite n).toInt = .ok n := by
  have htrunc : trunc n = n := by simp [trunc]
  have hfits : FitsInt n := ⟨by omega, by omega⟩
  rw [Double.toInt, htrunc, if_pos hfits]

theorem pinAt_natCast {n : ℕ} (h : 1 ≤ n ∧ n ≤ 35) : pinAt n = .ok (pinOf n) := by
  rw [pinAt, if_pos (by omega), pinOf]
  congr 2
  omega

theorem build_sensor : build s.kind s.pin s.toValue = .ok s.object := by
  have hpin := pinAt_natCast s.pin_range
  cases hk : s.kind with
  | sonar =>
      have hpin2 := s.pin2_range hk
      rw [build, get_of_isObject s.isObject, ok_bind, s.field_pin2 hk, Value.getDouble, ok_bind,
        toInt_natCast hpin2.2, ok_bind, hpin, ok_bind, pinAt_natCast hpin2, ok_bind,
        SensorConfig.object, hk]
      rfl
  | _ =>
      rw [build, hpin, ok_bind, SensorConfig.object, hk]
      rfl

theorem sensorChecks_toValue : anyOf (sensorChecks s.toValue) = .ok false := by
  have hkind : s.kind.name.bytes ≠ [] := by cases s.kind <;> decide
  have hpin : s.pin ≠ 0 := by
    have := s.pin_range
    omega
  have hsensor : (s.toValue.field "sensor").IsText := ⟨_, s.field_sensor, hkind⟩
  have htopic : (s.toValue.field "topic").IsText := ⟨_, s.field_topic, s.topic_ne⟩
  have hnonzero : (s.toValue.field "pin").IsNonzero :=
    ⟨_, s.field_pin, by simpa [Double.Nonzero, trunc] using hpin⟩
  have hread : ElementThen s.toValue True :=
    ⟨_, s.field_sensor, fun _ => ⟨_, s.field_topic, fun _ =>
      ⟨_, _, s.field_pin, toInt_natCast s.pin_range.2, fun _ => trivial⟩⟩⟩
  rcases element_outcome s.isObject with ⟨-, h, -⟩ | ⟨h, -, -⟩ | ⟨-, h⟩
  · exact h
  · exact absurd ⟨hsensor, htopic, hnonzero⟩ h
  · exact absurd hread (h True)

/-- An element that passes the checks is stored with the object built for it. -/
theorem parseSensor_of_fields {e : Value} (he : e.isObject = true)
    (hcheck : anyOf (sensorChecks e) = .ok false) {s : Sensor} {x : Double} {p : ℤ}
    (hsensor : e.field "sensor" = .string s.kind.name.bytes)
    (htopic : e.field "topic" = .string s.topic.bytes) (hx : e.field "pin" = .number x)
    (hp : x.toInt = .ok p) (ho : build s.kind p e = .ok s.object) (t : Tables) :
    parseSensor e t = .ok (t.store s) := by
  simp only [parseSensor, hcheck, ok_bind, Bool.false_eq_true, if_false, get_of_isObject he,
    hsensor, htopic, hx, Value.getString, Value.getDouble, hp, CString.ofMem_bytes_self,
    construct_name, ho]
  rfl

/-- A turn of the loop stores the sensor that is meant. -/
theorem parseSensor_toValue (t : Tables) : parseSensor s.toValue t = .ok (t.store s.sensor) :=
  parseSensor_of_fields s.isObject (sensorChecks_toValue s) s.field_sensor s.field_topic s.field_pin
    (toInt_natCast s.pin_range.2) (build_sensor s) t

end

theorem parseSensors_toValue : ∀ (ss : List SensorConfig) (t : Tables),
    parseSensors (ss.map SensorConfig.toValue) t =
      .ok ((ss.map SensorConfig.sensor).foldl Tables.store t)
  | [], _ => rfl
  | s :: ss, t => by
      rw [List.map_cons, parseSensors, parseSensor_toValue, ok_bind, parseSensors_toValue ss]
      rfl

/-- The tables after a list of sensors has been stored. -/
theorem filled_foldl (n : ℕ) : ∀ (new sensors : List Sensor) (t : Tables), Filled n t sensors →
    sensors.length + new.length ≤ n → Filled n (new.foldl Tables.store t) (sensors ++ new)
  | [], sensors, t, h, _ => by simpa using h
  | s :: new, sensors, t, h, hn => by
      rw [List.length_cons] at hn
      have := filled_foldl n new (sensors ++ [s]) (t.store s) (h.store (by omega) s)
        (by simp; omega)
      simpa using this

section
variable (c : Configuration)

theorem Configuration.isObject : c.toValue.isObject = true := rfl

theorem toInt_port : (Double.finite c.port).toInt = .ok c.port := by
  have htrunc : trunc c.port = c.port := by simp [trunc]
  rw [Double.toInt, htrunc, if_pos c.port_fits.2]

theorem serverChecks_toValue : anyOf (serverChecks c.toValue) = .ok false := by
  have hserver : (c.toValue.field "server").IsText := ⟨_, rfl, c.server_fits.1⟩
  have huser : (c.toValue.field "user").IsText := ⟨_, rfl, c.user_fits.1⟩
  have hpass : (c.toValue.field "pass").IsText := ⟨_, rfl, c.pass_fits.1⟩
  have hport : (c.toValue.field "port").IsNonzero :=
    ⟨_, rfl, by simpa [Double.Nonzero, trunc] using c.port_fits.1⟩
  have hread : ServerThen c.toValue True :=
    ⟨_, rfl, fun _ => ⟨_, _, rfl, toInt_port c, fun _ =>
      ⟨_, rfl, fun _ => ⟨_, rfl, fun _ => trivial⟩⟩⟩⟩
  rcases server_outcome c.isObject with ⟨-, h, -⟩ | ⟨h, -, -⟩ | ⟨-, h⟩
  · exact h
  · exact absurd ⟨hserver, hport, huser, hpass⟩ h
  · exact absurd hread (h True)

theorem strcpy_bytes {s : CString} (h : strlen s < 20) : strcpy 20 s.bytes = .ok s := by
  rw [strcpy, CString.ofMem_bytes_self, if_pos h]

theorem parse_of_fields {v : Value} (hv : v.isObject = true)
    (hcheck : anyOf (serverChecks v) = .ok false) {list : List Value} {server user pass : CString}
    {x : Double} {port : ℤ} {t : Tables} (hlist : v.field "configSensors" = .array list)
    (hserver : v.field "server" = .string server.bytes) (hx : v.field "port" = .number x)
    (huser : v.field "user" = .string user.bytes) (hpass : v.field "pass" = .string pass.bytes)
    (hport : x.toInt = .ok port) (hfits : strlen server < 20 ∧ strlen user < 20 ∧ strlen pass < 20)
    (ht : parseSensors list (.calloc list.length) = .ok t) (hcont : t.cont = list.length) :
    parse v = .ok ⟨list.length, server, port, user, pass, t.topicsMQTT, t.typesObjects,
      t.objectsSensors⟩ := by
  simp only [parse, get_of_isObject hv, ok_bind, hlist, Value.getArray, hcheck, Bool.false_eq_true,
    if_false, hserver, hx, huser, hpass, Value.getString, Value.getDouble, hport,
    strcpy_bytes hfits.1, strcpy_bytes hfits.2.1, strcpy_bytes hfits.2.2, ht, hcont, ne_eq,
    not_true_eq_false]
  rfl

theorem parse_toValue : parse c.toValue = .ok c.globals := by
  have hlen : (c.sensors.map SensorConfig.toValue).length = c.sensors.length := List.length_map _
  have ht := parseSensors_toValue c.sensors (.calloc (c.sensors.map SensorConfig.toValue).length)
  have hfilled := filled_foldl c.sensors.length (c.sensors.map SensorConfig.sensor) []
    (.calloc c.sensors.length) (filled_calloc _) (by simp)
  rw [List.nil_append, ← hlen] at hfilled
  generalize (c.sensors.map SensorConfig.sensor).foldl Tables.store
    (.calloc (c.sensors.map SensorConfig.toValue).length) = t at ht hfilled
  have hcont : t.cont = (c.sensors.map SensorConfig.toValue).length := by
    rw [hfilled.cont, List.length_map, hlen]
  rw [parse_of_fields c.isObject (serverChecks_toValue c) rfl rfl rfl rfl rfl (toInt_port c)
    ⟨c.server_fits.2, c.user_fits.2, c.pass_fits.2⟩ ht hcont, hfilled.topicsMQTT,
    hfilled.typesObjects, hfilled.objectsSensors]
  simp [Configuration.globals, SensorConfig.sensor]

end

/-- A configuration written as JSON is read from the file as it is meant, with or without white
space behind it. -/
theorem readConfig_serialize {round : ℚ → Double}
    (hround : ∀ z : ℤ, FitsInt z → round z = .finite z) (c : Configuration) {rest : List UInt8}
    (hrest : Blank rest) :
    readConfig round (some (serialize c.toValue ++ rest)) = .ok c.globals := by
  have hparse := parse_serialize round (configuration_printable hround c) rest
    fun _ => blank_ends hrest
  obtain ⟨text, hsplit, -, hnonzero, -⟩ := parse_prefix round hparse
  obtain rfl := List.append_cancel_right hsplit
  have hnul : (0 : UInt8) ∉ serialize c.toValue ++ rest := by
    rw [List.mem_append]
    rintro (h | h)
    · exact hnonzero 0 h rfl
    · exact blank_nonzero hrest h
  have hread : readConfig round (some (serialize c.toValue ++ rest)) =
      syntaxCheck round (textOf (serialize c.toValue ++ rest)) >>= parse := rfl
  rw [hread, syntaxCheck, textOf_nul_free hnul, hparse]
  exact parse_toValue c

/-- A lamp and a sonar. -/
def lampAndSonar : Configuration where
  server := .lit "192.168.1.10"
  port := 1883
  user := .lit "farm"
  pass := .lit "secret"
  sensors := [⟨.dOut, .lit "lamp", 20, 0, by decide, by decide, by decide⟩,
    ⟨.sonar, .lit "tank", 11, 12, by decide, by decide, by decide⟩]
  server_fits := by decide
  port_fits := by decide
  user_fits := by decide
  pass_fits := by decide

theorem readConfig_serialize_lampAndSonar :
    readConfig Double.finite (some (serialize lampAndSonar.toValue ++ [10])) =
      .ok lampAndSonar.globals :=
  readConfig_serialize (fun _ _ => rfl) lampAndSonar (by simp [Blank, isWhitespace])

end RemotusHardware
