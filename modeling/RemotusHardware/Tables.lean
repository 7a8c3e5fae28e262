import RemotusHardware.Parse

/-! # What the tables hold after `parse`

The three arrays are filled in step.  After `k` turns of the loop their first `k` entries are
those of a list of `k` sensors and the rest is as `calloc` left it (`Filled`), so that after a
normal return they are, entry by entry, the tables of a list of sensors (`Aligned`), each of
them described by the element of `configSensors` in the same place (`Describes`). -/

namespace RemotusHardware

open CLib

/-- A configured sensor.  Its object has the class its kind is read as. -/
structure Sensor where
  kind : SensorKind
  topic : CString
  object : SensorObject
  fits : object.cls = kind.cls

/-- The element `e` of `configSensors` describes the sensor `s`. -/
structure Describes (e : Value) (s : Sensor) : Prop where
  isObject : e.isObject = true
  kind : ∃ sensor, e.field "sensor" = .string sensor ∧ s.kind.name = .ofMem sensor
  topic : ∃ topic, e.field "topic" = .string topic ∧ s.topic = .ofMem topic
  object : ∃ x p, e.field "pin" = .number x ∧ x.toInt = .ok p ∧
    construct s.kind.name p e = .ok s.object

/-- The tables are those of `sensors`. -/
structure Aligned (G : Globals) (sensors : List Sensor) : Prop where
  numSensors : G.numSensors = sensors.length
  topicsMQTT : G.topicsMQTT = sensors.map fun s => some s.topic
  typesObjects : G.typesObjects = sensors.map fun s => some s.kind.name
  objectsSensors : G.objectsSensors = sensors.map fun s => some s.object

/-- The loop invariant: of `n` entries the first are those of `sensors`, the rest is unset. -/
structure Filled (n : ℕ) (t : Tables) (sensors : List Sensor) : Prop where
  cont : t.cont = sensors.length
  topicsMQTT : t.topicsMQTT =
    (sensors.map fun s => some s.topic) ++ List.replicate (n - sensors.length) none
  typesObjects : t.typesObjects =
    (sensors.map fun s => some s.kind.name) ++ List.replicate (n - sensors.length) none
  objectsSensors : t.objectsSensors =
    (sensors.map fun s => some s.object) ++ List.replicate (n - sensors.length) none

/-- What one turn of the loop writes. -/
def Tables.store (t : Tables) (s : Sensor) : Tables where
  cont := t.cont + 1
  topicsMQTT := t.topicsMQTT.set t.cont (some s.topic)
  typesObjects := t.typesObjects.set t.cont (some s.kind.name)
  objectsSensors := t.objectsSensors.set t.cont (some s.object)

theorem filled_calloc (n : ℕ) : Filled n (.calloc n) [] := by constructor <;> simp [Tables.calloc]

theorem set_append_replicate {α : Type} (xs : List (Option α)) (a : α) {n : ℕ} (h : xs.length < n) :
    (xs ++ List.replicate (n - xs.length) none).set xs.length (some a) =
      (xs ++ [some a]) ++ List.replicate (n - (xs.length + 1)) none := by
  obtain ⟨k, hk⟩ : ∃ k, n - xs.length = k + 1 := ⟨n - xs.length - 1, by omega⟩
  rw [hk, show n - (xs.length + 1) = k by omega, List.set_append_right _ _ le_rfl, Nat.sub_self,
    List.replicate_succ, List.set_cons_zero, List.append_assoc, List.singleton_append]

theorem Filled.store {n : ℕ} {t : Tables} {sensors : List Sensor} (h : Filled n t sensors)
    (hn : sensors.length < n) (s : Sensor) : Filled n (t.store s) (sensors ++ [s]) := by
  have key {α : Type} (f : Sensor → α) :
      ((sensors.map fun s => some (f s)) ++ List.replicate (n - sensors.length) none).set
          sensors.length (some (f s)) =
        ((sensors ++ [s]).map fun s => some (f s)) ++
          List.replicate (n - (sensors ++ [s]).length) none := by
    have := set_append_replicate (sensors.map fun s => some (f s)) (f s) (n := n)
      (by simpa using hn)
    simpa using this
  refine ⟨by simp [Tables.store, h.cont], ?_, ?_, ?_⟩
  · simp only [Tables.store, h.cont, h.topicsMQTT]
    exact key (·.topic)
  · simp only [Tables.store, h.cont, h.typesObjects]
    exact key (·.kind.name)
  · simp only [Tables.store, h.cont, h.objectsSensors]
    exact key (·.object)

/-- A turn of the loop that comes to its end has stored one described sensor. -/
theorem parseSensor_ok {e : Value} {t t' : Tables} (h : parseSensor e t = .ok t') :
    ∃ s, Describes e s ∧ t' = t.store s := by
  obtain ⟨bad, -, h⟩ := bind_eq_ok.mp h
  cases bad with
  | true => cases h
  | false =>
      simp only [Bool.false_eq_true, if_false] at h
      obtain ⟨w₁, hw₁, h⟩ := bind_eq_ok.mp h
      obtain ⟨sensor, hs, h⟩ := bind_eq_ok.mp h
      obtain ⟨w₂, hw₂, h⟩ := bind_eq_ok.mp h
      obtain ⟨topic, ht, h⟩ := bind_eq_ok.mp h
      obtain ⟨w₃, hw₃, h⟩ := bind_eq_ok.mp h
      obtain ⟨x, hx, h⟩ := bind_eq_ok.mp h
      obtain ⟨p, hp, h⟩ := bind_eq_ok.mp h
      obtain ⟨o, ho, h⟩ := bind_eq_ok.mp h
      rw [Value.get_eq_ok] at hw₁ hw₂ hw₃
      rw [Value.getString_eq_ok] at hs ht
      rw [Value.getDouble_eq_ok] at hx
      cases hk : kindOf (.ofMem sensor) with
      | none =>
          rw [construct_unknown hk] at ho
          cases ho
      | some k =>
          have hname := kindOf_eq_some hk
          have hb : build k p e = .ok o := by rw [← construct_name, ← hname, ho]
          refine ⟨⟨k, .ofMem topic, o, build_cls hb⟩, ?_, ?_⟩
          · exact ⟨hw₁.1, ⟨sensor, by rw [← hw₁.2, hs], hname.symm⟩,
              ⟨topic, by rw [← hw₂.2, ht], rfl⟩,
              ⟨x, p, by rw [← hw₃.2, hx], hp, by rw [construct_name, hb]⟩⟩
          · cases h
            simp only [Tables.store, hname]

theorem parseSensors_ok : ∀ {es : List Value} {t t' : Tables} {n : ℕ} {sensors : List Sensor},
    parseSensors es t = .ok t' → Filled n t sensors → sensors.length + es.length ≤ n →
    ∃ new, List.Forall₂ Describes es new ∧ Filled n t' (sensors ++ new)
  | [], t, t', n, sensors, h, hf, _ => by
      cases h
      exact ⟨[], .nil, by simpa using hf⟩
  | e :: es, t, t', n, sensors, h, hf, hn => by
      obtain ⟨t₁, h₁, h₂⟩ := bind_eq_ok.mp h
      obtain ⟨s, hd, rfl⟩ := parseSensor_ok h₁
      simp only [List.length_cons] at hn
      obtain ⟨new, hnew, hfill⟩ := parseSensors_ok h₂ (hf.store (by omega) s) (by simp; omega)
      exact ⟨s :: new, .cons hd hnew, by simpa using hfill⟩

/-- What `parse` has read once it has returned. -/
structure Read (v : Value) (G : Globals) : Prop where
  server : ∃ s, v.field "server" = .string s ∧ G.server = .ofMem s
  port : ∃ x, v.field "port" = .number x ∧ x.toInt = .ok G.port
  user : ∃ s, v.field "user" = .string s ∧ G.user = .ofMem s
  pass : ∃ s, v.field "pass" = .string s ∧ G.pass = .ofMem s

theorem strcpy_eq_ok {capacity : ℕ} {src : List UInt8} {s : CString} :
    strcpy capacity src = .ok s ↔ strlen (.ofMem src) < capacity ∧ s = .ofMem src := by
  unfold strcpy undefined
  split <;> simp_all [eq_comm]

/-- After a normal return the tables are those of the configured sensors. -/
theorem parse_ok {v : Value} {G : Globals} (h : parse v = .ok G) :
    Read v G ∧ ∃ list sensors, v.field "configSensors" = .array list ∧
      List.Forall₂ Describes list sensors ∧ Aligned G sensors := by
  obtain ⟨w, hw, h⟩ := bind_eq_ok.mp h
  obtain ⟨list, hlist, h⟩ := bind_eq_ok.mp h
  obtain ⟨bad, -, h⟩ := bind_eq_ok.mp h
  cases bad with
  | true => cases h
  | false =>
      simp only [Bool.false_eq_true, if_false] at h
      obtain ⟨w₁, hw₁, h⟩ := bind_eq_ok.mp h
      obtain ⟨s₁, hs₁, h⟩ := bind_eq_ok.mp h
      obtain ⟨server, hserver, h⟩ := bind_eq_ok.mp h
      obtain ⟨w₂, hw₂, h⟩ := bind_eq_ok.mp h
      obtain ⟨x, hx, h⟩ := bind_eq_ok.mp h
      obtain ⟨port, hport, h⟩ := bind_eq_ok.mp h
      obtain ⟨w₃, hw₃, h⟩ := bind_eq_ok.mp h
      obtain ⟨s₃, hs₃, h⟩ := bind_eq_ok.mp h
      obtain ⟨user, huser, h⟩ := bind_eq_ok.mp h
      obtain ⟨w₄, hw₄, h⟩ := bind_eq_ok.mp h
      obtain ⟨s₄, hs₄, h⟩ := bind_eq_ok.mp h
      obtain ⟨pass, hpass, h⟩ := bind_eq_ok.mp h
      obtain ⟨t, ht, h⟩ := bind_eq_ok.mp h
      rw [Value.get_eq_ok] at hw hw₁ hw₂ hw₃ hw₄
      rw [Value.getArray_eq_ok] at hlist
      rw [Value.getString_eq_ok] at hs₁ hs₃ hs₄
      rw [Value.getDouble_eq_ok] at hx
      rw [strcpy_eq_ok] at hserver huser hpass
      obtain ⟨sensors, hd, hf⟩ := parseSensors_ok ht (filled_calloc list.length) (by simp)
      have hlen := hd.length_eq
      have hcont := hf.cont
      have hrest : list.length - sensors.length = 0 := by omega
      simp only [List.nil_append] at hf hcont
      cases h
      refine ⟨⟨⟨s₁, by rw [← hw₁.2, hs₁], hserver.2⟩, ⟨x, by rw [← hw₂.2, hx], hport⟩,
        ⟨s₃, by rw [← hw₃.2, hs₃], huser.2⟩, ⟨s₄, by rw [← hw₄.2, hs₄], hpass.2⟩⟩,
        list, sensors, by rw [← hw.2, hlist], hd, ?_⟩
      constructor
      · simp only [hcont, ite_not, hlen, if_true]
      · simp [hf.topicsMQTT, hrest]
      · simp [hf.typesObjects, hrest]
      · simp [hf.objectsSensors, hrest]

theorem Sensor.ext_fields : ∀ {s s' : Sensor}, s.kind = s'.kind → s.topic = s'.topic →
    s.object = s'.object → s = s'
  | ⟨_, _, _, _⟩, ⟨_, _, _, _⟩, rfl, rfl, rfl => rfl

/-- Tables are those of one list of sensors only. -/
theorem Aligned.unique {G : Globals} {ss ss' : List Sensor} (h : Aligned G ss)
    (h' : Aligned G ss') : ss = ss' := by
  have hkind := h.typesObjects.symm.trans h'.typesObjects
  have htopic := h.topicsMQTT.symm.trans h'.topicsMQTT
  have hobject := h.objectsSensors.symm.trans h'.objectsSensors
  have hget {α : Type} (f : Sensor → α)
      (heq : (ss.map fun s => some (f s)) = ss'.map fun s => some (f s)) (i : ℕ) :
      ss[i]?.map f = ss'[i]?.map f := by
    have := congrArg (fun l : List (Option α) => l[i]?) heq
    simp only [List.getElem?_map] at this
    cases h₁ : ss[i]? <;> cases h₂ : ss'[i]? <;> simp_all
  apply List.ext_getElem?
  intro i
  have h₁ := hget (fun s => s.kind.name) hkind i
  have h₂ := hget (fun s => s.topic) htopic i
  have h₃ := hget (fun s => s.object) hobject i
  cases hs : ss[i]? with
  | none => simpa [hs, eq_comm] using h₂
  | some s =>
      obtain ⟨s', hs'⟩ : ∃ s', ss'[i]? = some s' := by
        cases hs' : ss'[i]? with
        | none => simp [hs, hs'] at h₂
        | some s' => exact ⟨s', rfl⟩
      simp only [hs, hs', Option.map_some, Option.some.injEq] at h₁ h₂ h₃ ⊢
      exact Sensor.ext_fields (SensorKind.name_injective h₁) h₂ h₃

/-! ### A configuration -/

/-- An element of `configSensors` for a sensor on one pin. -/
def element (k : SensorKind) (topic : String) (pin : ℕ) : Value :=
  .object [(ascii "pin", .number (.finite pin)), (ascii "sensor", .string k.name.bytes),
    (ascii "topic", .string (ascii topic))]

/-- A configuration with these sensors. -/
def config (list : List Value) : Value :=
  .object [(ascii "configSensors", .array list), (ascii "pass", .string (ascii "secret")),
    (ascii "port", .number (.finite 1883)), (ascii "server", .string (ascii "192.168.1.10")),
    (ascii "user", .string (ascii "farm"))]

/-- The global variables after it has been read. -/
def globalsOf (sensors : List Sensor) : Globals where
  numSensors := sensors.length
  server := .lit "192.168.1.10"
  port := 1883
  user := .lit "farm"
  pass := .lit "secret"
  topicsMQTT := sensors.map fun s => some s.topic
  typesObjects := sensors.map fun s => some s.kind.name
  objectsSensors := sensors.map fun s => some s.object

theorem globalsOf_aligned (sensors : List Sensor) : Aligned (globalsOf sensors) sensors :=
  ⟨rfl, rfl, rfl, rfl⟩

/-- An output on a topic. -/
def outputSensor (topic : String) (pin : PinName) : Sensor :=
  ⟨.dOut, .lit topic, .DigitalOut pin, rfl⟩

/-- An element for a sonar. -/
def sonarElement (topic : String) (pin pin2 : ℕ) : Value :=
  .object [(ascii "pin", .number (.finite pin)), (ascii "pin2", .number (.finite pin2)),
    (ascii "sensor", .string (ascii "sonar")), (ascii "topic", .string (ascii topic))]

/-- A thermometer, a wind vane, a sonar and two outputs. -/
def farmConfig : Value :=
  config [element .temperature "air" 12, element .winddirection "wind" 16,
    sonarElement "tank" 14 15, element .dOut "lamp" 20, element .dOut "pump" 21]

def airSensor : Sensor := ⟨.temperature, .lit "air", .DHT .p12 22, rfl⟩

def tankSensor : Sensor := ⟨.sonar, .lit "tank", .SRF05 .p14 .p15, rfl⟩

def farmSensors : List Sensor :=
  [airSensor, ⟨.winddirection, .lit "wind", .CWindVane .p16 220, rfl⟩, tankSensor,
    outputSensor "lamp" .p20, outputSensor "pump" .p21]

theorem parse_farmConfig : parse farmConfig = .ok (globalsOf farmSensors) := rfl

end RemotusHardware
