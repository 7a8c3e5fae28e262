import RemotusHardware.Dispatch
import RemotusHardware.ReadFile
import RemotusHardware.Validation

/-! # Whether what is accepted stays in bounds

`pines` has 35 entries and 30 initialisers, `server`, `user` and `pass` have 20 bytes each.  The
checks of `parse` ask for non-empty strings and non-zero numbers only.

What a configuration makes `parse` use is in bounds (`UsesInBounds`) or not; the program is in
bounds if it builds every object on the pin with the number configured, and if a configuration
that uses anything else is stopped by code 3 or 4 (`InBounds`).  It is so exactly if the numbers
and strings are in bounds by themselves, or a defective element comes to the rescue before the
first index leaves the table (`parse_inBounds_iff`). -/

namespace RemotusHardware

open CLib

/-! ### Typed configurations -/

/-- An element whose fields have the types they are read as; `pin2` may be absent. -/
structure ElementTyped (e : Value) : Prop where
  isObject : e.isObject = true
  sensor : ∃ s, e.field "sensor" = .string s
  topic : ∃ s, e.field "topic" = .string s
  pin : ∃ x, e.field "pin" = .number x
  pin2 : e.field "pin2" = .null ∨ ∃ x, e.field "pin2" = .number x

/-- A configuration whose fields have the types they are read as. -/
structure WellTyped (v : Value) : Prop where
  isObject : v.isObject = true
  server : ∃ s, v.field "server" = .string s
  port : ∃ x, v.field "port" = .number x
  user : ∃ s, v.field "user" = .string s
  pass : ∃ s, v.field "pass" = .string s
  configSensors : ∃ list, v.field "configSensors" = .array list ∧ ∀ e ∈ list, ElementTyped e

/-! ### Bounds -/

/-- The number on the board of a pin; `zero` names no pin. -/
def PinName.number : PinName → ℕ
  | .LED1 => 1 | .LED2 => 2 | .LED3 => 3 | .LED4 => 4 | .p5 => 5 | .p6 => 6 | .p7 => 7 | .p8 => 8
  | .p9 => 9 | .p10 => 10 | .p11 => 11 | .p12 => 12 | .p13 => 13 | .p14 => 14 | .p15 => 15
  | .p16 => 16 | .p17 => 17 | .p18 => 18 | .p19 => 19 | .p20 => 20 | .p21 => 21 | .p22 => 22
  | .p23 => 23 | .p24 => 24 | .p25 => 25 | .p26 => 26 | .p27 => 27 | .p28 => 28 | .p29 => 29
  | .p30 => 30 | .zero => 0

/-- The field is the number of one of the 30 initialised entries. -/
def PinInitialised (e : Value) (key : String) : Prop :=
  ∃ x p, e.field key = .number x ∧ x.toInt = .ok p ∧ 1 ≤ p ∧ p ≤ 30

/-- The indices used for an element of kind `k` are those of initialised entries. -/
def PinsInitialised (k : SensorKind) (e : Value) : Prop :=
  PinInitialised e "pin" ∧ (k = .sonar → PinInitialised e "pin2")

/-- So are the indices used for a list, up to the first element that is defective or of an
unknown kind. -/
def ListInitialised : List Value → Prop
  | [] => True
  | e :: es => ElementOk e → ∀ k, e.sensorKind = some k → PinsInitialised k e ∧ ListInitialised es

/-- A defective element is reached by indices that are in the table. -/
def Rescued : List Value → Prop
  | [] => False
  | e :: es => ¬ ElementOk e ∨ ∃ k, e.sensorKind = some k ∧ PinsSafe k e ∧ Rescued es

/-- The connection data fit their arrays. -/
structure TextsFit (v : Value) : Prop where
  server : Fits v "server"
  user : Fits v "user"
  pass : Fits v "pass"

/-- What `parse` copies and what it uses as an index is in bounds. -/
def UsesInBounds (v : Value) : Prop :=
  ServerOk v → TextsFit v ∧ ∀ list, v.field "configSensors" = .array list → ListInitialised list

/-- An object is built on the pins an element names. -/
structure BuiltOn (e : Value) (o : SensorObject) : Prop where
  pin : ∃ x p, e.field "pin" = .number x ∧ x.toInt = .ok p ∧ (o.pin.number : ℤ) = p ∧ 1 ≤ p
  echo : ∀ trigger echo, o = .SRF05 trigger echo → ∃ x p, e.field "pin2" = .number x ∧
    x.toInt = .ok p ∧ (echo.number : ℤ) = p ∧ 1 ≤ p

/-- Every sensor is built on the pin named by its number, and the strings fit. -/
structure Named (v : Value) (G : Globals) : Prop where
  sensors : ∀ list, v.field "configSensors" = .array list →
    ∀ (i : ℕ) e, list[i]? = some e → ∃ o, G.objectsSensors[i]? = some (some o) ∧ BuiltOn e o
  server : strlen G.server < 20
  user : strlen G.user < 20
  pass : strlen G.pass < 20

/-- What is accepted stays in bounds, and what does not is stopped by code 3 or 4. -/
structure InBounds (v : Value) (r : Except Stop Globals) : Prop where
  accepted : ∀ G, r = .ok G → Named v G
  stopped : ¬ UsesInBounds v → r = errorConfig 3 ∨ r = errorConfig 4

/-! ### One element -/

theorem pinAt_number {p : ℤ} {pin : PinName} (h : pinAt p = .ok pin) (h1 : 1 ≤ p) (h30 : p ≤ 30) :
    (pin.number : ℤ) = p := by
  rw [pinAt, if_pos ⟨h1, by omega⟩] at h
  rw [← Except.ok.inj h]
  obtain ⟨n, rfl⟩ : ∃ n : ℕ, p = n + 1 := ⟨(p - 1).toNat, by omega⟩
  have hn : n < 30 := by omega
  interval_cases n <;> rfl

/-- What is built on initialised entries is built on the pins named. -/
theorem build_builtOn {k : SensorKind} {e : Value} {x : Double} {p : ℤ} {o : SensorObject}
    (hx : e.field "pin" = .number x) (hp : x.toInt = .ok p) (h : build k p e = .ok o)
    (hin : PinsInitialised k e) : BuiltOn e o := by
  obtain ⟨⟨x', p', hx', hp', h1, h30⟩, hsonar⟩ := hin
  obtain rfl := Value.field_number_unique hx hx'
  obtain rfl : p = p' := Except.ok.inj (hp.symm.trans hp')
  cases k with
  | sonar =>
      obtain ⟨x₂, p₂, hx₂, hp₂, h1', h30'⟩ := hsonar rfl
      obtain ⟨w, hw, h⟩ := bind_eq_ok.mp h
      obtain ⟨y, hy, h⟩ := bind_eq_ok.mp h
      obtain ⟨pAux, hpAux, h⟩ := bind_eq_ok.mp h
      obtain ⟨trigger, ht, h⟩ := bind_eq_ok.mp h
      obtain ⟨echo, he, h⟩ := bind_eq_ok.mp h
      cases h
      rw [(Value.get_eq_ok.mp hw).2, Value.getDouble_eq_ok] at hy
      obtain rfl := Value.field_number_unique hx₂ hy
      obtain rfl : p₂ = pAux := Except.ok.inj (hp₂.symm.trans hpAux)
      refine ⟨⟨x, p, hx, hp, pinAt_number ht h1 h30, h1⟩, ?_⟩
      rintro trigger' echo' heq
      cases heq
      exact ⟨x₂, p₂, hx₂, hp₂, pinAt_number he h1' h30', h1'⟩
  | _ =>
      obtain ⟨pin, hpin, h⟩ := bind_eq_ok.mp h
      cases h
      refine ⟨⟨x, p, hx, hp, pinAt_number hpin h1 h30, h1⟩, ?_⟩
      rintro trigger echo heq
      cases heq

theorem PinsInitialised.safe {k : SensorKind} {e : Value} (h : PinsInitialised k e) :
    PinsSafe k e := by
  obtain ⟨⟨x, p, hx, hp, h1, h30⟩, hsonar⟩ := h
  refine ⟨⟨x, p, hx, hp, h1, by omega⟩, fun hk => ?_⟩
  obtain ⟨x₂, p₂, hx₂, hp₂, h1', h30'⟩ := hsonar hk
  exact ⟨x₂, p₂, hx₂, hp₂, h1', by omega⟩

/-- The checks of a typed element can be read as far as they find a defect. -/
theorem ElementTyped.elementThen {e : Value} (h : ElementTyped e) (hbad : ¬ ElementOk e)
    (next : Prop) : ElementThen e next := by
  obtain ⟨s, hs⟩ := h.sensor
  obtain ⟨t, ht⟩ := h.topic
  obtain ⟨x, hx⟩ := h.pin
  refine ⟨s, hs, fun hs0 => ⟨t, ht, fun ht0 => ?_⟩⟩
  have hzero : ¬ x.Nonzero := fun hne => hbad ⟨⟨s, hs, hs0⟩, ⟨t, ht, ht0⟩, x, hx, hne⟩
  rcases toInt_cases x with ⟨p, hp, hnz⟩ | ⟨why, hwhy⟩
  · exact ⟨x, p, hx, hp, fun hp0 => absurd (hnz.mp hp0) hzero⟩
  · cases x with
    | finite q =>
        have h0 : trunc q = 0 := not_not.mp hzero
        rw [Double.toInt, h0, if_pos (by decide)] at hwhy
        cases hwhy
    | infinite negative => exact absurd trivial hzero

/-! ### The list -/

/-- The loop is stopped by a defective element exactly if the indices before it are in the
table. -/
theorem parseSensors_rescued_iff : ∀ (es : List Value) (t : Tables), (∀ e ∈ es, ElementTyped e) →
    (parseSensors es t = errorConfig 4 ↔ Rescued es)
  | [], t, _ => by
      constructor
      · intro h
        cases h
      · intro h
        cases h
  | e :: es, t, htyped => by
      have he := htyped e List.mem_cons_self
      have hes : ∀ e' ∈ es, ElementTyped e' := fun e' h' => htyped e' (List.mem_cons_of_mem _ h')
      have hloop : parseSensors (e :: es) t = parseSensor e t >>= parseSensors es := rfl
      rw [hloop, Rescued]
      rcases element_outcome he.isObject with ⟨hok, hcheck, hread⟩ | ⟨hok, hcheck, hread⟩ |
        ⟨⟨why, hcheck⟩, hread⟩
      · have hnot : ¬ ¬ ElementOk e := not_not.mpr hok
        rcases parseSensor_passed he.isObject hok hcheck ((hread True).mpr trivial) t with
          ⟨hk, h⟩ | ⟨k, hk, hpins, t', h⟩ | ⟨k, why, hk, hpins, h⟩
        · rw [h, hk]
          constructor
          · intro h'
            cases h'
          · rintro (h' | ⟨k, hk', -⟩)
            · exact absurd h' hnot
            · cases hk'
        · rw [h, ok_bind, parseSensors_rescued_iff es t' hes, hk]
          constructor
          · exact fun h' => .inr ⟨k, rfl, hpins, h'⟩
          · rintro (h' | ⟨k', -, -, h'⟩)
            · exact absurd h' hnot
            · exact h'
        · rw [h, hk]
          constructor
          · intro h'
            cases h'
          · rintro (h' | ⟨k', hk', hpins', -⟩)
            · exact absurd h' hnot
            · cases hk'
              exact absurd hpins' hpins
      · rw [parseSensor_defective hcheck]
        exact ⟨fun _ => .inl hok, fun _ => rfl⟩
      · rw [parseSensor_unreadable hcheck]
        constructor
        · intro h'
          cases h'
        · rintro (h' | ⟨k, hk, ⟨hpin, -⟩, -⟩)
          · exact absurd (he.elementThen h' True) (hread True)
          · obtain ⟨x, p, hx, hp, -⟩ := hpin
            obtain ⟨s, hs⟩ := he.sensor
            obtain ⟨s', hs'⟩ := he.topic
            have hreadable : ElementThen e True :=
              ⟨s, hs, fun _ => ⟨s', hs', fun _ => ⟨x, p, hx, hp, fun _ => trivial⟩⟩⟩
            exact absurd hreadable (hread True)

/-- In a loop that comes to its end, every element used is one whose indices are initialised. -/
theorem parseSensors_initialised : ∀ {es : List Value} {t t' : Tables},
    (∀ e ∈ es, ElementTyped e) → parseSensors es t = .ok t' → ListInitialised es →
    ∀ e ∈ es, ∃ k, e.sensorKind = some k ∧ PinsInitialised k e
  | [], _, _, _, _, _ => by simp
  | e :: es, t, t', htyped, h, hin => by
      have he := htyped e List.mem_cons_self
      have hes : ∀ e' ∈ es, ElementTyped e' := fun e' h' => htyped e' (List.mem_cons_of_mem _ h')
      obtain ⟨t₁, h₁, h₂⟩ := bind_eq_ok.mp h
      rcases element_outcome he.isObject with ⟨hok, hcheck, hread⟩ | ⟨-, hcheck, -⟩ |
        ⟨⟨why, hcheck⟩, -⟩
      · rcases parseSensor_passed he.isObject hok hcheck ((hread True).mpr trivial) t with
          ⟨-, h'⟩ | ⟨k, hk, -, -⟩ | ⟨-, why, -, -, h'⟩
        · rw [h'] at h₁
          cases h₁
        · obtain ⟨hpins, hrest⟩ := hin hok k hk
          intro e' he'
          rcases List.mem_cons.mp he' with rfl | he'
          · exact ⟨k, hk, hpins⟩
          · exact parseSensors_initialised hes h₂ hrest e' he'
        · rw [h'] at h₁
          cases h₁
      · rw [parseSensor_defective hcheck] at h₁
        cases h₁
      · rw [parseSensor_unreadable hcheck] at h₁
        cases h₁

/-! ### The file -/

section
variable {v : Value}

theorem bind_errorConfig {α β : Type} {x : Except Stop α} {f : α → β} {led : ℕ} :
    (x >>= fun a => pure (f a)) = (errorConfig led : Except Stop β) ↔ x = errorConfig led := by
  cases x with
  | ok a =>
      constructor <;> intro h <;> cases h
  | error stop =>
      constructor <;> intro h <;> cases h <;> rfl

/-- What has been read from a configuration that uses nothing out of bounds is as named. -/
theorem named_of_usesInBounds {G : Globals} (hv : WellTyped v) (h : parse v = .ok G)
    (hok : ServerOk v) (hcheck : anyOf (serverChecks v) = .ok false) (hread : ServerThen v True)
    (huses : UsesInBounds v) : Named v G := by
  obtain ⟨list, hlist, htyped⟩ := hv.configSensors
  obtain ⟨hfit, hin⟩ := huses hok
  obtain ⟨hRead, list', sensors, hlist', hd, hG⟩ := parse_ok h
  obtain rfl := Value.field_array_unique hlist hlist'
  obtain ⟨t, ht⟩ : ∃ t, parseSensors list (.calloc list.length) = .ok t := by
    rcases parse_passed hv.isObject hok hcheck hread hlist with ⟨-, -, -, f, hf⟩ | ⟨-, hf⟩
    · rw [hf] at h
      obtain ⟨t, ht, -⟩ := bind_eq_ok.mp h
      exact ⟨t, ht⟩
    · rw [hf] at h
      cases h
  have hall := parseSensors_initialised htyped ht (hin list hlist)
  refine ⟨?_, ?_, ?_, ?_⟩
  · intro list'' hlist'' i e hi
    obtain rfl := Value.field_array_unique hlist hlist''
    obtain ⟨s, hs, hds⟩ := forall₂_getElem? hd hi
    obtain ⟨k, hk, hpins⟩ := hall e (List.mem_of_getElem? hi)
    obtain ⟨x, p, hx, hp, ho⟩ := hds.object
    obtain rfl : k = s.kind := Option.some.inj (hk.symm.trans hds.sensorKind)
    rw [construct_name] at ho
    refine ⟨s.object, ?_, build_builtOn hx hp ho hpins⟩
    rw [hG.objectsSensors, List.getElem?_map, hs, Option.map_some]
  · obtain ⟨s, hs, hserver⟩ := hRead.server
    rw [hserver]
    exact hfit.server s hs
  · obtain ⟨s, hs, huser⟩ := hRead.user
    rw [huser]
    exact hfit.user s hs
  · obtain ⟨s, hs, hpass⟩ := hRead.pass
    rw [hpass]
    exact hfit.pass s hs

/-- The port is one an `int` holds. -/
def PortFits (v : Value) : Prop := ∃ x p, v.field "port" = .number x ∧ x.toInt = .ok p

theorem WellTyped.serverThen (hv : WellTyped v) (hport : PortFits v) : ServerThen v True := by
  obtain ⟨s, hs⟩ := hv.server
  obtain ⟨x, p, hx, hp⟩ := hport
  obtain ⟨u, hu⟩ := hv.user
  obtain ⟨w, hw⟩ := hv.pass
  exact ⟨s, hs, fun _ => ⟨x, p, hx, hp, fun _ => ⟨u, hu, fun _ => ⟨w, hw, fun _ => trivial⟩⟩⟩⟩

/-- A configuration that is stopped by code 3 or 4 does no harm. -/
theorem inBounds_errorConfig {led : ℕ} (h : led = 3 ∨ led = 4) :
    InBounds v (errorConfig led) where
  accepted := by
    intro G hG
    cases hG
  stopped := by
    intro _
    rcases h with rfl | rfl
    · exact .inl rfl
    · exact .inr rfl

/-- What ends in undefined behaviour has to use nothing out of bounds. -/
theorem inBounds_undefined_iff {why : Undefined} :
    InBounds v (undefined why) ↔ UsesInBounds v := by
  constructor
  · intro h
    by_contra huses
    rcases h.stopped huses with hstop | hstop <;> cases hstop
  · intro huses
    refine ⟨?_, fun hnot => absurd huses hnot⟩
    intro G hG
    cases hG

/-- Once the connection data have been copied it is a matter of the list. -/
theorem parse_inBounds_list (hv : WellTyped v) (hok : ServerOk v)
    (hcheck : anyOf (serverChecks v) = .ok false) (hread : ServerThen v True) (hfit : TextsFit v)
    {list : List Value} (hlist : v.field "configSensors" = .array list)
    (htyped : ∀ e ∈ list, ElementTyped e) {f : Tables → Globals}
    (h : parse v = parseSensors list (.calloc list.length) >>= fun t => pure (f t)) :
    InBounds v (parse v) ↔ ListInitialised list ∨ Rescued list := by
  have huses : UsesInBounds v ↔ ListInitialised list := by
    rw [UsesInBounds, Value.forall_field_array_iff hlist]
    exact ⟨fun huses => (huses hok).2, fun hin _ => ⟨hfit, hin⟩⟩
  have hfour : parse v = errorConfig 4 ↔ Rescued list := by
    rw [h, bind_errorConfig]
    exact parseSensors_rescued_iff list _ htyped
  have hthree : parse v ≠ errorConfig 3 := by
    rw [h, Ne, bind_errorConfig]
    intro hstop
    have := parseSensors_stopsAt list _ 3 hstop
    simp at this
  constructor
  · intro hin
    by_cases hlistIn : ListInitialised list
    · exact .inl hlistIn
    · rcases hin.stopped (mt huses.mp hlistIn) with hstop | hstop
      · exact absurd hstop hthree
      · exact .inr (hfour.mp hstop)
  · rintro (hlistIn | hrescued)
    · have hall := huses.mpr hlistIn
      exact ⟨fun G hG => named_of_usesInBounds hv hG hok hcheck hread hall,
        fun hnot => absurd hall hnot⟩
    · rw [hfour.mpr hrescued]
      exact inBounds_errorConfig (.inr rfl)

/-- What is accepted stays in bounds exactly if the connection data, once they have passed their
checks, fit their arrays, and the indices are those of initialised entries up to the first
element that is defective or of an unknown kind, or at least in the table up to one that is
defective. -/
theorem parse_inBounds_iff (hv : WellTyped v) : InBounds v (parse v) ↔
    (ServerOk v → TextsFit v ∧ ∀ list, v.field "configSensors" = .array list →
      ListInitialised list ∨ PortFits v ∧ Rescued list) := by
  obtain ⟨list, hlist, htyped⟩ := hv.configSensors
  rw [Value.forall_field_array_iff hlist]
  have huses : UsesInBounds v ↔ (ServerOk v → TextsFit v ∧ ListInitialised list) := by
    rw [UsesInBounds, Value.forall_field_array_iff hlist]
  rcases server_outcome hv.isObject with ⟨hok, hcheck, hread⟩ | ⟨hok, hcheck, -⟩ |
    ⟨⟨why, hcheck⟩, hread⟩
  · have hthen : ServerThen v True := (hread True).mpr trivial
    have hport : PortFits v := by
      obtain ⟨x, p, hx, hp, -⟩ := hthen.next hok.server
      exact ⟨x, p, hx, hp⟩
    rcases parse_passed hv.isObject hok hcheck hthen hlist with ⟨f₁, f₂, f₃, f, h⟩ | ⟨hfits, h⟩
    · have hfit : TextsFit v := ⟨f₁, f₂, f₃⟩
      rw [parse_inBounds_list hv hok hcheck hthen hfit hlist htyped h]
      simp only [hok, hfit, hport, true_and, true_implies]
    · have hfit : ¬ TextsFit v := fun hfit => hfits ⟨hfit.server, hfit.user, hfit.pass⟩
      rw [h, inBounds_undefined_iff, huses]
      simp only [hok, hfit, false_and]
  · rw [parse_defective hv.isObject hlist hcheck]
    exact ⟨fun _ h => absurd h hok, fun _ => inBounds_errorConfig (.inl rfl)⟩
  · have hport : ¬ PortFits v := fun hport => hread True (hv.serverThen hport)
    rw [parse_unreadable hv.isObject hlist hcheck, inBounds_undefined_iff, huses]
    simp only [hport, false_and, or_false]

end

theorem element_typed (k : SensorKind) (topic : String) (pin : ℕ) :
    ElementTyped (element k topic pin) :=
  ⟨rfl, ⟨_, rfl⟩, ⟨_, rfl⟩, ⟨_, rfl⟩, .inl rfl⟩

theorem config_typed {list : List Value} (h : ∀ e ∈ list, ElementTyped e) :
    WellTyped (config list) :=
  ⟨rfl, ⟨_, rfl⟩, ⟨_, rfl⟩, ⟨_, rfl⟩, ⟨_, rfl⟩, list, rfl, h⟩

theorem sonarElement_typed (topic : String) (pin pin2 : ℕ) :
    ElementTyped (sonarElement topic pin pin2) :=
  ⟨rfl, ⟨_, rfl⟩, ⟨_, rfl⟩, ⟨_, rfl⟩, .inr ⟨_, rfl⟩⟩

theorem farmConfig_typed : WellTyped farmConfig := by
  apply config_typed
  simp only [List.forall_mem_cons]
  exact ⟨element_typed .temperature "air" 12, element_typed .winddirection "wind" 16,
    sonarElement_typed "tank" 14 15, element_typed .dOut "lamp" 20, element_typed .dOut "pump" 21,
    List.forall_mem_nil _⟩

theorem parse_inBounds_iff_farm :
    InBounds farmConfig (parse farmConfig) ↔
      (ServerOk farmConfig → TextsFit farmConfig ∧
        ∀ list, farmConfig.field "configSensors" = .array list →
          ListInitialised list ∨ PortFits farmConfig ∧ Rescued list) :=
  parse_inBounds_iff farmConfig_typed

/-- Pin 31 is accepted, and the output is built on an entry that has no initialiser. -/
theorem pin31_accepted :
    WellTyped (config [element .dOut "lamp" 31]) ∧
    parse (config [element .dOut "lamp" 31]) = .ok (globalsOf [outputSensor "lamp" .zero]) ∧
    ¬ InBounds (config [element .dOut "lamp" 31]) (parse (config [element .dOut "lamp" 31])) := by
  have hrun : parse (config [element .dOut "lamp" 31]) =
      .ok (globalsOf [outputSensor "lamp" .zero]) := rfl
  refine ⟨config_typed (List.forall_mem_singleton.mpr (element_typed .dOut "lamp" 31)), hrun, ?_⟩
  intro h
  obtain ⟨o, ho, hbuilt⟩ := (h.accepted _ hrun).sensors _ rfl 0 _ rfl
  obtain rfl : SensorObject.DigitalOut .zero = o := Option.some.inj (Option.some.inj ho)
  obtain ⟨x, p, -, -, hnumber, hp⟩ := hbuilt.pin
  have h0 : ((SensorObject.DigitalOut .zero).pin.number : ℤ) = 0 := rfl
  omega

end RemotusHardware
