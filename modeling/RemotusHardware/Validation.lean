import RemotusHardware.Tables

/-! # Which configurations `parse` classifies

The checks of `parse` mean to tell a file with bad connection data (code 3) from one with a bad
element (code 4) and one with an unknown sensor (code 5).  Every check reads the union of the
JSON value before it compares it with `NULL`, though, and what it reads is not bounded before it
is copied or used as an index.

`Classified` says what a file ought to come to.  It does so exactly if `parse` meets nothing it
cannot read (`Safe`) before the first thing it stops at (`parse_classified_iff`): each field has
the type it is read as as long as none before it was empty or zero, numbers fit an `int`, strings
fit the arrays and pins the pin table. -/

namespace RemotusHardware

open CLib

/-! ### What the checks look for -/

/-- A string that is not empty. -/
def Value.IsText (w : Value) : Prop := ∃ s, w = .string s ∧ s ≠ []

/-- `x` does not truncate to 0. -/
def Double.Nonzero : Double → Prop
  | finite q => trunc q ≠ 0
  | infinite _ => True

/-- A number that does not truncate to 0. -/
def Value.IsNonzero (w : Value) : Prop := ∃ x, w = .number x ∧ x.Nonzero

structure ServerOk (v : Value) : Prop where
  server : (v.field "server").IsText
  port : (v.field "port").IsNonzero
  user : (v.field "user").IsText
  pass : (v.field "pass").IsText

structure ElementOk (e : Value) : Prop where
  sensor : (e.field "sensor").IsText
  topic : (e.field "topic").IsText
  pin : (e.field "pin").IsNonzero

/-- The sensor an element names, up to its first NUL. -/
def Value.sensorKind (e : Value) : Option SensorKind :=
  match e.field "sensor" with
  | .string s => kindOf (.ofMem s)
  | _ => none

theorem Describes.sensorKind {e : Value} {s : Sensor} (h : Describes e s) :
    e.sensorKind = some s.kind := by
  obtain ⟨sensor, hsensor, hname⟩ := h.kind
  rw [Value.sensorKind, hsensor]
  simp only [← hname, kindOf_name]

open Classical in
/-- The code for the first defective element of a list. -/
noncomputable def firstDefect : List Value → Option ℕ
  | [] => none
  | e :: es =>
      if ¬ ElementOk e then some 4
      else if e.sensorKind = none then some 5
      else firstDefect es

/-- What the list of sensors comes to, read by a function that returns `r`. -/
def ListClassified {α : Type} (list : List Value) (r : Except Stop α) : Prop :=
  (∀ why, r ≠ undefined why) ∧
    ((∀ e ∈ list, e.isObject = true) → match firstDefect list with
      | some led => r = errorConfig led
      | none => ∃ a, r = .ok a)

/-- What a configuration file ought to come to, the function reading it having returned `r`. -/
structure Classified {α : Type} (v : Value) (r : Except Stop α) : Prop where
  /-- no value is read as one of another type, nor anything else done that C++ leaves open -/
  defined : ∀ why, r ≠ undefined why
  server : ¬ ServerOk v → r = errorConfig 3
  sensors : ServerOk v → ∀ list, v.field "configSensors" = .array list →
    (∀ e ∈ list, e.isObject = true) → match firstDefect list with
      | some led => r = errorConfig led
      | none => ∃ a, r = .ok a
  missing : (∀ list, v.field "configSensors" ≠ .array list) → ∃ led, r = errorConfig led

/-! ### What can be read -/

/-- The field is a string, and `next` holds unless it is empty. -/
def TextThen (v : Value) (key : String) (next : Prop) : Prop :=
  ∃ s, v.field key = .string s ∧ (s ≠ [] → next)

/-- The field is a number an `int` holds, and `next` holds unless it is zero. -/
def NumberThen (v : Value) (key : String) (next : Prop) : Prop :=
  ∃ x p, v.field key = .number x ∧ x.toInt = .ok p ∧ (p ≠ 0 → next)

/-- The field is the number of an entry of the pin table. -/
def PinSafe (e : Value) (key : String) : Prop :=
  ∃ x p, e.field key = .number x ∧ x.toInt = .ok p ∧ 1 ≤ p ∧ p ≤ 35

/-- The pins of an element of kind `k` are in the table. -/
def PinsSafe (k : SensorKind) (e : Value) : Prop :=
  PinSafe e "pin" ∧ (k = .sonar → PinSafe e "pin2")

/-- The fields of an element, in the order of their checks. -/
def ElementThen (e : Value) (next : Prop) : Prop :=
  TextThen e "sensor" (TextThen e "topic" (NumberThen e "pin" next))

/-- The list can be read up to the first element that is not an object or defective. -/
def ListSafe : List Value → Prop
  | [] => True
  | e :: es => e.isObject = true →
      ElementThen e (∀ k, e.sensorKind = some k → PinsSafe k e ∧ ListSafe es)

/-- The string fits an array of 20 bytes. -/
def Fits (v : Value) (key : String) : Prop :=
  ∀ s, v.field key = .string s → strlen (.ofMem s) < 20

/-- The connection data, in the order of their checks. -/
def ServerThen (v : Value) (next : Prop) : Prop :=
  TextThen v "server" (NumberThen v "port" (TextThen v "user" (TextThen v "pass" next)))

/-- The file can be read up to the first defect. -/
def Safe (v : Value) : Prop :=
  ∃ list, v.field "configSensors" = .array list ∧
    ServerThen v (Fits v "server" ∧ Fits v "user" ∧ Fits v "pass" ∧ ListSafe list)

/-! ### A check and its three outcomes -/

/-- A check passes on what is `good`, finds the defect of what is not, or reads something it
cannot; `andThen next` holds in the first case if `next` does, in the second in any case and in
the third never. -/
def Outcome (good : Prop) (check : Except Stop Bool) (andThen : Prop → Prop) : Prop :=
  (good ∧ check = .ok false ∧ ∀ next, andThen next ↔ next) ∨
    (¬ good ∧ check = .ok true ∧ ∀ next, andThen next) ∨
    ((∃ why, check = undefined why) ∧ ∀ next, ¬ andThen next)

theorem anyOf_cons_false {c : Except Stop Bool} (h : c = .ok false) (cs : List (Except Stop Bool)) :
    anyOf (c :: cs) = anyOf cs := by simp [anyOf, h]

/-- One check after another. -/
theorem Outcome.cons {good₁ good₂ : Prop} {c : Except Stop Bool} {cs : List (Except Stop Bool)}
    {then₁ then₂ : Prop → Prop} (h₁ : Outcome good₁ c then₁)
    (h₂ : good₁ → Outcome good₂ (anyOf cs) then₂) :
    Outcome (good₁ ∧ good₂) (anyOf (c :: cs)) (fun next => then₁ (then₂ next)) := by
  rcases h₁ with ⟨g₁, hc, t₁⟩ | ⟨g₁, hc, t₁⟩ | ⟨⟨why, hc⟩, t₁⟩
  · rw [anyOf_cons_false hc]
    rcases h₂ g₁ with ⟨g₂, hcs, t₂⟩ | ⟨g₂, hcs, t₂⟩ | ⟨hcs, t₂⟩
    · exact .inl ⟨⟨g₁, g₂⟩, hcs, fun next => (t₁ _).trans (t₂ next)⟩
    · exact .inr (.inl ⟨fun h => g₂ h.2, hcs, fun next => (t₁ _).mpr (t₂ next)⟩)
    · exact .inr (.inr ⟨hcs, fun next h => t₂ next ((t₁ _).mp h)⟩)
  · refine .inr (.inl ⟨fun h => g₁ h.1, ?_, fun _ => t₁ _⟩)
    rw [anyOf, hc]
    rfl
  · refine .inr (.inr ⟨⟨why, ?_⟩, fun _ => t₁ _⟩)
    rw [anyOf, hc]
    rfl

theorem outcome_nil : Outcome True (anyOf []) id := .inl ⟨trivial, rfl, fun _ => Iff.rfl⟩

theorem Outcome.of_iff {good good' : Prop} {check : Except Stop Bool} {andThen : Prop → Prop}
    (h : Outcome good check andThen) (hg : good ↔ good') : Outcome good' check andThen := by
  rwa [propext hg] at h

/-! ### The checks of one field -/

section
variable {v : Value}

theorem getString_of_ne {w : Value} (h : ∀ s, w ≠ .string s) :
    w.getString = undefined .wrongType := by
  cases w <;> first | rfl | exact absurd rfl (h _)

theorem getDouble_of_ne {w : Value} (h : ∀ x, w ≠ .number x) :
    w.getDouble = undefined .wrongType := by
  cases w <;> first | rfl | exact absurd rfl (h _)

theorem get_of_isObject (h : v.isObject = true) (key : String) : v.get key = .ok (v.field key) :=
  Value.get_eq_ok.mpr ⟨h, rfl⟩

theorem toInt_cases (x : Double) : (∃ p, x.toInt = .ok p ∧ (p ≠ 0 ↔ x.Nonzero)) ∨
    ∃ why, x.toInt = undefined why := by
  cases x with
  | finite q =>
      simp only [Double.toInt, Double.Nonzero]
      split
      · exact .inl ⟨_, rfl, Iff.rfl⟩
      · exact .inr ⟨_, rfl⟩
  | infinite _ => exact .inr ⟨_, rfl⟩

theorem toBool_of_nonzero {x : Double} (h : x.Nonzero) : (Value.number x).toBool = true := by
  cases x with
  | finite q =>
      have hq : q ≠ 0 := by
        rintro rfl
        exact h rfl
      simpa [Value.toBool] using hq
  | infinite _ => rfl

theorem text_outcome (hv : v.isObject = true) (key : String) :
    Outcome (v.field key).IsText (isEmpty v key) (TextThen v key) := by
  by_cases hs : ∃ s, v.field key = .string s
  · obtain ⟨s, hs⟩ := hs
    have hempty : isEmpty v key = .ok (decide (s.length = 0)) := by
      simp [isEmpty, get_of_isObject hv, hs, Value.getString, pure, Except.pure]
    have huniq (s') (hs' : v.field key = .string s') : s' = s := by
      rw [hs] at hs'
      exact (Value.string.inj hs').symm
    cases s with
    | nil =>
        refine .inr (.inl ⟨?_, hempty, fun next => ⟨[], hs, fun h => absurd rfl h⟩⟩)
        rintro ⟨s, hs', hne⟩
        exact hne (huniq s hs')
    | cons b s =>
        refine .inl ⟨⟨_, hs, by simp⟩, hempty,
          fun next => ⟨?_, fun hnext => ⟨_, hs, fun _ => hnext⟩⟩⟩
        rintro ⟨s', hs', hnext⟩
        exact hnext (by simp [huniq s' hs'])
  · refine .inr (.inr ⟨⟨.wrongType, ?_⟩, fun next h => hs ⟨h.choose, h.choose_spec.1⟩⟩)
    rw [isEmpty, get_of_isObject hv, ok_bind, getString_of_ne fun s h => hs ⟨s, h⟩]
    rfl

theorem number_outcome (hv : v.isObject = true) (key : String) :
    Outcome (v.field key).IsNonzero (isZero v key) (NumberThen v key) := by
  by_cases hx : ∃ x, v.field key = .number x
  · obtain ⟨x, hx⟩ := hx
    have hzero : isZero v key = x.toInt >>= fun n => pure (decide (n = 0)) := by
      simp [isZero, get_of_isObject hv, hx, Value.getDouble]
    have huniq (x') (hx' : v.field key = .number x') : x' = x :=
      Value.field_number_unique hx' hx
    rcases toInt_cases x with ⟨p, hp, hnz⟩ | ⟨why, hp⟩
    · rw [hp] at hzero
      by_cases h0 : p = 0
      · refine .inr (.inl ⟨?_, by simp [hzero, h0, pure, Except.pure],
          fun next => ⟨x, p, hx, hp, fun h => absurd h0 h⟩⟩)
        rintro ⟨x', hx', hne⟩
        rw [huniq x' hx', ← hnz] at hne
        exact hne h0
      · refine .inl ⟨⟨x, hx, hnz.mp h0⟩, by simp [hzero, h0, pure, Except.pure],
          fun next => ⟨?_, fun hnext => ⟨x, p, hx, hp, fun _ => hnext⟩⟩⟩
        rintro ⟨x', p', hx', hp', hnext⟩
        rw [huniq x' hx', hp] at hp'
        exact hnext (by rwa [← Except.ok.inj hp'])
    · refine .inr (.inr ⟨⟨why, by rw [hzero, hp]; rfl⟩, ?_⟩)
      rintro next ⟨x', p, hx', hp', -⟩
      rw [huniq x' hx', hp] at hp'
      cases hp'
  · refine .inr (.inr ⟨⟨.wrongType, ?_⟩, fun next h => hx ⟨h.choose, h.choose_spec.choose_spec.1⟩⟩)
    rw [isZero, get_of_isObject hv, ok_bind, getDouble_of_ne fun x h => hx ⟨x, h⟩]
    rfl

/-- What has passed its first check is not `NULL` either. -/
theorem isNULL_of_text (hv : v.isObject = true) {key : String} (h : (v.field key).IsText) :
    isNULL v key = .ok false := by
  obtain ⟨s, hs, hne⟩ := h
  simp [isNULL, get_of_isObject hv, hs, Value.toBool, hne, pure, Except.pure]

theorem isNULL_of_nonzero (hv : v.isObject = true) {key : String} (h : (v.field key).IsNonzero) :
    isNULL v key = .ok false := by
  obtain ⟨x, hx, hne⟩ := h
  rw [isNULL, get_of_isObject hv, ok_bind, hx, toBool_of_nonzero hne]
  rfl

/-! ### The checks of the two kinds of objects -/

theorem server_outcome (hv : v.isObject = true) :
    Outcome (ServerOk v) (anyOf (serverChecks v)) (ServerThen v) := by
  have h := (text_outcome hv "server").cons (fun hserver => by
    rw [anyOf_cons_false (isNULL_of_text hv hserver)]
    exact (number_outcome hv "port").cons (fun hport => by
      rw [anyOf_cons_false (isNULL_of_nonzero hv hport)]
      exact (text_outcome hv "user").cons (fun huser => by
        rw [anyOf_cons_false (isNULL_of_text hv huser)]
        exact (text_outcome hv "pass").cons (fun hpass => by
          rw [anyOf_cons_false (isNULL_of_text hv hpass)]
          exact outcome_nil))))
  exact h.of_iff ⟨fun ⟨h₁, h₂, h₃, h₄, _⟩ => ⟨h₁, h₂, h₃, h₄⟩,
    fun ⟨h₁, h₂, h₃, h₄⟩ => ⟨h₁, h₂, h₃, h₄, trivial⟩⟩

theorem element_outcome (hv : v.isObject = true) :
    Outcome (ElementOk v) (anyOf (sensorChecks v)) (ElementThen v) := by
  have h := (text_outcome hv "sensor").cons (fun hsensor =>
    (text_outcome hv "topic").cons (fun htopic =>
      (number_outcome hv "pin").cons (fun hpin => by
        rw [anyOf_cons_false (isNULL_of_text hv hsensor),
          anyOf_cons_false (isNULL_of_text hv htopic),
          anyOf_cons_false (isNULL_of_nonzero hv hpin)]
        exact outcome_nil)))
  exact h.of_iff ⟨fun ⟨h₁, h₂, h₃, _⟩ => ⟨h₁, h₂, h₃⟩, fun ⟨h₁, h₂, h₃⟩ => ⟨h₁, h₂, h₃, trivial⟩⟩

end

/-! ### One element and the list -/

section
variable {e : Value}

/-- A number is read, or the read goes wrong. -/
theorem readNumber_cases (he : e.isObject = true) (key : String) :
    (∃ x p, e.field key = .number x ∧ x.toInt = .ok p) ∨
      (¬ PinSafe e key ∧
        ∃ why, ((e.get key >>= Value.getDouble) >>= Double.toInt) = undefined why) := by
  rw [get_of_isObject he, ok_bind]
  by_cases hx : ∃ x, e.field key = .number x
  · obtain ⟨x, hx⟩ := hx
    rcases toInt_cases x with ⟨p, hp, -⟩ | ⟨why, hp⟩
    · exact .inl ⟨x, p, hx, hp⟩
    · refine .inr ⟨?_, why, by rw [hx]; exact hp⟩
      rintro ⟨x', p, hx', hp', -⟩
      rw [Value.field_number_unique hx' hx, hp] at hp'
      cases hp'
  · refine .inr ⟨fun ⟨x, _, h, _⟩ => hx ⟨x, h⟩, .wrongType, ?_⟩
    rw [getDouble_of_ne fun x h => hx ⟨x, h⟩]
    rfl

/-- A number is the one of a pin exactly if the pin table has an entry for it. -/
theorem pinAt_cases {key : String} {x : Double} {p : ℤ} (hx : e.field key = .number x)
    (hp : x.toInt = .ok p) :
    (PinSafe e key ∧ ∃ pin, pinAt p = .ok pin) ∨
      (¬ PinSafe e key ∧ pinAt p = undefined .outOfBounds) := by
  by_cases hin : 1 ≤ p ∧ p ≤ 35
  · exact .inl ⟨⟨x, p, hx, hp, hin⟩, pinAt_ok hin⟩
  · refine .inr ⟨?_, pinAt_error hin⟩
    rintro ⟨x', p', hx', hp', hin'⟩
    rw [Value.field_number_unique hx' hx, hp] at hp'
    exact hin (by rwa [Except.ok.inj hp'])

/-- An object is built exactly if its pins are in the table. -/
theorem build_cases (he : e.isObject = true) (k : SensorKind) {x : Double} {p : ℤ}
    (hx : e.field "pin" = .number x) (hp : x.toInt = .ok p) :
    (PinsSafe k e ∧ ∃ o, build k p e = .ok o) ∨
      (¬ PinsSafe k e ∧ ∃ why, build k p e = undefined why) := by
  by_cases hk : k = .sonar
  · subst hk
    rcases readNumber_cases he "pin2" with ⟨x₂, p₂, hx₂, hp₂⟩ | ⟨hs₂, why, hread⟩
    · have hbuild : build .sonar p e = (do pure (.SRF05 (← pinAt p) (← pinAt p₂))) := by
        simp [build, get_of_isObject he, hx₂, Value.getDouble, hp₂]
      rw [hbuild]
      rcases pinAt_cases hx hp with ⟨hs, pin, h⟩ | ⟨hs, h⟩
      · rcases pinAt_cases hx₂ hp₂ with ⟨hs₂, pin₂, h₂⟩ | ⟨hs₂, h₂⟩
        · exact .inl ⟨⟨hs, fun _ => hs₂⟩, .SRF05 pin pin₂, by rw [h, h₂]; rfl⟩
        · exact .inr ⟨fun hsafe => hs₂ (hsafe.2 rfl), .outOfBounds, by rw [h, h₂]; rfl⟩
      · exact .inr ⟨fun hsafe => hs hsafe.1, .outOfBounds, by rw [h]; rfl⟩
    · have hbuild : build .sonar p e =
          (((e.get "pin2" >>= Value.getDouble) >>= Double.toInt) >>= fun pAux => do
            pure (.SRF05 (← pinAt p) (← pinAt pAux))) := by
        rw [get_of_isObject he]
        cases h : (e.field "pin2").getDouble <;> simp [build, get_of_isObject he, h]
      exact .inr ⟨fun hsafe => hs₂ (hsafe.2 rfl), why, by rw [hbuild, hread]; rfl⟩
  · obtain ⟨f, hbuild⟩ : ∃ f : PinName → SensorObject, build k p e = (do pure (f (← pinAt p))) := by
      cases k <;> first | exact ⟨_, rfl⟩ | exact absurd rfl hk
    rw [hbuild]
    rcases pinAt_cases hx hp with ⟨hs, pin, h⟩ | ⟨hs, h⟩
    · exact .inl ⟨⟨hs, fun h => absurd h hk⟩, f pin, by rw [h]; rfl⟩
    · exact .inr ⟨fun hsafe => hs hsafe.1, .outOfBounds, by rw [h]; rfl⟩

theorem TextThen.next {key : String} {next : Prop} (h : TextThen e key next)
    (ht : (e.field key).IsText) : next := by
  obtain ⟨s, hs, hnext⟩ := h
  obtain ⟨s', hs', hne⟩ := ht
  rw [hs] at hs'
  exact hnext (by rwa [Value.string.inj hs'])

theorem parseSensor_defective (hcheck : anyOf (sensorChecks e) = .ok true) (t : Tables) :
    parseSensor e t = errorConfig 4 := by
  rw [parseSensor, hcheck]
  rfl

theorem parseSensor_unreadable {why : Undefined}
    (hcheck : anyOf (sensorChecks e) = undefined why) (t : Tables) :
    parseSensor e t = undefined why := by
  rw [parseSensor, hcheck]
  rfl

/-- What becomes of an element that has passed the checks: its sensor is unknown, or its object
is built, or its pins are not in the table. -/
theorem parseSensor_passed (he : e.isObject = true) (hok : ElementOk e)
    (hcheck : anyOf (sensorChecks e) = .ok false) (hread : ElementThen e True) (t : Tables) :
    (e.sensorKind = none ∧ parseSensor e t = errorConfig 5) ∨
      (∃ k, e.sensorKind = some k ∧ PinsSafe k e ∧ ∃ t', parseSensor e t = .ok t') ∨
      (∃ k why, e.sensorKind = some k ∧ ¬ PinsSafe k e ∧ parseSensor e t = undefined why) := by
  obtain ⟨x, p, hx, hp, -⟩ : NumberThen e "pin" True := (hread.next hok.sensor).next hok.topic
  obtain ⟨sensor, hs, -⟩ := hok.sensor
  obtain ⟨topic, ht, -⟩ := hok.topic
  have hkind : e.sensorKind = kindOf (.ofMem sensor) := by rw [Value.sensorKind, hs]
  have hparse : parseSensor e t = construct (.ofMem sensor) p e >>= fun o => pure
      { cont := t.cont + 1
        topicsMQTT := t.topicsMQTT.set t.cont (some (.ofMem topic))
        typesObjects := t.typesObjects.set t.cont (some (.ofMem sensor))
        objectsSensors := t.objectsSensors.set t.cont (some o) } := by
    simp [parseSensor, hcheck, get_of_isObject he, hs, ht, hx, hp, Value.getString, Value.getDouble]
  rw [hparse, hkind]
  cases hk : kindOf (.ofMem sensor) with
  | none => exact .inl ⟨rfl, by rw [construct_unknown hk]; rfl⟩
  | some k =>
      rw [kindOf_eq_some hk, construct_name]
      rcases build_cases he k hx hp with ⟨hsafe, o, ho⟩ | ⟨hsafe, why, ho⟩
      · exact .inr (.inl ⟨k, rfl, hsafe, _, by rw [ho]; rfl⟩)
      · exact .inr (.inr ⟨k, why, rfl, hsafe, by rw [ho]; rfl⟩)

/-- An element that is classified ends the loop. -/
theorem listClassified_stop {list : List Value} {led : ℕ} (h : firstDefect list = some led)
    {α : Type} : ListClassified list (errorConfig led : Except Stop α) :=
  ⟨fun _ h' => (by cases h'), fun _ => by rw [h]⟩

theorem firstDefect_passed (hok : ElementOk e) {k : SensorKind} (hk : e.sensorKind = some k)
    (es : List Value) : firstDefect (e :: es) = firstDefect es := by
  rw [firstDefect, if_neg (not_not.mpr hok), hk, if_neg (by simp)]

/-- The loop classifies a list exactly if the list can be read. -/
theorem parseSensors_classified_iff : ∀ (es : List Value) (t : Tables),
    ListClassified es (parseSensors es t) ↔ ListSafe es
  | [], t => ⟨fun _ => trivial, fun _ => ⟨fun _ h => (by cases h), fun _ => ⟨t, rfl⟩⟩⟩
  | e :: es, t => by
      have hloop : parseSensors (e :: es) t = parseSensor e t >>= parseSensors es := rfl
      by_cases he : e.isObject = true
      · rcases element_outcome he with ⟨hok, hcheck, hread⟩ | ⟨hok, hcheck, hread⟩ |
          ⟨⟨why, hcheck⟩, hread⟩
        · have hsafe : ListSafe (e :: es) ↔
              ∀ k, e.sensorKind = some k → PinsSafe k e ∧ ListSafe es :=
            ⟨fun h => (hread _).mp (h he), fun h _ => (hread _).mpr h⟩
          rw [hsafe, hloop]
          rcases parseSensor_passed he hok hcheck ((hread True).mpr trivial) t with
            ⟨hk, h⟩ | ⟨k, hk, hpins, t', h⟩ | ⟨k, why, hk, hpins, h⟩
          · have hdefect : firstDefect (e :: es) = some 5 := by
              rw [firstDefect, if_neg (not_not.mpr hok), if_pos hk]
            rw [h, hk]
            exact ⟨fun _ _ h => (by cases h), fun _ => listClassified_stop hdefect⟩
          · have ih := parseSensors_classified_iff es t'
            have hall : (∀ a ∈ e :: es, a.isObject = true) ↔ ∀ a ∈ es, a.isObject = true := by
              simp [he]
            rw [h, ok_bind, ListClassified, firstDefect_passed hok hk, hall, hk]
            exact ih.trans ⟨fun h k' hk' => by cases hk'; exact ⟨hpins, h⟩, fun h => (h k rfl).2⟩
          · rw [h, hk]
            exact ⟨fun hc => absurd rfl (hc.1 why), fun hall => absurd (hall k rfl).1 hpins⟩
        · have hdefect : firstDefect (e :: es) = some 4 := by rw [firstDefect, if_pos hok]
          have hstop : parseSensors (e :: es) t = errorConfig 4 := by
            rw [hloop, parseSensor_defective hcheck]
            rfl
          rw [hstop]
          exact ⟨fun _ _ => hread _, fun _ => listClassified_stop hdefect⟩
        · have hstop : parseSensors (e :: es) t = undefined why := by
            rw [hloop, parseSensor_unreadable hcheck]
            rfl
          rw [hstop]
          exact ⟨fun hc => absurd rfl (hc.1 why), fun hsafe => absurd (hsafe he) (hread _)⟩
      · have hstop : parseSensors (e :: es) t = .error .assertion := by
          have hget : isEmpty e "sensor" = .error .assertion := by
            simp [isEmpty, Value.get, he]
          rw [hloop, parseSensor, sensorChecks, anyOf, hget]
          rfl
        rw [hstop]
        exact ⟨fun _ h => absurd h he, fun _ => ⟨fun _ h => (by cases h),
          fun hall => absurd (hall e List.mem_cons_self) he⟩⟩

end

/-! ### The file -/

section
variable {v : Value}

theorem listClassified_bind {α β : Type} {list : List Value} {x : Except Stop α} (f : α → β) :
    ListClassified list (x >>= fun a => pure (f a)) ↔ ListClassified list x := by
  cases x with
  | ok a =>
      unfold ListClassified
      cases firstDefect list <;> simp [undefined, errorConfig, pure, Except.pure]
  | error stop =>
      unfold ListClassified
      cases firstDefect list <;> simp [undefined, errorConfig]

theorem classified_of_serverOk (hok : ServerOk v) {list : List Value}
    (hlist : v.field "configSensors" = .array list) {α : Type} {r : Except Stop α} :
    Classified v r ↔ ListClassified list r := by
  constructor
  · exact fun h => ⟨h.defined, h.sensors hok list hlist⟩
  · refine fun h => ⟨h.1, fun hbad => absurd hok hbad, fun _ list' hlist' => ?_,
      fun hno => absurd hlist (hno list)⟩
    rw [Value.field_array_unique hlist' hlist]
    exact h.2

theorem strcpy_cases {key : String} {s : List UInt8} (hs : v.field key = .string s) :
    (Fits v key ∧ strcpy 20 s = .ok (.ofMem s)) ∨
      (¬ Fits v key ∧ strcpy 20 s = undefined .bufferOverflow) := by
  have hfits : Fits v key ↔ strlen (.ofMem s) < 20 := by
    constructor
    · exact fun h => h s hs
    · intro h s' hs'
      rw [hs] at hs'
      rwa [← Value.string.inj hs']
  rw [hfits, strcpy]
  by_cases h : strlen (.ofMem s) < 20
  · exact .inl ⟨h, if_pos h⟩
  · exact .inr ⟨h, if_neg h⟩

/-- Once the connection data have passed their checks they are copied, and the list is read. -/
theorem parse_passed (hv : v.isObject = true) (hok : ServerOk v)
    (hcheck : anyOf (serverChecks v) = .ok false) (hread : ServerThen v True) {list : List Value}
    (hlist : v.field "configSensors" = .array list) :
    (Fits v "server" ∧ Fits v "user" ∧ Fits v "pass" ∧ ∃ f : Tables → Globals,
        parse v = parseSensors list (.calloc list.length) >>= fun t => pure (f t)) ∨
      (¬ (Fits v "server" ∧ Fits v "user" ∧ Fits v "pass") ∧
        parse v = undefined .bufferOverflow) := by
  obtain ⟨x, p, hx, hp, -⟩ := hread.next hok.server
  obtain ⟨server, hs, -⟩ := hok.server
  obtain ⟨user, hu, -⟩ := hok.user
  obtain ⟨pass, hpass, -⟩ := hok.pass
  simp only [parse, get_of_isObject hv, ok_bind, hlist, Value.getArray, hcheck, Bool.false_eq_true,
    if_false, hs, hx, hu, hpass, Value.getString, Value.getDouble, hp]
  rcases strcpy_cases hs with ⟨f₁, h₁⟩ | ⟨f₁, h₁⟩
  · rcases strcpy_cases hu with ⟨f₂, h₂⟩ | ⟨f₂, h₂⟩
    · rcases strcpy_cases hpass with ⟨f₃, h₃⟩ | ⟨f₃, h₃⟩
      · exact .inl ⟨f₁, f₂, f₃, _, by rw [h₁, h₂, h₃]; rfl⟩
      · exact .inr ⟨fun h => f₃ h.2.2, by rw [h₁, h₂, h₃]; rfl⟩
    · exact .inr ⟨fun h => f₂ h.2.1, by rw [h₁, h₂]; rfl⟩
  · exact .inr ⟨fun h => f₁ h.1, by rw [h₁]; rfl⟩

theorem parse_defective (hv : v.isObject = true) {list : List Value}
    (hlist : v.field "configSensors" = .array list) (hcheck : anyOf (serverChecks v) = .ok true) :
    parse v = errorConfig 3 := by
  simp [parse, get_of_isObject hv, hlist, Value.getArray, hcheck]

theorem parse_unreadable (hv : v.isObject = true) {list : List Value}
    (hlist : v.field "configSensors" = .array list) {why : Undefined}
    (hcheck : anyOf (serverChecks v) = undefined why) : parse v = undefined why := by
  simp [parse, get_of_isObject hv, hlist, Value.getArray, hcheck, undefined]

/-- A file is classified exactly if it can be read up to its first defect. -/
theorem parse_classified_iff (hv : v.isObject = true) : Classified v (parse v) ↔ Safe v := by
  by_cases hlist : ∃ list, v.field "configSensors" = .array list
  case neg =>
    have hparse : parse v = undefined .wrongType := by
      have hget : (v.field "configSensors").getArray = undefined .wrongType := by
        cases h : v.field "configSensors" <;> first | rfl | exact absurd ⟨_, h⟩ hlist
      rw [parse, get_of_isObject hv, ok_bind, hget]
      rfl
    exact ⟨fun h => absurd hparse (h.defined _), fun ⟨list, h, _⟩ => absurd ⟨list, h⟩ hlist⟩
  case pos =>
    obtain ⟨list, hlist⟩ := hlist
    have hsafe : Safe v ↔ ServerThen v
        (Fits v "server" ∧ Fits v "user" ∧ Fits v "pass" ∧ ListSafe list) := by
      constructor
      · rintro ⟨list', hlist', h⟩
        rwa [Value.field_array_unique hlist hlist']
      · exact fun h => ⟨list, hlist, h⟩
    rw [hsafe]
    rcases server_outcome hv with
      ⟨hok, hcheck, hread⟩ | ⟨hok, hcheck, hread⟩ | ⟨⟨why, hcheck⟩, hread⟩
    · rw [hread, classified_of_serverOk hok hlist]
      rcases parse_passed hv hok hcheck ((hread True).mpr trivial) hlist with
        ⟨f₁, f₂, f₃, f, h⟩ | ⟨hfits, h⟩
      · rw [h, listClassified_bind, parseSensors_classified_iff]
        exact ⟨fun h => ⟨f₁, f₂, f₃, h⟩, fun h => h.2.2.2⟩
      · rw [h]
        exact ⟨fun hc => absurd rfl (hc.1 _), fun hs => absurd ⟨hs.1, hs.2.1, hs.2.2.1⟩ hfits⟩
    · rw [parse_defective hv hlist hcheck]
      exact ⟨fun _ => hread _, fun _ => ⟨fun _ h => (by cases h), fun _ => rfl,
        fun h => absurd h hok, fun _ => ⟨3, rfl⟩⟩⟩
    · rw [parse_unreadable hv hlist hcheck]
      exact ⟨fun h => absurd rfl (h.defined why), fun h => absurd h (hread _)⟩

end

theorem parse_classified_iff_farm : Classified farmConfig (parse farmConfig) ↔ Safe farmConfig :=
  parse_classified_iff rfl

/-- A file that gives the port as a string. -/
def quotedPort : Value :=
  .object [(ascii "configSensors", .array []), (ascii "pass", .string (ascii "secret")),
    (ascii "port", .string (ascii "1883")), (ascii "server", .string (ascii "192.168.1.10")),
    (ascii "user", .string (ascii "farm"))]

/-- The string is read as a `double` before the check that means to find it. -/
theorem quotedPort_not_classified :
    quotedPort.isObject = true ∧ ¬ ServerOk quotedPort ∧
      parse quotedPort = undefined .wrongType ∧ ¬ Classified quotedPort (parse quotedPort) := by
  have hrun : parse quotedPort = undefined .wrongType := rfl
  refine ⟨rfl, ?_, hrun, fun h => h.defined _ hrun⟩
  intro h
  obtain ⟨x, hx, -⟩ := h.port
  exact nomatch (show Value.string (ascii "1883") = .number x from hx)

end RemotusHardware
