import RemotusHardware.Commands
import RemotusHardware.Thermometer
import RemotusHardware.Validation

/-! # The heartbeat and the outputs

After every round of reports the main loop executes `leds=leds+1` on a bus of the four LEDs, and
the first four entries of the pin table are those LEDs, so that an output may be configured on
one of them.  Nor does the program keep the pins of its sensors from being those of its outputs:
`readData` of a `DHT` pulls its pin down and up again, and a ticker sends pulses to the trigger of
every sonar.

A pin of the bus with the bit `k` is changed by one of any `2 ^ k` heartbeats in a row
(`tick_toggles`), and no other pin ever is.  So whatever happens, nothing but a message changes an
output exactly if no output is configured on one of the pins 1 to 4, or on the pin of a sensor of
one of those kinds (`heartbeat_frame_iff`). -/

namespace RemotusHardware

open CLib Transition

/-! ### Counting on a bus -/

/-- `bus=bus+1`. -/
def tick (bus : List PinName) (g : Levels) : Levels := busWrite bus (busRead bus g + 1) g

/-- The `k`-th pin of a bus that is read is bit `k`. -/
theorem busRead_testBit (g : Levels) : ∀ {bus : List PinName} {k : ℕ} {pin : PinName},
    bus[k]? = some pin → (busRead bus g).testBit k = g pin
  | q :: bus, 0, pin, h => by
      obtain rfl : q = pin := by simpa using h
      change ((g q).toNat + 2 * busRead bus g).testBit 0 = g q
      rw [Nat.testBit_zero]
      cases g q <;> simp
  | q :: bus, k + 1, pin, h => by
      have hk : bus[k]? = some pin := by simpa using h
      have ih := busRead_testBit g hk
      change ((g q).toNat + 2 * busRead bus g).testBit (k + 1) = g pin
      have hhalf : ((g q).toNat + 2 * busRead bus g) / 2 = busRead bus g := by
        have := Bool.toNat_lt (g q)
        omega
      rw [Nat.testBit_add_one, hhalf, ih]

/-- And so is it of a bus that is written. -/
theorem busWrite_testBit : ∀ {bus : List PinName} (n : ℕ) (g : Levels) {k : ℕ} {pin : PinName},
    bus.Nodup → bus[k]? = some pin → busWrite bus n g pin = n.testBit k
  | q :: bus, n, g, 0, pin, hbus, h => by
      obtain rfl : q = pin := by simpa using h
      rw [busWrite, busWrite_of_notMem _ _ (List.nodup_cons.mp hbus).1, Levels.write_same,
        Nat.testBit_zero]
  | q :: bus, n, g, k + 1, pin, hbus, h => by
      have hk : bus[k]? = some pin := by simpa using h
      rw [busWrite, busWrite_testBit (n / 2) _ (List.nodup_cons.mp hbus).2 hk, Nat.testBit_add_one]

theorem tick_testBit {bus : List PinName} (hbus : bus.Nodup) {k : ℕ} {pin : PinName}
    (hpin : bus[k]? = some pin) (g : Levels) : tick bus g pin = (busRead bus g + 1).testBit k :=
  busWrite_testBit _ g hbus hpin

theorem busRead_lt (g : Levels) : ∀ bus : List PinName, busRead bus g < 2 ^ bus.length
  | [] => by simp [busRead]
  | q :: bus => by
      have ih := busRead_lt g bus
      have := Bool.toNat_lt (g q)
      change (g q).toNat + 2 * busRead bus g < 2 ^ (bus.length + 1)
      rw [pow_succ]
      omega

/-- Every tick counts one, up to the width of the bus. -/
theorem busRead_tick {bus : List PinName} (hbus : bus.Nodup) (g : Levels) :
    busRead bus (tick bus g) = (busRead bus g + 1) % 2 ^ bus.length := by
  apply Nat.eq_of_testBit_eq
  intro k
  rw [Nat.testBit_mod_two_pow]
  by_cases hk : k < bus.length
  · have hpin : bus[k]? = some bus[k] := List.getElem?_eq_getElem hk
    rw [busRead_testBit _ hpin, tick_testBit hbus hpin]
    simp [hk]
  · have hlt : busRead bus (tick bus g) < 2 ^ k := by
      calc busRead bus (tick bus g) < 2 ^ bus.length := busRead_lt _ bus
        _ ≤ 2 ^ k := Nat.pow_le_pow_right (by norm_num) (by omega)
    rw [Nat.testBit_lt_two_pow hlt]
    simp [hk]

theorem busRead_ticks {bus : List PinName} (hbus : bus.Nodup) (g : Levels) (m : ℕ) :
    busRead bus ((tick bus)^[m] g) = (busRead bus g + m) % 2 ^ bus.length := by
  induction m with
  | zero => simpa using (Nat.mod_eq_of_lt (busRead_lt g bus)).symm
  | succ m ih =>
      rw [Function.iterate_succ_apply', busRead_tick hbus, ih, Nat.mod_add_mod]
      rfl

/-- Some number from `n` on is followed by one with another bit `k`. -/
theorem exists_testBit_ne (n k : ℕ) : ∃ m, m < 2 ^ k ∧
    (n + m + 1).testBit k ≠ (n + m).testBit k := by
  have hpos : 0 < 2 ^ k := Nat.two_pow_pos k
  have hmod := Nat.mod_lt n hpos
  have hdiv := Nat.div_add_mod n (2 ^ k)
  refine ⟨2 ^ k - 1 - n % 2 ^ k, by omega, ?_⟩
  have hlow : n + (2 ^ k - 1 - n % 2 ^ k) = 2 ^ k * (n / 2 ^ k) + (2 ^ k - 1) := by omega
  have hhigh : n + (2 ^ k - 1 - n % 2 ^ k) + 1 = 2 ^ k * (n / 2 ^ k + 1) := by
    rw [hlow, Nat.mul_add, Nat.mul_one]
    omega
  have hq : (2 ^ k * (n / 2 ^ k) + (2 ^ k - 1)) / 2 ^ k = n / 2 ^ k := by
    have hlast : (2 ^ k - 1) / 2 ^ k = 0 := Nat.div_eq_of_lt (by omega)
    rw [Nat.mul_add_div hpos, hlast, Nat.add_zero]
  rw [hhigh, hlow, Nat.testBit_eq_decide_div_mod_eq, Nat.testBit_eq_decide_div_mod_eq, hq,
    Nat.mul_div_cancel_left _ hpos]
  intro h
  have := decide_eq_decide.mp h
  omega

/-- One of any `2 ^ k` ticks in a row changes the pin with the bit `k`. -/
theorem tick_toggles {bus : List PinName} (hbus : bus.Nodup) {k : ℕ} {pin : PinName}
    (hpin : bus[k]? = some pin) (g : Levels) : ∃ m, m < 2 ^ k ∧
      tick bus ((tick bus)^[m] g) pin ≠ (tick bus)^[m] g pin := by
  have hk : k < bus.length := (List.getElem?_eq_some_iff.mp hpin).1
  obtain ⟨m, hm, hne⟩ := exists_testBit_ne (busRead bus g) k
  have hlevel (m : ℕ) : (tick bus)^[m] g pin = (busRead bus g + m).testBit k := by
    rw [← busRead_testBit ((tick bus)^[m] g) hpin, busRead_ticks hbus, Nat.testBit_mod_two_pow]
    simp [hk]
  refine ⟨m, hm, ?_⟩
  rw [← Function.iterate_succ_apply' (tick bus) m g, hlevel, hlevel]
  exact hne

/-! ### The main loop -/

/-- The program in its loop, as far as it writes pins. -/
structure Loop where
  /-- what has last been written to each pin -/
  levels : Levels
  update : Bool
  /-- what `updateSensorData` has still to write, while it runs -/
  writes : Option (List (PinName × Bool))
  /-- the trigger that a ticker has put up -/
  trigger : Option PinName

/-- No round has begun, and no interrupt. -/
def Loop.idle (levels : Levels) (update : Bool) : Loop := ⟨levels, update, none, none⟩

/-- What `readData` writes to its pin, by what it returns. -/
def readDataWrites (pin : PinName) : eError → List (PinName × Bool)
  | .ERROR_NO_PATIENCE | .BUS_BUSY => []
  | .ERROR_NONE | .ERROR_CHECKSUM => [(pin, false), (pin, true), (pin, true)]
  | _ => [(pin, false), (pin, true)]

/-- What the turn of `updateSensorData` at index `i` writes; it reads the outputs and writes none,
and so are the other sensors read. -/
def turnWrites (G : Globals) (returned : ℕ → eError) (i : ℕ) : List (PinName × Bool) :=
  match G.typesObjects[i]?, G.objectsSensors[i]? with
  | some (some type), some (some object) =>
      if strcmp type (.lit "temperature") = 0 ∨ strcmp type (.lit "humidity") = 0 then
        readDataWrites object.pin (returned i)
      else []
  | _, _ => []

/-- The pins `updateSensorData` writes, one after another, if the reads return these errors. -/
def roundWrites (G : Globals) (returned : ℕ → eError) : List (PinName × Bool) :=
  (List.range G.numSensors).flatMap (turnWrites G returned)

/-- A sonar is triggered on the pin. -/
def Triggered (G : Globals) (pin : PinName) : Prop :=
  ∃ echo, some (.SRF05 pin echo) ∈ G.objectsSensors

inductive Happening where
  | timer
  | round (returned : ℕ → eError)
  | write
  | heartbeat
  | message (md : MessageData)
  | triggerUp
  | triggerDown

/-- `timer_sensor`, the body of the `if` in the loop, the handler called by `yield`, or by any
other wait for a packet, and `_startRange`, the handler of a ticker, which nothing interrupts. -/
inductive LoopStep (G : Globals) : Loop → Happening → Loop → Prop
  | timer {s : Loop} : s.trigger = none → LoopStep G s .timer { s with update := true }
  /-- `update=0`, and `updateSensorData` begins -/
  | round {s : Loop} (returned : ℕ → eError) : s.trigger = none → s.update = true →
      s.writes = none →
      LoopStep G s (.round returned)
        { s with update := false, writes := some (roundWrites G returned) }
  | write {s : Loop} {pin : PinName} {level : Bool} {ws : List (PinName × Bool)} :
      s.trigger = none → s.writes = some ((pin, level) :: ws) →
      LoopStep G s .write { s with levels := s.levels.write pin level, writes := some ws }
  /-- `leds=leds+1`, after `updateSensorData` -/
  | heartbeat {s : Loop} : s.trigger = none → s.writes = some [] →
      LoopStep G s .heartbeat { s with levels := tick leds s.levels, writes := none }
  | message {s : Loop} {md : MessageData} {o : Outputs} : s.trigger = none → s.writes = none →
      messageArrived G md ⟨s.levels, []⟩ = .ok o →
      LoopStep G s (.message md) { s with levels := o.levels }
  /-- the pulse of `_startRange` begins -/
  | triggerUp {s : Loop} {pin : PinName} : s.trigger = none → Triggered G pin →
      LoopStep G s .triggerUp { s with levels := s.levels.write pin true, trigger := some pin }
  /-- and ends -/
  | triggerDown {s : Loop} {pin : PinName} : s.trigger = some pin →
      LoopStep G s .triggerDown { s with levels := s.levels.write pin false, trigger := none }

/-- No step but a message changes an output, in any run. -/
def OutputsFramed (G : Globals) (s : Loop) : Prop :=
  ∀ tr t, Run (LoopStep G) s tr t → ∀ a t', LoopStep G t a t' → (∀ md, a ≠ .message md) →
    ∀ rc topic pin, IsOutput G rc topic pin → t'.levels pin = t.levels pin

/-! ### The pins the program drives -/

/-- The program drives the pin of a sensor of this kind of its own accord. -/
def SensorKind.Driven (k : SensorKind) : Prop := k = .temperature ∨ k = .humidity ∨ k = .sonar

instance (k : SensorKind) : Decidable k.Driven := inferInstanceAs (Decidable (_ ∨ _ ∨ _))

section
variable {G : Globals} {ss : List Sensor}

theorem Aligned.turnWrites_eq (hG : Aligned G ss) (returned : ℕ → eError) {i : ℕ} {s : Sensor}
    (hs : ss[i]? = some s) : turnWrites G returned i =
      if s.kind = .temperature ∨ s.kind = .humidity then
        readDataWrites s.object.pin (returned i) else [] := by
  have htype : G.typesObjects[i]? = some (some s.kind.name) := by simp [hG.typesObjects, hs]
  have hobject : G.objectsSensors[i]? = some (some s.object) := by simp [hG.objectsSensors, hs]
  have hcmp (k : SensorKind) : (strcmp s.kind.name k.name = 0) = (s.kind = k) := by simp
  rw [turnWrites, htype, hobject]
  change (if strcmp s.kind.name SensorKind.temperature.name = 0 ∨
    strcmp s.kind.name SensorKind.humidity.name = 0 then _ else _) = _
  simp only [hcmp]

/-- A round writes the pins of the sensors that `readData` reads. -/
theorem Aligned.mem_roundWrites (hG : Aligned G ss) {returned : ℕ → eError}
    {w : PinName × Bool} : w ∈ roundWrites G returned ↔ ∃ i s, ss[i]? = some s ∧
      (s.kind = .temperature ∨ s.kind = .humidity) ∧
      w ∈ readDataWrites s.object.pin (returned i) := by
  simp only [roundWrites, List.mem_flatMap, List.mem_range, hG.numSensors]
  constructor
  · rintro ⟨i, hi, hw⟩
    have hs : ss[i]? = some ss[i] := List.getElem?_eq_getElem hi
    rw [hG.turnWrites_eq returned hs] at hw
    split at hw
    · exact ⟨i, ss[i], hs, ‹_›, hw⟩
    · cases hw
  · rintro ⟨i, s, hs, hk, hw⟩
    refine ⟨i, (List.getElem?_eq_some_iff.mp hs).1, ?_⟩
    rw [hG.turnWrites_eq returned hs, if_pos hk]
    exact hw

/-- On a busy bus nothing is written. -/
theorem Aligned.roundWrites_busy (hG : Aligned G ss) :
    roundWrites G (fun _ => .BUS_BUSY) = [] := by
  rw [List.eq_nil_iff_forall_not_mem]
  intro w hw
  obtain ⟨i, s, -, -, hw⟩ := hG.mem_roundWrites.mp hw
  cases hw

theorem readDataWrites_pin {pin : PinName} {err : eError} {w : PinName × Bool}
    (h : w ∈ readDataWrites pin err) : w.1 = pin := by
  have hmem : w = (pin, false) ∨ w = (pin, true) := by
    cases err <;> simp [readDataWrites] at h ⊢ <;> tauto
  rcases hmem with rfl | rfl
  · rfl
  · rfl

theorem Aligned.triggered_iff (hG : Aligned G ss) {pin : PinName} :
    Triggered G pin ↔ ∃ s ∈ ss, s.kind = .sonar ∧ s.object.pin = pin := by
  simp only [Triggered, hG.objectsSensors, List.mem_map, Option.some.injEq]
  constructor
  · rintro ⟨echo, s, hs, ho⟩
    have hcls : s.kind.cls = .SRF05 := by rw [← s.fits, ho, SensorObject.cls]
    refine ⟨s, hs, ?_, by rw [ho, SensorObject.pin]⟩
    revert hcls
    cases s.kind <;> simp [SensorKind.cls]
  · rintro ⟨s, hs, hk, rfl⟩
    have hcls : s.object.cls = .SRF05 := by rw [s.fits, hk, SensorKind.cls]
    cases ho : s.object with
    | SRF05 trigger echo => exact ⟨echo, s, hs, ho⟩
    | _ =>
        rw [ho] at hcls
        cases hcls

/-- What is being written is the pin of a sensor that the program drives. -/
structure Drives (ss : List Sensor) (s : Loop) : Prop where
  writes : ∀ ws, s.writes = some ws → ∀ w ∈ ws, ∃ x ∈ ss, x.kind.Driven ∧ x.object.pin = w.1
  trigger : ∀ pin, s.trigger = some pin → ∃ x ∈ ss, x.kind.Driven ∧ x.object.pin = pin

theorem drives_idle (ss : List Sensor) (levels : Levels) (update : Bool) :
    Drives ss (.idle levels update) :=
  ⟨fun _ h => (by cases h), fun _ h => (by cases h)⟩

theorem Drives.step (hG : Aligned G ss) {s t : Loop} {a : Happening} (hs : Drives ss s)
    (h : LoopStep G s a t) : Drives ss t := by
  cases h with
  | timer _ => exact ⟨hs.writes, hs.trigger⟩
  | round returned htrigger _ _ =>
      refine ⟨fun ws hws w hw => ?_, hs.trigger⟩
      obtain rfl := Option.some.inj hws
      obtain ⟨i, x, hx, hk, hwrite⟩ := hG.mem_roundWrites.mp hw
      exact ⟨x, List.mem_of_getElem? hx, hk.elim .inl fun hk => .inr (.inl hk),
        (readDataWrites_pin hwrite).symm⟩
  | write _ hws =>
      refine ⟨fun ws hws' w hw => ?_, hs.trigger⟩
      obtain rfl := Option.some.inj hws'
      exact hs.writes _ hws w (List.mem_cons_of_mem _ hw)
  | heartbeat _ _ => exact ⟨fun _ h => (by cases h), hs.trigger⟩
  | message _ _ _ => exact ⟨hs.writes, hs.trigger⟩
  | triggerUp _ htrig =>
      refine ⟨hs.writes, fun pin hpin => ?_⟩
      obtain rfl := Option.some.inj hpin
      obtain ⟨x, hx, hk, rfl⟩ := hG.triggered_iff.mp htrig
      exact ⟨x, hx, .inr (.inr hk), rfl⟩
  | triggerDown _ => exact ⟨hs.writes, fun _ h => (by cases h)⟩

/-- An output that is on no LED and on no pin that the program drives is left alone. -/
theorem outputsFramed_of (hG : Aligned G ss)
    (h : ∀ rc topic pin, IsOutput G rc topic pin →
      pin ∉ leds ∧ ∀ x ∈ ss, x.kind.Driven → x.object.pin ≠ pin)
    (levels : Levels) (update : Bool) : OutputsFramed G (.idle levels update) := by
  intro tr t hrun a t' hstep hmessage rc topic pin hout
  obtain ⟨hled, hother⟩ := h rc topic pin hout
  have hdrives : Drives ss t := hrun.invariant (fun _ _ _ hs (_ : True) hstep => hs.step hG hstep)
    (drives_idle ss levels update) fun _ _ => trivial
  have hne (q : PinName) (hq : ∃ x ∈ ss, x.kind.Driven ∧ x.object.pin = q) : pin ≠ q := by
    obtain ⟨x, hx, hk, rfl⟩ := hq
    exact (hother x hx hk).symm
  cases hstep with
  | timer _ => rfl
  | round _ _ _ _ => rfl
  | write _ hws =>
      exact Levels.write_ne _ _ (hne _ (hdrives.writes _ hws _ List.mem_cons_self))
  | heartbeat _ _ => exact busWrite_of_notMem _ _ hled
  | @message md o _ _ _ => exact absurd rfl (hmessage md)
  | triggerUp _ htrig =>
      obtain ⟨x, hx, hk, rfl⟩ := hG.triggered_iff.mp htrig
      exact Levels.write_ne _ _ (hne _ ⟨x, hx, .inr (.inr hk), rfl⟩)
  | triggerDown htrigger => exact Levels.write_ne _ _ (hne _ (hdrives.trigger _ htrigger))

/-! ### How an output is changed -/

/-- From a state that is reached, the outputs are framed as well. -/
theorem OutputsFramed.reached {s t : Loop} {tr : List (Loop × Happening)} (h : OutputsFramed G s)
    (hrun : Run (LoopStep G) s tr t) : OutputsFramed G t :=
  fun tr' u hrun' => h (tr ++ tr') u (hrun.append hrun')

/-- Whatever is still to be written to an output is the level it has. -/
theorem OutputsFramed.writes_eq {rc : ℕ} {topic : CString} {pin : PinName}
    (hout : IsOutput G rc topic pin) {ws : List (PinName × Bool)} :
    ∀ {s : Loop}, OutputsFramed G s → s.trigger = none → s.writes = some ws →
      ∀ b, (pin, b) ∈ ws → b = s.levels pin := by
  induction ws with
  | nil => exact fun _ _ _ _ hb => absurd hb List.not_mem_nil
  | cons w ws ih =>
      obtain ⟨q, level⟩ := w
      intro s h htrigger hws b hb
      have hstep := LoopStep.write (G := G) htrigger hws
      have hsame := h _ _ (.nil s) _ _ hstep (by simp) rc topic pin hout
      rcases List.mem_cons.mp hb with hb | hb
      · obtain ⟨rfl, rfl⟩ := Prod.mk.inj hb
        rw [← hsame]
        exact (Levels.write_same _ _ _).symm
      · rw [← hsame]
        exact ih (h.reached (.single hstep)) htrigger rfl b hb

/-- The timer fires and a round begins. -/
theorem run_round (G : Globals) (levels : Levels) (update : Bool) (returned : ℕ → eError) :
    ∃ tr, Run (LoopStep G) (.idle levels update) tr
      ⟨levels, false, some (roundWrites G returned), none⟩ :=
  ⟨_, .cons (.timer rfl) (.single (.round returned rfl rfl rfl))⟩

/-- An output on the pin of a temperature or humidity sensor is changed in some run. -/
theorem not_outputsFramed_of_read (hG : Aligned G ss) {rc : ℕ} {topic : CString} {x : Sensor}
    (hx : x ∈ ss) (hk : x.kind = .temperature ∨ x.kind = .humidity)
    (hout : IsOutput G rc topic x.object.pin) (levels : Levels) (update : Bool) :
    ¬ OutputsFramed G (.idle levels update) := by
  intro h
  obtain ⟨i, hi⟩ := List.getElem?_of_mem hx
  obtain ⟨tr, hrun⟩ := run_round G levels update fun _ => .ERROR_NOT_PRESENT
  have hlevel (b : Bool) (hb : (x.object.pin, b) ∈
      readDataWrites x.object.pin .ERROR_NOT_PRESENT) : b = levels x.object.pin :=
    (h.reached hrun).writes_eq hout rfl rfl b (hG.mem_roundWrites.mpr ⟨i, x, hi, hk, hb⟩)
  have hlow := hlevel false (by simp [readDataWrites])
  have hhigh := hlevel true (by simp [readDataWrites])
  exact absurd (hlow.trans hhigh.symm) Bool.false_ne_true

/-- An output on the trigger of a sonar is changed by the next pulse. -/
theorem not_outputsFramed_of_triggered {rc : ℕ} {topic : CString} {pin : PinName}
    (hout : IsOutput G rc topic pin) (htrig : Triggered G pin) (levels : Levels)
    (update : Bool) : ¬ OutputsFramed G (.idle levels update) := by
  intro h
  have hup := LoopStep.triggerUp (s := .idle levels update) rfl htrig
  have hhigh := h _ _ (.nil _) _ _ hup (by simp) rc topic pin hout
  have hlow := h _ _ (.single hup) _ _ (.triggerDown rfl) (by simp) rc topic pin hout
  rw [hhigh] at hlow
  simp only [Levels.write_same, Loop.idle] at hhigh hlow
  exact absurd (hlow.trans hhigh.symm) Bool.false_ne_true

/-- Rounds in which no sensor is read, with nothing between them but the timer. -/
theorem run_rounds (hG : Aligned G ss) (g : Levels) (m : ℕ) :
    ∃ tr, Run (LoopStep G) ⟨g, false, some [], none⟩ tr
      ⟨(tick leds)^[m] g, false, some [], none⟩ := by
  induction m with
  | zero => exact ⟨[], .nil _⟩
  | succ m ih =>
      obtain ⟨tr, hrun⟩ := ih
      obtain ⟨tr', hround⟩ := run_round G ((tick leds)^[m + 1] g) false fun _ => .BUS_BUSY
      rw [hG.roundWrites_busy] at hround
      rw [Function.iterate_succ_apply'] at hround ⊢
      exact ⟨_, hrun.append (.cons (.heartbeat rfl rfl) hround)⟩

/-- An output on a LED is changed by one of the next heartbeats. -/
theorem not_outputsFramed_of_mem (hG : Aligned G ss) {rc : ℕ} {topic : CString} {pin : PinName}
    (hout : IsOutput G rc topic pin) (hpin : pin ∈ leds) (levels : Levels) (update : Bool) :
    ¬ OutputsFramed G (.idle levels update) := by
  intro h
  obtain ⟨k, hk⟩ := List.getElem?_of_mem hpin
  obtain ⟨m, -, hne⟩ := tick_toggles (by decide) hk levels
  obtain ⟨tr₀, hround⟩ := run_round G levels update fun _ => .BUS_BUSY
  rw [hG.roundWrites_busy] at hround
  obtain ⟨tr, hrun⟩ := run_rounds hG levels m
  exact hne ((h.reached (hround.append hrun)) _ _ (.nil _) _ _ (.heartbeat rfl rfl) (by simp)
    rc topic pin hout)

theorem outputsFramed_iff (hG : Aligned G ss) (levels : Levels) (update : Bool) :
    OutputsFramed G (.idle levels update) ↔ ∀ rc topic pin, IsOutput G rc topic pin →
      pin ∉ leds ∧ ∀ x ∈ ss, x.kind.Driven → x.object.pin ≠ pin := by
  constructor
  · intro h rc topic pin hout
    refine ⟨fun hpin => not_outputsFramed_of_mem hG hout hpin levels update h, ?_⟩
    rintro x hx hk rfl
    rcases hk with hk | hk | hk
    · exact not_outputsFramed_of_read hG hx (.inl hk) hout levels update h
    · exact not_outputsFramed_of_read hG hx (.inr hk) hout levels update h
    · exact not_outputsFramed_of_triggered hout (hG.triggered_iff.mpr ⟨x, hx, hk, rfl⟩) levels
        update h
  · exact fun h => outputsFramed_of hG h levels update

end

/-! ### Configurations -/

/-- The number of the pin of an element. -/
def Value.PinNumber (e : Value) (p : ℤ) : Prop :=
  ∃ x, e.field "pin" = .number x ∧ x.toInt = .ok p

/-- No output is configured on one of the pins 1 to 4, or on an entry of the pin table that is
also the pin of a temperature or humidity sensor or the trigger of a sonar. -/
def OutputsApart (v : Value) : Prop :=
  ∀ list, v.field "configSensors" = .array list → ∀ e ∈ list, e.sensorKind = some .dOut →
    ∀ p, e.PinNumber p → ¬ (1 ≤ p ∧ p ≤ 4) ∧
      ∀ e' ∈ list, ∀ k, e'.sensorKind = some k → k.Driven →
        ∀ p', e'.PinNumber p' → pinAt p' ≠ pinAt p

/-- The first four entries of the table are the LEDs. -/
theorem pinAt_mem_leds {p : ℤ} {pin : PinName} (h : pinAt p = .ok pin) :
    pin ∈ leds ↔ 1 ≤ p ∧ p ≤ 4 := by
  unfold pinAt at h
  split at h
  case isFalse => cases h
  rename_i hp
  rw [← Except.ok.inj h]
  obtain ⟨n, rfl⟩ : ∃ n : ℕ, p = n + 1 := ⟨(p - 1).toNat, by omega⟩
  have hn : n < 35 := by omega
  interval_cases n <;> decide

theorem Value.PinNumber.unique {e : Value} {p p' : ℤ} (h : e.PinNumber p) (h' : e.PinNumber p') :
    p = p' := by
  obtain ⟨x, hx, hp⟩ := h
  obtain ⟨x', hx', hp'⟩ := h'
  obtain rfl := Value.field_number_unique hx hx'
  exact Except.ok.inj (hp.symm.trans hp')

/-- A sensor is built on the entry its element names. -/
theorem Describes.pin {e : Value} {s : Sensor} (h : Describes e s) :
    ∃ p, e.PinNumber p ∧ pinAt p = .ok s.object.pin := by
  obtain ⟨x, p, hx, hp, ho⟩ := h.object
  refine ⟨p, ⟨x, hx, hp⟩, ?_⟩
  rw [construct_name] at ho
  cases hk : s.kind with
  | sonar =>
      rw [hk, build] at ho
      obtain ⟨_, -, ho⟩ := bind_eq_ok.mp ho
      obtain ⟨_, -, ho⟩ := bind_eq_ok.mp ho
      obtain ⟨_, -, ho⟩ := bind_eq_ok.mp ho
      obtain ⟨pin, hpin, ho⟩ := bind_eq_ok.mp ho
      obtain ⟨_, -, ho⟩ := bind_eq_ok.mp ho
      rw [hpin, ← Except.ok.inj ho, SensorObject.pin]
  | _ =>
      rw [hk, build] at ho
      obtain ⟨pin, hpin, ho⟩ := bind_eq_ok.mp ho
      rw [hpin, ← Except.ok.inj ho, SensorObject.pin]

section
variable {v : Value} {G : Globals}

/-- The outputs of the tables keep apart exactly if those of the configuration do. -/
theorem outputsApart_iff {list : List Value} {ss : List Sensor}
    (hlist : v.field "configSensors" = .array list) (hd : List.Forall₂ Describes list ss)
    (hG : Aligned G ss) : OutputsApart v ↔ ∀ rc topic pin, IsOutput G rc topic pin →
      pin ∉ leds ∧ ∀ x ∈ ss, x.kind.Driven → x.object.pin ≠ pin := by
  have helement (i : ℕ) {s : Sensor} (hs : ss[i]? = some s) : ∃ e, list[i]? = some e ∧
      Describes e s := forall₂_getElem? hd.flip hs
  constructor
  · intro happart rc topic pin hout
    obtain ⟨s, hs, hk, -, rfl⟩ := hG.isOutput_iff.mp hout
    obtain ⟨e, he, hdes⟩ := helement rc hs
    obtain ⟨p, hp, hpin⟩ := hdes.pin
    obtain ⟨hled, hother⟩ := happart list hlist e (List.mem_of_getElem? he)
      (hk ▸ hdes.sensorKind) p hp
    refine ⟨mt (pinAt_mem_leds hpin).mp hled, fun x hx hdriven heq => ?_⟩
    obtain ⟨i, hi⟩ := List.getElem?_of_mem hx
    obtain ⟨e', he', hdes'⟩ := helement i hi
    obtain ⟨p', hp', hpin'⟩ := hdes'.pin
    exact hother e' (List.mem_of_getElem? he') _ hdes'.sensorKind hdriven p' hp'
      (by rw [hpin', hpin, heq])
  · intro hout list' hlist' e he hkind p hp
    obtain rfl := Value.field_array_unique hlist hlist'
    obtain ⟨i, hi⟩ := List.getElem?_of_mem he
    obtain ⟨s, hs, hdes⟩ := forall₂_getElem? hd hi
    have hk : s.kind = .dOut := Option.some.inj (hdes.sensorKind.symm.trans hkind)
    obtain ⟨p₁, hp₁, hpin⟩ := hdes.pin
    obtain rfl := hp.unique hp₁
    obtain ⟨hled, hother⟩ :=
      hout i s.topic s.object.pin (hG.isOutput_iff.mpr ⟨s, hs, hk, rfl, rfl⟩)
    refine ⟨mt (pinAt_mem_leds hpin).mpr hled, fun e' he' k hk' hdriven p' hp' heq => ?_⟩
    obtain ⟨j, hj⟩ := List.getElem?_of_mem he'
    obtain ⟨x, hx, hdes'⟩ := forall₂_getElem? hd hj
    obtain rfl : x.kind = k := Option.some.inj (hdes'.sensorKind.symm.trans hk')
    obtain ⟨p₂, hp₂, hpin'⟩ := hdes'.pin
    obtain rfl := hp'.unique hp₂
    exact hother x (List.mem_of_getElem? hx) hdriven
      (Except.ok.inj (hpin'.symm.trans (heq.trans hpin)))

/-- From any levels, nothing but a message changes an output in any run, exactly if no output is
configured on a LED or on a pin that the program drives. -/
theorem heartbeat_frame_iff (hv : parse v = .ok G) (levels : Levels) (update : Bool) :
    OutputsFramed G (.idle levels update) ↔ OutputsApart v := by
  obtain ⟨-, list, ss, hlist, hd, hG⟩ := parse_ok hv
  rw [outputsFramed_iff hG, outputsApart_iff hlist hd hG]

end

theorem heartbeat_frame_iff_farm :
    OutputsFramed (globalsOf farmSensors) (.idle (fun _ => false) false) ↔
      OutputsApart farmConfig :=
  heartbeat_frame_iff parse_farmConfig _ _

/-- An output on pin 4 goes on at the first heartbeat, with no message ever received. -/
theorem heartbeat_sets_led4 :
    parse (config [element .dOut "lamp" 4]) = .ok (globalsOf [outputSensor "lamp" .LED4]) ∧
    ¬ OutputsFramed (globalsOf [outputSensor "lamp" .LED4]) (.idle (fun _ => false) false) := by
  refine ⟨rfl, ?_⟩
  intro h
  have hout : IsOutput (globalsOf [outputSensor "lamp" .LED4]) 0 (.lit "lamp") .LED4 :=
    ⟨rfl, rfl, rfl⟩
  have hstays := h _ _ (.cons (.timer rfl) (.single (.round (fun _ => .BUS_BUSY) rfl rfl rfl)))
    .heartbeat _ (.heartbeat rfl rfl) (by simp) 0 _ _ hout
  have hset : tick leds (fun _ => false) .LED4 = true := by decide
  exact absurd (hset.symm.trans hstays) (by decide)

end RemotusHardware
