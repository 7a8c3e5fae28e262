import RemotusHardware.Update

/-! # Which read a temperature or a humidity comes from

The branch for the two kinds of sensors that share the class `DHT` reads its object into two
global variables and publishes one of them.  A read that fails leaves both as they were, and the
message is sent all the same, so that what a sensor publishes is what the last successful read
has returned, whichever sensor made it, and zero before the first.

A run of rounds is a list of turns of the loop, each with the sensor it is about and the outcome
of `readData` there.  The value published at a turn is the one of `lastRead` of the turns up to
it (`runTexts_getElem?`); a topic sees only reads of its own pin if at each of its turns the last
successful read is one of that pin (`runRounds_isolated`). -/

namespace RemotusHardware

open CLib

/-! ### Runs of rounds -/

section
variable {F σ : Type} (u : FloatUnit F) (G : Globals) (send : CString → Message → σ → σ)

/-- `updateSensorData`, called once for each of the readings. -/
def runRounds : List (Readings F) → Round F σ → Except Stop (Round F σ)
  | [], t => pure t
  | r :: rs, t => do runRounds rs (← updateSensorData u G r send t)

end

/-- What has been published, in order. -/
def publishLog (topic : CString) (message : Message) (log : List (CString × Message)) :
    List (CString × Message) :=
  log ++ [(topic, message)]

section
variable {F : Type} (u : FloatUnit F)

/-- The topics and texts of a run. -/
def runTexts (ss : List Sensor) : List (Readings F) → F × F → List (CString × List UInt8)
  | [], _ => []
  | r :: rs, g => roundTexts u r 0 ss g ++ runTexts ss rs (roundGlobals r 0 ss g)

/-- The global readings after a run. -/
def runGlobals (ss : List Sensor) : List (Readings F) → F × F → F × F
  | [], g => g
  | r :: rs, g => runGlobals ss rs (roundGlobals r 0 ss g)

theorem sendAll_append {σ : Type} (send : CString → Message → σ → σ)
    (xs ys : List (CString × List UInt8)) (a : σ) :
    sendAll send (xs ++ ys) a = sendAll send ys (sendAll send xs a) := List.foldl_append

theorem runRounds_eq {σ : Type} {G : Globals} {ss : List Sensor} {send : CString → Message → σ → σ}
    (h : Aligned G ss) : ∀ (rs : List (Readings F)) (t : Round F σ),
    runRounds u G send rs t =
      .ok ⟨(runGlobals ss rs (t.temperatura, t.humedad)).1,
        (runGlobals ss rs (t.temperatura, t.humedad)).2,
        sendAll send (runTexts u ss rs (t.temperatura, t.humedad)) t.out⟩
  | [], _ => rfl
  | r :: rs, t => by
      rw [runRounds, updateSensorData_eq h, ok_bind, runRounds_eq h rs]
      simp only [runGlobals, runTexts, sendAll_append]

theorem sendAll_publishLog (texts : List (CString × List UInt8)) (log : List (CString × Message)) :
    sendAll publishLog texts log = log ++ texts.map fun m => (m.1, messageOf m.2) := by
  induction texts generalizing log with
  | nil => simp [sendAll]
  | cons m texts ih =>
      have hstep : sendAll publishLog (m :: texts) log =
          sendAll publishLog texts (log ++ [(m.1, messageOf m.2)]) := rfl
      rw [hstep, ih, List.map_cons, List.append_assoc, List.singleton_append]

end

/-! ### Turns -/

/-- A sensor read from a `DHT`. -/
def Sensor.IsDht (s : Sensor) : Prop := s.kind = .temperature ∨ s.kind = .humidity

instance (s : Sensor) : Decidable s.IsDht := inferInstanceAs (Decidable (_ ∨ _))

/-- A turn of the loop: its sensor, and what `readData` returns if there is a `DHT` to read. -/
abbrev Turn (F : Type) := Sensor × DhtRead F

/-- A turn at which `readData` succeeds. -/
def Turn.Reads {F : Type} (turn : Turn F) : Prop := turn.1.IsDht ∧ turn.2.state = 0

instance {F : Type} (turn : Turn F) : Decidable turn.Reads := inferInstanceAs (Decidable (_ ∧ _))

section
variable {F : Type} (u : FloatUnit F)

def roundTurns (r : Readings F) : ℕ → List Sensor → List (Turn F)
  | _, [] => []
  | i, s :: ss => (s, r.dht i) :: roundTurns r (i + 1) ss

/-- The turns of a run, round by round. -/
def turns (ss : List Sensor) (rs : List (Readings F)) : List (Turn F) :=
  rs.flatMap fun r => roundTurns r 0 ss

/-- The last turn at which a read succeeded. -/
def lastRead (ts : List (Turn F)) : Option (Turn F) := ts.reverse.find? fun turn => turn.Reads

/-- What a turn leaves in the global readings. -/
def Turn.refresh (g : F × F) (turn : Turn F) : F × F :=
  if turn.Reads then (turn.2.temperature, turn.2.humidity) else g

theorem roundTurns_length (r : Readings F) : ∀ (i : ℕ) (ss : List Sensor),
    (roundTurns r i ss).length = ss.length
  | _, [] => rfl
  | i, s :: ss => by
      rw [roundTurns, List.length_cons, roundTurns_length r (i + 1) ss, List.length_cons]

theorem roundGlobals_eq (r : Readings F) : ∀ (i : ℕ) (ss : List Sensor) (g : F × F),
    roundGlobals r i ss g = (roundTurns r i ss).foldl Turn.refresh g
  | _, [], _ => rfl
  | i, s :: ss, g => by rw [roundGlobals, roundGlobals_eq r (i + 1) ss]; rfl

/-- After some turns the globals hold what the last successful read has returned. -/
theorem foldl_refresh (ts : List (Turn F)) (g : F × F) :
    ts.foldl Turn.refresh g =
      ((lastRead ts).map fun turn => (turn.2.temperature, turn.2.humidity)).getD g := by
  induction ts using List.reverseRecOn with
  | nil => rfl
  | append_singleton ts turn ih =>
      rw [List.foldl_append, ih]
      by_cases hr : turn.Reads <;> simp [lastRead, Turn.refresh, hr]

theorem lastRead_mem {ts : List (Turn F)} {turn : Turn F} (h : lastRead ts = some turn) :
    turn ∈ ts ∧ turn.Reads := by
  refine ⟨List.mem_reverse.mp (List.mem_of_find?_eq_some h), ?_⟩
  simpa using List.find?_some h

/-- The text made of the global readings for one of the two kinds. -/
def dhtText (s : Sensor) (g : F × F) : List UInt8 :=
  if s.kind = .temperature then fixedText u 1 g.1 else formatD 0 (u.toInt g.2)

theorem sensorText_dht (r : Readings F) (i : ℕ) {s : Sensor} (h : s.IsDht) (g : F × F) :
    sensorText u r i s g = dhtText u s g := by
  rcases h with h | h <;> simp [sensorText, dhtText, h]

/-- A message of a round belongs to the turn at its position. -/
theorem roundTexts_getElem? (r : Readings F) : ∀ (i : ℕ) (ss : List Sensor) (g : F × F) (k : ℕ)
    (m : CString × List UInt8), (roundTexts u r i ss g)[k]? = some m →
    ∃ turn, (roundTurns r i ss)[k]? = some turn ∧ m.1 = turn.1.topic ∧
      (turn.1.IsDht →
        m.2 = dhtText u turn.1 (((roundTurns r i ss).take (k + 1)).foldl Turn.refresh g))
  | _, [], _, _, _, h => by simp [roundTexts] at h
  | i, s :: ss, g, 0, m, h => by
      obtain rfl := Option.some.inj h
      exact ⟨_, rfl, rfl, fun hs => sensorText_dht u r i hs _⟩
  | i, s :: ss, g, k + 1, m, h =>
      roundTexts_getElem? r (i + 1) ss (refresh r i s g) k m h

/-- A message of a run belongs to the turn at its position, and is made of what the turns up to
it have left in the globals. -/
theorem runTexts_getElem? (ss : List Sensor) : ∀ (rs : List (Readings F)) (g : F × F) (k : ℕ)
    (m : CString × List UInt8), (runTexts u ss rs g)[k]? = some m →
    ∃ turn, (turns ss rs)[k]? = some turn ∧ m.1 = turn.1.topic ∧
      (turn.1.IsDht → m.2 = dhtText u turn.1 (((turns ss rs).take (k + 1)).foldl Turn.refresh g))
  | [], _, _, _, h => by simp [runTexts] at h
  | r :: rs, g, k, m, h => by
      have hturns : turns ss (r :: rs) = roundTurns r 0 ss ++ turns ss rs := rfl
      have hlen := roundTurns_length r 0 ss
      have hlen' := roundTexts_length u r 0 ss g
      rw [runTexts] at h
      rw [hturns]
      by_cases hk : k < ss.length
      · rw [List.getElem?_append_left (by omega)] at h ⊢
        rw [List.take_append_of_le_length (by omega)]
        exact roundTexts_getElem? u r 0 ss g k m h
      · rw [List.getElem?_append_right (by omega), hlen'] at h
        rw [List.getElem?_append_right (by omega), hlen, List.take_append,
          List.take_of_length_le (by omega), hlen, List.foldl_append, ← roundGlobals_eq,
          show k + 1 - ss.length = k - ss.length + 1 by omega]
        exact runTexts_getElem? ss rs (roundGlobals r 0 ss g) (k - ss.length) m h

/-! ### Isolation -/

/-- Every value on the topic of a temperature or humidity sensor has been returned by a
successful read of an object on its pin, at that turn or before. -/
def Isolated (ss : List Sensor) (rs : List (Readings F)) (log : List (CString × Message)) : Prop :=
  ∀ (k : ℕ) (m : CString × Message), log[k]? = some m → ∀ s ∈ ss, s.IsDht → m.1 = s.topic →
    ∃ j ≤ k, ∃ turn : Turn F, (turns ss rs)[j]? = some turn ∧ turn.Reads ∧
      turn.1.object.pin = s.object.pin ∧
      (m.2 = messageOf (fixedText u 1 turn.2.temperature) ∨
        m.2 = messageOf (formatD 0 (u.toInt turn.2.humidity)))

/-- Whenever something is published on the topic of a temperature or humidity sensor, it is by
such a sensor, and the last successful read was of an object on the pin of that topic. -/
def Unmixed (ss : List Sensor) (rs : List (Readings F)) : Prop :=
  ∀ (k : ℕ) (turn : Turn F), (turns ss rs)[k]? = some turn →
    ∀ s ∈ ss, s.IsDht → turn.1.topic = s.topic →
    turn.1.IsDht ∧ ∃ last, lastRead ((turns ss rs).take (k + 1)) = some last ∧
      last.1.object.pin = s.object.pin

/-- Of the sensors configured, a run in which reads are not mixed publishes on the topic of a
temperature or humidity only what was read from its pin. -/
theorem runRounds_isolated {v : Value} {G : Globals} (hv : parse v = .ok G) :
    ∃ ss, Aligned G ss ∧ ∀ rs : List (Readings F), Unmixed ss rs →
      ∃ t, runRounds u G publishLog rs ⟨u.lit 0, u.lit 0, []⟩ = .ok t ∧ Isolated u ss rs t.out := by
  obtain ⟨-, -, ss, -, -, hG⟩ := parse_ok hv
  refine ⟨ss, hG, fun rs hrs => ⟨_, runRounds_eq u hG rs _, ?_⟩⟩
  intro k m hm s hs hdht htopic
  rw [sendAll_publishLog, List.nil_append, List.getElem?_map, Option.map_eq_some_iff] at hm
  obtain ⟨text, htext, rfl⟩ := hm
  obtain ⟨turn, hturn, hown, hvalue⟩ := runTexts_getElem? u ss rs _ k text htext
  obtain ⟨hturndht, last, hlast, hpin⟩ := hrs k turn hturn s hs hdht (hown.symm.trans htopic)
  obtain ⟨hmem, hreads⟩ := lastRead_mem hlast
  obtain ⟨j, hj⟩ := List.mem_iff_getElem?.mp hmem
  rw [List.getElem?_take] at hj
  split at hj
  case isFalse => cases hj
  case isTrue hjk =>
  refine ⟨j, by omega, last, hj, hreads, hpin, ?_⟩
  have := hvalue hturndht
  rw [foldl_refresh, hlast] at this
  simp only [this, dhtText, Option.map_some, Option.getD_some]
  split
  · exact .inl rfl
  · exact .inr rfl

end

/-! ### Two thermometers -/

def thermometer (topic : String) (pin : PinName) : Sensor :=
  ⟨.temperature, .lit topic, .DHT pin 22, rfl⟩

/-- A thermometer in a garden, another one in a house. -/
def thermometers : List Sensor := [thermometer "garden" .p10, thermometer "house" .p11]

/-- A round in which the reads of the two come to `garden` and `house`. -/
def dhtReadings (garden house : DhtRead ℚ) : Readings ℚ :=
  { steadyReadings 0 (fun _ => false) with dht := fun i => if i = 0 then garden else house }

theorem runRounds_isolated_thermometers :
    ∃ t, runRounds exactUnit (globalsOf thermometers) publishLog
        [dhtReadings ⟨0, 18, 40⟩ ⟨0, 21, 55⟩] ⟨0, 0, []⟩ = .ok t ∧
      Isolated exactUnit thermometers [dhtReadings ⟨0, 18, 40⟩ ⟨0, 21, 55⟩] t.out := by
  obtain ⟨ss, hss, h⟩ := runRounds_isolated exactUnit
    (v := config [element .temperature "garden" 10, element .temperature "house" 11])
    (G := globalsOf thermometers) rfl
  obtain rfl := hss.unique (globalsOf_aligned thermometers)
  apply h _
  intro k turn hturn s hs _ htopic
  match k, hturn with
  | 0, hturn =>
      obtain rfl := Option.some.inj hturn
      fin_cases hs
      · exact ⟨.inl rfl, _, rfl, rfl⟩
      · exact absurd htopic (by decide)
  | 1, hturn =>
      obtain rfl := Option.some.inj hturn
      fin_cases hs
      · exact absurd htopic (by decide)
      · exact ⟨.inl rfl, _, rfl, rfl⟩

/-- The read of the thermometer in the house fails, and it publishes the garden's temperature. -/
theorem failed_read_publishes_other_pin :
    parse (config [element .temperature "garden" 10, element .temperature "house" 11]) =
        .ok (globalsOf thermometers) ∧
      ∃ t, runRounds exactUnit (globalsOf thermometers) publishLog
          [dhtReadings ⟨0, 18, 40⟩ ⟨1, 21, 55⟩] ⟨0, 0, []⟩ = .ok t ∧
        ¬ Isolated exactUnit thermometers [dhtReadings ⟨0, 18, 40⟩ ⟨1, 21, 55⟩] t.out := by
  refine ⟨rfl, _, runRounds_eq exactUnit (globalsOf_aligned thermometers) _ _, ?_⟩
  intro h
  obtain ⟨j, hj, turn, hturn, hreads, hpin, -⟩ :=
    h 1 _ rfl (thermometer "house" .p11) (by simp [thermometers]) (.inl rfl) rfl
  match j, hturn with
  | 0, hturn =>
      obtain rfl := Option.some.inj hturn
      exact absurd hpin (by decide)
  | 1, hturn =>
      obtain rfl := Option.some.inj hturn
      exact absurd hreads.2 (by decide)

end RemotusHardware
