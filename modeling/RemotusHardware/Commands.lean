import RemotusHardware.Base.Transition
import RemotusHardware.Delivery

/-! # Commands to an output and the echo of its reports

The program subscribes to the topics of its outputs and publishes the state of the outputs to
the very same topics, so that a broker hands every report back to it, where `messageArrived`
takes it for a command.  `System` is the device, its users and the broker: commands and reports
on their way to the broker, the queue of deliveries and the pins.  Messages of one sender to the
broker keep their order, those of the device here, while the users are many and theirs do not.

A report does no harm if it says what the pin will be once everything ahead of it has been
delivered (`Timely`).  In a run all of whose reports are timely a pin has the level of the last
command delivered to it (`run_levels`); a report overtaken by a command undoes it
(`stale_report_undoes_command`). -/

namespace RemotusHardware

open CLib Transition

/-! ### The system -/

/-- A message on its way. -/
structure Parcel where
  topic : CString
  payload : List UInt8
  fromUser : Bool
deriving DecidableEq

structure System where
  levels : Levels
  /-- commands on their way to the broker -/
  commands : List Parcel
  /-- reports on their way to the broker -/
  reports : List Parcel
  /-- what the broker has accepted and not yet delivered -/
  queue : List Parcel
  /-- the last command delivered, by topic -/
  last : CString → Option Bool

/-- The text of a level, with or without a NUL behind it. -/
def digitText (b terminated : Bool) : List UInt8 :=
  decimal b.toNat ++ if terminated then [0] else []

/-- `leds`, from its least significant bit on. -/
def leds : List PinName := [.LED4, .LED3, .LED2, .LED1]

/-- `BusOut::read` and `BusOut::write`. -/
def busRead (bus : List PinName) (g : Levels) : ℕ :=
  bus.foldr (fun pin n => (g pin).toNat + 2 * n) 0

def busWrite : List PinName → ℕ → Levels → Levels
  | [], _, g => g
  | pin :: bus, n, g => busWrite bus (n / 2) (g.write pin (n % 2 = 1))

/-- A round in which nothing but the levels is looked at. -/
def levelReadings (g : Levels) : Readings Unit := steadyReadings () g

/-- A report is sent. -/
def sendReport (topic : CString) (message : Message) (reports : List Parcel) : List Parcel :=
  reports ++ [⟨topic, message.payload.take message.payloadlen, false⟩]

inductive Action where
  | publish (rc : ℕ) (b terminated : Bool)
  | report (rc : ℕ)
  | leds
  | acceptCommand (i : ℕ)
  | acceptReport
  | deliver (qos packetid : ℕ) (rest : List UInt8)

/-- The packet of a delivery. -/
def Parcel.packet (p : Parcel) (qos packetid : ℕ) : List UInt8 :=
  publishPacket 0 qos 0 packetid p.topic.bytes p.payload

inductive Step (G : Globals) : System → Action → System → Prop
  /-- a user publishes `0` or `1` to the topic of an output -/
  | publish {s : System} {rc : ℕ} {topic : CString} {pin : PinName} (b terminated : Bool) :
      IsOutput G rc topic pin →
      Step G s (.publish rc b terminated)
        { s with commands := s.commands ++ [⟨topic, digitText b terminated, true⟩] }
  /-- the branch of `updateSensorData` for an output publishes its level -/
  | report {s : System} {rc : ℕ} {topic : CString} {pin : PinName} {t : Round Unit (List Parcel)} :
      IsOutput G rc topic pin →
      dOut G (levelReadings s.levels) sendReport rc ⟨(), (), s.reports⟩ = .ok t →
      Step G s (.report rc) { s with reports := t.out }
  /-- `leds=leds+1` after a round -/
  | leds {s : System} :
      Step G s .leds { s with levels := busWrite leds (busRead leds s.levels + 1) s.levels }
  | acceptCommand {s : System} {post : List Parcel} {p : Parcel} (pre : List Parcel) :
      s.commands = pre ++ p :: post →
      Step G s (.acceptCommand pre.length)
        { s with commands := pre ++ post, queue := s.queue ++ [p] }
  | acceptReport {s : System} {p : Parcel} {ps : List Parcel} :
      s.reports = p :: ps →
      Step G s .acceptReport { s with reports := ps, queue := s.queue ++ [p] }
  /-- `yield` delivers the head of the queue, `rest` being left behind it in the read buffer -/
  | deliver {s : System} {p : Parcel} {ps : List Parcel} {md : MessageData} {o : Outputs}
      (qos packetid : ℕ) (rest : List UInt8) :
      s.queue = p :: ps → qos ≤ 1 → packetid < 65536 →
      receivePublish (p.packet qos packetid) rest = .ok md →
      messageArrived G md ⟨s.levels, []⟩ = .ok o →
      Step G s (.deliver qos packetid rest)
        { s with
          levels := o.levels
          queue := ps
          last := if p.fromUser then Function.update s.last p.topic (commandOf p.payload)
            else s.last }
  /-- the head of the queue does not fit the read buffer, and anything may come of it -/
  | overrun {s t : System} {p : Parcel} {ps : List Parcel} {why : Stop} (qos packetid : ℕ)
      (rest : List UInt8) :
      s.queue = p :: ps → qos ≤ 1 → packetid < 65536 →
      receivePublish (p.packet qos packetid) rest = .error why →
      Step G s (.deliver qos packetid rest) t

/-- Nothing is on its way and no command has been delivered. -/
structure Initial (s : System) : Prop where
  commands : s.commands = []
  reports : s.reports = []
  queue : s.queue = []
  last : ∀ topic, s.last topic = none

/-! ### Reports in time -/

/-- The command last in a queue for a topic. -/
def lastCommand (topic : CString) : List Parcel → Option Bool
  | [] => none
  | p :: ps => (lastCommand topic ps).or
      (if p.fromUser ∧ p.topic = topic then commandOf p.payload else none)

/-- The level a pin will have when the queue has been delivered. -/
def System.pending (s : System) (topic : CString) (pin : PinName) : Bool :=
  (lastCommand topic s.queue).getD (s.levels pin)

/-- A report is accepted by the broker while it says what the pin is going to be; a packet that is
delivered fits the read buffer, which holds no digit behind a command that comes without a NUL. -/
def Timely (G : Globals) (s : System) : Action → Prop
  | .acceptReport => ∀ p ∈ s.reports.head?, ∀ rc pin, IsOutput G rc p.topic pin →
      commandOf p.payload = some (s.pending p.topic pin)
  | .deliver qos packetid rest => ∀ p ∈ s.queue.head?,
      (p.packet qos packetid).length ≤ MAX_MQTT_PACKET_SIZE ∧
        (p.payload.getLast? ≠ some 0 → ∀ b ∈ rest.head?, isDigit b = false)
  | _ => True

/-- The outputs are told apart by their topics and their pins, and none of them is a LED. -/
structure Separate (G : Globals) : Prop where
  topics : ∀ rc topic pin rc' topic' pin', IsOutput G rc topic pin → IsOutput G rc' topic' pin' →
    rc ≠ rc' → ¬ topic.bytes <+: topic'.bytes
  pins : ∀ rc topic pin rc' topic' pin', IsOutput G rc topic pin → IsOutput G rc' topic' pin' →
    rc ≠ rc' → pin ≠ pin'
  leds : ∀ rc topic pin, IsOutput G rc topic pin → pin ∉ leds

/-! ### What a step does to the pins -/

theorem Levels.write_self (g : Levels) (pin : PinName) : g.write pin (g pin) = g := by
  funext q
  by_cases hq : q = pin <;> simp [Levels.write, hq]

theorem busWrite_of_notMem {pin : PinName} : ∀ {bus : List PinName} (n : ℕ) (g : Levels),
    pin ∉ bus → busWrite bus n g pin = g pin
  | [], _, _, _ => rfl
  | q :: bus, n, g, h => by
      simp only [List.mem_cons, not_or] at h
      rw [busWrite, busWrite_of_notMem _ _ h.2, Levels.write_ne _ _ h.1]

/-- The text of a level is a command for it, if no digit follows. -/
theorem commandOf_digitText (b terminated : Bool) (rest : List UInt8)
    (h : terminated = false → ∀ c ∈ rest.head?, isDigit c = false) :
    commandOf (digitText b terminated ++ rest) = some b := by
  have hatoi : atoi (digitText b terminated ++ rest) = b.toNat := by
    rw [digitText, List.append_assoc]
    apply atoi_decimal_append (by cases b <;> decide)
    intro c hc
    cases terminated with
    | true =>
        obtain rfl : (0 : UInt8) = c := by simpa using hc
        decide
    | false => exact h rfl c (by simpa using hc)
  cases b <;> simp [commandOf, hatoi]

section
variable {G : Globals} {ss : List Sensor}

/-- Among separate outputs, one only has a topic that begins like the topic of a message. -/
theorem Separate.pin_reached (hsep : Separate G) (hG : Aligned G ss) {rc : ℕ} {topic : CString}
    {pin q : PinName} (hout : IsOutput G rc topic pin) (tail : List UInt8) :
    q ∈ (reached (topic.bytes ++ tail) 0 ss).map (·.2.object.pin) ↔ q = pin := by
  rw [hG.pin_reached]
  constructor
  · rintro ⟨rc', topic', hout', hp'⟩
    by_cases hrc : rc = rc'
    · subst hrc
      have := hout.object.symm.trans hout'.object
      simpa using this.symm
    · rcases List.prefix_or_prefix_of_prefix hp' (List.prefix_append topic.bytes tail) with h | h
      · exact absurd h (hsep.topics _ _ _ _ _ _ hout' hout (Ne.symm hrc))
      · exact absurd h (hsep.topics _ _ _ _ _ _ hout hout' hrc)
  · rintro rfl
    exact ⟨rc, topic, hout, List.prefix_append _ _⟩

/-- The handler takes a message on the topic of an output to its pin alone. -/
theorem messageArrived_levels (hsep : Separate G) (hG : Aligned G ss) {rc : ℕ} {topic : CString}
    {pin : PinName} (hout : IsOutput G rc topic pin) {md : MessageData} {tail : List UInt8}
    {b : Bool}
    (hdata : md.topicName.lenstring.data = some (topic.bytes ++ tail))
    (hcommand : commandOf md.message.payload = some b) {o o' : Outputs}
    (h : messageArrived G md o = .ok o') : o'.levels = o.levels.write pin b := by
  rw [messageArrived_eq hG, hdata, Option.getD_some] at h
  rw [← Except.ok.inj h]
  funext q
  simp only [Outputs.after, hcommand, Levels.writeAll, hsep.pin_reached hG hout, Option.getD_some,
    Levels.write]

theorem Separate.pin_unique (hsep : Separate G) {rc rc' : ℕ} {topic : CString} {pin pin' : PinName}
    (h : IsOutput G rc topic pin) (h' : IsOutput G rc' topic pin') : pin = pin' := by
  by_cases hrc : rc = rc'
  · subst hrc
    have := h.object.symm.trans h'.object
    simpa using this
  · exact absurd (List.prefix_refl _) (hsep.topics _ _ _ _ _ _ h h' hrc)

theorem Separate.pin_ne (hsep : Separate G) {rc rc' : ℕ} {topic topic' : CString}
    {pin pin' : PinName} (h : IsOutput G rc topic pin) (h' : IsOutput G rc' topic' pin')
    (hne : topic ≠ topic') : pin ≠ pin' := by
  apply hsep.pins _ _ _ _ _ _ h h'
  rintro rfl
  exact hne (by simpa using h.topic.symm.trans h'.topic)

/-! ### The invariant -/

/-- A message on the topic of an output is the text of a level; one that is not a user's ends
with a NUL. -/
def Plain (G : Globals) (p : Parcel) : Prop :=
  ∃ rc pin b terminated, IsOutput G rc p.topic pin ∧ p.payload = digitText b terminated ∧
    (p.fromUser = false → terminated = true)

/-- Every report queued says what its pin will be when it is its turn. -/
def Fresh (G : Globals) (s : System) : Prop :=
  ∀ pre p post, s.queue = pre ++ p :: post → p.fromUser = false → ∀ rc pin,
    IsOutput G rc p.topic pin →
      commandOf p.payload = some ((lastCommand p.topic pre).getD (s.levels pin))

structure Inv (G : Globals) (s₀ s : System) : Prop where
  commands : ∀ p ∈ s.commands, p.fromUser = true ∧ Plain G p
  reports : ∀ p ∈ s.reports, p.fromUser = false ∧ Plain G p
  queue : ∀ p ∈ s.queue, Plain G p
  fresh : Fresh G s
  levels : ∀ rc topic pin, IsOutput G rc topic pin →
    s.levels pin = (s.last topic).getD (s₀.levels pin)

theorem Initial.inv {s : System} (h : Initial s) : Inv G s s where
  commands p hp := by simp [h.commands] at hp
  reports p hp := by simp [h.reports] at hp
  queue p hp := by simp [h.queue] at hp
  fresh pre p post hq := by simp [h.queue] at hq
  levels rc topic pin _ := by simp [h.last]

/-- A split of a queue with one message more is at that message or was there before. -/
theorem split_concat {α : Type} {pre post qs : List α} {q p : α}
    (h : qs ++ [p] = pre ++ q :: post) : (pre = qs ∧ q = p) ∨ ∃ post', qs = pre ++ q :: post' := by
  rcases List.eq_nil_or_concat post with rfl | ⟨post', a, rfl⟩
  · obtain ⟨h₁, h₂⟩ := List.append_inj' h rfl
    exact .inl ⟨h₁.symm, (List.cons.inj h₂).1.symm⟩
  · have h' : qs ++ [p] = (pre ++ q :: post') ++ [a] := by simpa using h
    exact .inr ⟨post', (List.append_inj' h' rfl).1⟩

theorem Fresh.accept {s : System} (h : Fresh G s) {p : Parcel}
    (hp : p.fromUser = false → ∀ rc pin, IsOutput G rc p.topic pin →
      commandOf p.payload = some (s.pending p.topic pin)) {cs rs : List Parcel} :
    Fresh G { s with commands := cs, reports := rs, queue := s.queue ++ [p] } := by
  intro pre q post hq hq' rc pin hout
  rcases split_concat hq with ⟨rfl, rfl⟩ | ⟨post', hpost⟩
  · exact hp hq' rc pin hout
  · exact h pre q post' hpost hq' rc pin hout

/-- What `sendText` puts on its way for the level of an output. -/
theorem dOut_report (hG : Aligned G ss) {s : System} {rc : ℕ} {topic : CString} {pin : PinName}
    (hout : IsOutput G rc topic pin) {t : Round Unit (List Parcel)}
    (h : dOut G (levelReadings s.levels) sendReport rc ⟨(), (), s.reports⟩ = .ok t) :
    t.out = s.reports ++ [⟨topic, digitText (s.levels pin) true, false⟩] := by
  obtain ⟨sensor, hsensor, hk, rfl, rfl⟩ := hG.isOutput_iff.mp hout
  rw [dOut, branch_eq _ (hG.entry hsensor) .dOut "dOut" rfl (c := .DigitalOut) rfl,
    if_pos hk] at h
  rw [← Except.ok.inj h]
  cases hb : s.levels sensor.object.pin <;>
    simp only [sendReport, levelReadings, steadyReadings, hb] <;> rfl

/-- A delivery writes the level of the message to the pin of its topic; a report changes
nothing. -/
theorem deliver_levels (hsep : Separate G) (hG : Aligned G ss) {s₀ s : System} (hI : Inv G s₀ s)
    {p : Parcel} {ps : List Parcel} {qos packetid : ℕ} {rest : List UInt8} {md : MessageData}
    {o : Outputs} (hq : s.queue = p :: ps) (hqos : qos ≤ 1) (hid : packetid < 65536)
    (hrest : p.payload.getLast? ≠ some 0 → ∀ b ∈ rest.head?, isDigit b = false)
    (hmd : receivePublish (p.packet qos packetid) rest = .ok md)
    (h : messageArrived G md ⟨s.levels, []⟩ = .ok o) :
    ∃ rc pin b, IsOutput G rc p.topic pin ∧ commandOf p.payload = some b ∧
      o.levels = s.levels.write pin b ∧ (p.fromUser = false → o.levels = s.levels) := by
  obtain ⟨rc, pin, b, terminated, hout, hpayload, hterm⟩ := hI.queue p (by simp [hq])
  obtain ⟨hfits, rfl⟩ := receivePublish_ok_iff.mp hmd
  have hmax : MAX_MQTT_PACKET_SIZE = 100 := rfl
  have hlen := publishLength_lt 0 qos 0 packetid p.topic.bytes p.payload
  have htopic : p.topic.bytes.length ≤ publishLength qos p.topic.bytes p.payload := by
    unfold publishLength
    omega
  have hdata := arrivedData_publishPacket (show 0 < 2 by decide) (show qos ≤ 2 by omega)
    (show 0 < 2 by decide) hid
    (show p.topic.bytes.length < 65536 by unfold Parcel.packet at hfits; omega) rest
    (show publishLength qos p.topic.bytes p.payload < 128 ^ 4 by
      unfold Parcel.packet at hfits; omega)
  change (arrivedData (p.packet qos packetid ++ rest)).topicName = _ ∧ _ at hdata
  have hcommand : commandOf (arrivedData (p.packet qos packetid ++ rest)).message.payload =
      some b := by
    rw [show (arrivedData (p.packet qos packetid ++ rest)).message.payload = _ from hdata.2,
      hpayload]
    refine commandOf_digitText b terminated rest fun hfalse => hrest ?_
    rw [hpayload, hfalse]
    cases b <;> decide
  have hown : commandOf p.payload = some b := by
    have := commandOf_digitText b terminated [] (by simp)
    rwa [List.append_nil, ← hpayload] at this
  have hlevels : o.levels = s.levels.write pin b :=
    messageArrived_levels hsep hG hout (by rw [hdata.1]) hcommand h
  refine ⟨rc, pin, b, hout, hown, hlevels, fun huser => ?_⟩
  have hfresh := hI.fresh [] p ps hq huser rc pin hout
  rw [hown] at hfresh
  obtain rfl : b = s.levels pin := by simpa [lastCommand] using hfresh
  rw [hlevels, Levels.write_self]

theorem Inv.deliver (hsep : Separate G) (hG : Aligned G ss) {s₀ s : System} (hI : Inv G s₀ s)
    {p : Parcel} {ps : List Parcel} {qos packetid : ℕ} {rest : List UInt8} {md : MessageData}
    {o : Outputs} (hq : s.queue = p :: ps) (hqos : qos ≤ 1) (hid : packetid < 65536)
    (hrest : p.payload.getLast? ≠ some 0 → ∀ b ∈ rest.head?, isDigit b = false)
    (hmd : receivePublish (p.packet qos packetid) rest = .ok md)
    (h : messageArrived G md ⟨s.levels, []⟩ = .ok o) :
    Inv G s₀ { s with
      levels := o.levels
      queue := ps
      last := if p.fromUser then Function.update s.last p.topic (commandOf p.payload)
        else s.last } := by
  obtain ⟨rc, pin, b, hout, hown, hlevels, hreport⟩ :=
    deliver_levels hsep hG hI hq hqos hid hrest hmd h
  refine ⟨hI.commands, hI.reports, fun q hq' => hI.queue q (by simp [hq, hq']), ?_, ?_⟩
  · intro pre q post hsplit huser rc' pin' hout'
    have hfresh := hI.fresh (p :: pre) q post 
      (by rw [hq]; exact congrArg (List.cons p) hsplit) huser rc' pin' hout'
    rw [hfresh]
    cases hlast : lastCommand q.topic pre with
    | some b' => simp [lastCommand, hlast]
    | none =>
        cases hp : p.fromUser with
        | false => simp [lastCommand, hlast, hp, hreport hp]
        | true =>
            by_cases heq : p.topic = q.topic
            · have : pin = pin' := hsep.pin_unique hout (heq ▸ hout')
              simp [lastCommand, hlast, hp, heq, hown, hlevels, this]
            · have : pin' ≠ pin := (hsep.pin_ne hout hout' heq).symm
              simp [lastCommand, hlast, hp, heq, hlevels, Levels.write_ne _ _ this]
  · intro rc' topic' pin' hout'
    cases hp : p.fromUser with
    | false =>
        simp only [Bool.false_eq_true, if_false, hreport hp]
        exact hI.levels rc' topic' pin' hout'
    | true =>
        simp only [if_true, hlevels, hown]
        by_cases heq : p.topic = topic'
        · subst heq
          simp [hsep.pin_unique hout' hout]
        · rw [Levels.write_ne _ _ (hsep.pin_ne hout hout' heq).symm,
            Function.update_of_ne (Ne.symm heq)]
          exact hI.levels rc' topic' pin' hout'

/-- A timely step keeps the invariant. -/
theorem Inv.step (hsep : Separate G) (hG : Aligned G ss) {s₀ s t : System} {a : Action}
    (hI : Inv G s₀ s) (hgood : Timely G s a) (h : Step G s a t) : Inv G s₀ t := by
  cases h with
  | @publish rc topic pin b terminated hout =>
      refine ⟨fun p hp => ?_, hI.reports, hI.queue, hI.fresh, hI.levels⟩
      rcases List.mem_append.mp hp with hp | hp
      · exact hI.commands p hp
      · obtain rfl := List.mem_singleton.mp hp
        exact ⟨rfl, rc, pin, b, terminated, hout, rfl, by simp⟩
  | @report rc topic pin t hout hd =>
      rw [dOut_report hG hout hd]
      refine ⟨hI.commands, fun p hp => ?_, hI.queue, hI.fresh, hI.levels⟩
      rcases List.mem_append.mp hp with hp | hp
      · exact hI.reports p hp
      · obtain rfl := List.mem_singleton.mp hp
        exact ⟨rfl, rc, pin, s.levels pin, true, hout, rfl, fun _ => rfl⟩
  | leds =>
      have hkeep (rc topic pin) (hout : IsOutput G rc topic pin) :
          busWrite leds (busRead leds s.levels + 1) s.levels pin = s.levels pin :=
        busWrite_of_notMem _ _ (hsep.leds rc topic pin hout)
      refine ⟨hI.commands, hI.reports, hI.queue, ?_, ?_⟩
      · intro pre p post hq huser rc pin hout
        have := hI.fresh pre p post hq huser rc pin hout
        rwa [← hkeep rc p.topic pin hout] at this
      · intro rc topic pin hout
        exact (hkeep rc topic pin hout).trans (hI.levels rc topic pin hout)
  | @acceptCommand post p pre hc =>
      have hp := hI.commands p (by simp [hc])
      refine ⟨fun q hq => hI.commands q (by rw [hc]; simp at hq ⊢; tauto), hI.reports,
        fun q hq => ?_, hI.fresh.accept (by simp [hp.1]), hI.levels⟩
      rcases List.mem_append.mp hq with hq | hq
      · exact hI.queue q hq
      · obtain rfl := List.mem_singleton.mp hq
        exact hp.2
  | @acceptReport p ps hr =>
      have hp := hI.reports p (by simp [hr])
      refine ⟨hI.commands, fun q hq => hI.reports q (by simp [hr, hq]), fun q hq => ?_,
        hI.fresh.accept fun _ => hgood p (by simp [hr]), hI.levels⟩
      rcases List.mem_append.mp hq with hq | hq
      · exact hI.queue q hq
      · obtain rfl := List.mem_singleton.mp hq
        exact hp.2
  | deliver qos packetid rest hq hqos hid hmd harrived =>
      exact hI.deliver hsep hG hq hqos hid (hgood _ (by simp [hq])).2 hmd harrived
  | overrun qos packetid rest hq _ _ herror =>
      rw [receivePublish, if_pos (hgood _ (by simp [hq])).1] at herror
      cases herror

end

/-! ### Runs -/

/-- In a run of timely steps every output has the level of the last command delivered on its
topic, or its first one if there was none, and to deliver a report changes no level. -/
theorem run_levels {v : Value} {G : Globals} (hv : parse v = .ok G) (hsep : Separate G)
    {s t : System} {tr : List (System × Action)} (hs : Initial s) (hrun : Run (Step G) s tr t)
    (hgood : ∀ p ∈ tr, Timely G p.1 p.2) :
    (∀ rc topic pin, IsOutput G rc topic pin →
      t.levels pin = (t.last topic).getD (s.levels pin)) ∧
    ∀ a t', Step G t a t' → Timely G t a → (∃ qos packetid rest, a = .deliver qos packetid rest) →
      (∀ p ∈ t.queue.head?, p.fromUser = false) → t'.levels = t.levels := by
  obtain ⟨-, -, ss, -, -, hG⟩ := parse_ok hv
  have hI : Inv G s t := hrun.invariant (fun _ _ _ hI hg h => hI.step hsep hG hg h) hs.inv hgood
  refine ⟨hI.levels, ?_⟩
  rintro a t' hstep htimely ⟨qos, packetid, rest, rfl⟩ hreport
  cases hstep with
  | deliver _ _ _ hq hqos hid hmd h =>
      obtain ⟨-, -, -, -, -, -, hsame⟩ :=
        deliver_levels hsep hG hI hq hqos hid (htimely _ (by simp [hq])).2 hmd h
      exact hsame (hreport _ (by simp [hq]))
  | overrun _ _ _ hq _ _ herror =>
      rw [receivePublish, if_pos (htimely _ (by simp [hq])).1] at herror
      cases herror

/-- One output, on `lamp`. -/
def oneLamp : Globals := globalsOf [outputSensor "lamp" .p20]

theorem isOutput_oneLamp {rc : ℕ} {topic : CString} {pin : PinName} :
    IsOutput oneLamp rc topic pin ↔ rc = 0 ∧ topic = .lit "lamp" ∧ pin = .p20 := by
  rw [oneLamp, (globalsOf_aligned _).isOutput_iff]
  cases rc <;> simp [outputSensor, SensorObject.pin, eq_comm]

theorem separate_oneLamp : Separate oneLamp where
  topics rc _ _ rc' _ _ h h' hne := by
    rw [isOutput_oneLamp] at h h'
    omega
  pins rc _ _ rc' _ _ h h' hne := by
    rw [isOutput_oneLamp] at h h'
    omega
  leds rc topic pin h := by
    rw [(isOutput_oneLamp.mp h).2.2]
    decide

def dark : System := ⟨fun _ => false, [], [], [], fun _ => none⟩

theorem dark_initial : Initial dark := ⟨rfl, rfl, rfl, fun _ => rfl⟩

def lampCommand : Parcel := ⟨.lit "lamp", digitText true true, true⟩

def lampReport : Parcel := ⟨.lit "lamp", digitText true true, false⟩

/-- The lamp has been switched on by the last command delivered. -/
def lit (g : Levels) : System :=
  ⟨g.write .p20 true, [], [], [], Function.update dark.last (.lit "lamp") (some true)⟩

/-- Either of them, delivered to the lamp alone. -/
theorem deliver_lit {p : Parcel} (hp : p = lampCommand ∨ p = lampReport) {s : System}
    (hs : s.queue = [p]) : Step oneLamp s (.deliver 0 0 []) { s with
      levels := s.levels.write .p20 true
      queue := []
      last :=
        if p.fromUser then Function.update s.last (.lit "lamp") (some true) else s.last } := by
  rcases hp with rfl | rfl
  · exact .deliver (o := ⟨s.levels.write .p20 true, [0]⟩) 0 0 [] hs (by decide) (by decide) rfl rfl
  · exact .deliver (o := ⟨s.levels.write .p20 true, [0]⟩) 0 0 [] hs (by decide) (by decide) rfl rfl

theorem deliver_timely {p : Parcel} (hp : p = lampCommand ∨ p = lampReport) {s : System}
    (hs : s.queue = [p]) : Timely oneLamp s (.deliver 0 0 []) := by
  intro q hq
  obtain rfl : p = q := by simpa [hs] using hq
  rcases hp with rfl | rfl <;> decide

/-- A command is given, accepted and delivered. -/
def commandTrace : List (System × Action) :=
  [(dark, .publish 0 true true), ({ dark with commands := [lampCommand] }, .acceptCommand 0),
    ({ dark with queue := [lampCommand] }, .deliver 0 0 [])]

theorem commandTrace_run : Run (Step oneLamp) dark commandTrace (lit dark.levels) :=
  .cons (.publish true true (isOutput_oneLamp.mpr ⟨rfl, rfl, rfl⟩))
    (.cons (.acceptCommand [] rfl) (.single (deliver_lit (.inl rfl) rfl)))

theorem commandTrace_timely : ∀ p ∈ commandTrace, Timely oneLamp p.1 p.2 := by
  simp only [commandTrace, List.forall_mem_cons]
  exact ⟨trivial, trivial, deliver_timely (.inl rfl) rfl, by simp⟩

/-- The level is reported and the report accepted. -/
def reportTrace (g : Levels) : List (System × Action) :=
  [(lit g, .report 0), ({ lit g with reports := [lampReport] }, .acceptReport)]

theorem reportTrace_run (g : Levels) :
    Run (Step oneLamp) (lit g) (reportTrace g) { lit g with queue := [lampReport] } :=
  .cons (.report (isOutput_oneLamp.mpr ⟨rfl, rfl, rfl⟩) rfl) (.single (.acceptReport rfl))

theorem reportTrace_timely (g : Levels) : ∀ p ∈ reportTrace g, Timely oneLamp p.1 p.2 := by
  simp only [reportTrace, List.forall_mem_cons]
  refine ⟨trivial, ?_, by simp⟩
  intro p hp rc pin hout
  obtain rfl : lampReport = p := by simpa using hp
  obtain ⟨-, -, rfl⟩ := isOutput_oneLamp.mp hout
  rfl

/-- The report of the command is on its way back. -/
def reported : System := { lit dark.levels with queue := [lampReport] }

/-- A command and the report of it are delivered, and one more report is on its way back. -/
def echoTrace : List (System × Action) :=
  commandTrace ++ (reportTrace dark.levels ++
    ((reported, .deliver 0 0 []) :: reportTrace reported.levels))

theorem run_levels_commanded :
    ∃ t, Run (Step oneLamp) dark echoTrace t ∧ (∀ p ∈ echoTrace, Timely oneLamp p.1 p.2) ∧
      t.last (.lit "lamp") = some true ∧ t.queue = [lampReport] ∧
      (∀ rc topic pin, IsOutput oneLamp rc topic pin →
        t.levels pin = (t.last topic).getD (dark.levels pin)) ∧
      ∀ a t', Step oneLamp t a t' → Timely oneLamp t a →
        (∃ qos packetid rest, a = .deliver qos packetid rest) →
        (∀ p ∈ t.queue.head?, p.fromUser = false) → t'.levels = t.levels := by
  have hdelivered : Step oneLamp reported (.deliver 0 0 []) (lit reported.levels) :=
    deliver_lit (.inr rfl) rfl
  have hrun : Run (Step oneLamp) dark echoTrace _ :=
    commandTrace_run.append ((reportTrace_run _).append (.cons hdelivered (reportTrace_run _)))
  have hgood : ∀ p ∈ echoTrace, Timely oneLamp p.1 p.2 := by
    simp only [echoTrace, List.forall_mem_append, List.forall_mem_cons]
    exact ⟨commandTrace_timely, reportTrace_timely _, deliver_timely (.inr rfl) rfl,
      reportTrace_timely _⟩
  exact ⟨_, hrun, hgood, rfl, rfl,
    run_levels (v := config [element .dOut "lamp" 20]) rfl separate_oneLamp dark_initial hrun hgood⟩

/-- A report sent before a command and accepted after it undoes the command. -/
theorem stale_report_undoes_command :
    parse (config [element .dOut "lamp" 20]) = .ok oneLamp ∧ Separate oneLamp ∧ Initial dark ∧
    ∃ tr t, Run (Step oneLamp) dark tr t ∧ t.last (.lit "lamp") = some true ∧
      t.levels .p20 = false := by
  have hout : IsOutput oneLamp 0 (.lit "lamp") .p20 := isOutput_oneLamp.mpr ⟨rfl, rfl, rfl⟩
  have hrun := Run.cons (Step.report (s := dark) hout rfl) (.cons (.publish true false hout)
    (.cons (.acceptCommand [] rfl) (.cons (.acceptReport rfl)
      (.cons (.deliver 0 0 [0] rfl (by decide) (by decide) rfl rfl)
        (.single (.deliver 0 0 [0] rfl (by decide) (by decide) rfl rfl))))))
  exact ⟨rfl, separate_oneLamp, dark_initial, _, _, hrun, rfl, rfl⟩

end RemotusHardware
