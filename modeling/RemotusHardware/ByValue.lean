import RemotusHardware.Publishing

/-! # The client passed by value

`updateSensorData` takes the client by value and hands it by value to `sendMQTT`, so that every
publish of a round works on a fresh copy of the client of `main` and leaves the client itself as
it was: a connection lost is not noticed, and the time of the last packet not recorded.
`subscribeTopics` is given a pointer instead.

`publishOn` is the publish a pointer would make.  A round with it and the round of the program
end alike exactly if nothing is written or every packet is taken in full and the record of the
last of them says what the client's own says already (`round_by_value_iff`).  What the two
clients have different buffers for does not show: `yield` writes the same packets on clients
that differ in these alone (`yield_bare`). -/

namespace RemotusHardware

open CLib

section
variable {H σ : Type} (call : H → MessageData → σ → σ)

/-! ### Buffers do not show -/

/-- A client without the contents of its buffers for packets sent. -/
def Client.bare (c : Client H) : Client H :=
  { c with sendbuf := [], pubbuf := [], inflightLen := 0, inflightMsgid := 0, inflightQoS := 0 }

/-- A result with such a client. -/
def Result.bare (r : Result H σ) : Result H σ := { r with client := r.client.bare }

@[simp] theorem Client.bare_bare (c : Client H) : c.bare.bare = c.bare := rfl

theorem Result.bare_eq_iff {r r' : Result H σ} :
    r.bare = r'.bare ↔ r.rc = r'.rc ∧ r.client.bare = r'.client.bare ∧ r.world = r'.world := by
  cases r
  cases r'
  simp [Result.bare]

theorem sendPacket_bare (packet : List UInt8) (timer : Countdown) (c : Client H) (w : World σ) :
    (Client.sendPacket packet.length timer (c.store packet) w).bare =
      (Client.sendPacket packet.length timer (c.bare.store packet) w).bare := by
  simp only [Client.sendPacket, Client.store, overwrite_zero_take]
  split
  · rfl
  · rfl

theorem keepalive_bare (c : Client H) (w : World σ) :
    (Client.keepalive c w).1.bare = (Client.keepalive c.bare w).1.bare ∧
      (Client.keepalive c w).2 = (Client.keepalive c.bare w).2 := by
  have hdue : c.bare.keepAliveInterval = c.keepAliveInterval ∧ c.bare.last_sent = c.last_sent ∧
      c.bare.last_received = c.last_received ∧ c.bare.ping_outstanding = c.ping_outstanding :=
    ⟨rfl, rfl, rfl, rfl⟩
  simp only [Client.keepalive, hdue]
  split
  · exact ⟨rfl, rfl⟩
  · split
    · cases MQTTSerialize_pingreq MAX_MQTT_PACKET_SIZE with
      | none => exact ⟨rfl, rfl⟩
      | some packet =>
          obtain ⟨hrc, hclient, hworld⟩ := Result.bare_eq_iff.mp
            (sendPacket_bare packet (.countdown_ms w.net.now 1000) c w)
          simp only [← hrc]
          split
          · refine ⟨?_, hworld⟩
            have := congrArg (fun c : Client H => { c with ping_outstanding := true }) hclient
            exact this
          · exact ⟨hclient, hworld⟩
    · exact ⟨rfl, rfl⟩

theorem cycleEnd_bare (packet_type : ℤ) {c c' : Client H} (h : c.bare = c'.bare) (w : World σ) :
    (Client.cycleEnd packet_type c w).bare = (Client.cycleEnd packet_type c' w).bare := by
  obtain ⟨h₁, h₂⟩ := keepalive_bare c w
  obtain ⟨h₁', h₂'⟩ := keepalive_bare c' w
  rw [Result.bare_eq_iff]
  refine ⟨rfl, ?_, ?_⟩
  · exact h₁.trans (h ▸ h₁'.symm)
  · exact h₂.trans (h ▸ h₂'.symm)

theorem readPacket_bare (timer : Countdown) (c : Client H) (net : Net) :
    Client.readPacket timer c.bare net =
      ((Client.readPacket timer c net).1, (Client.readPacket timer c net).2.1.bare,
        (Client.readPacket timer c net).2.2) := by
  unfold Client.readPacket
  split
  · dsimp only
    split
    · split
      · split <;> rfl
      · rfl
    · rfl
  · rfl

theorem cycle_bare (timer : Countdown) (c : Client H) (w : World σ) :
    (Client.cycle call timer c w).bare = (Client.cycle call timer c.bare w).bare := by
  unfold Client.cycle
  rw [readPacket_bare]
  obtain ⟨t, c₁, net⟩ := Client.readPacket timer c w.net
  dsimp only
  generalize (if t < 0 then (65535 : ℤ) else t) = packet_type
  by_cases hpub : packet_type = PUBLISH
  · simp only [if_pos hpub]
    have hbuf : c₁.bare.readbuf = c₁.readbuf := rfl
    rw [hbuf]
    generalize MQTTDeserialize_publish c₁.readbuf = f
    by_cases hrc : f.rc ≠ 1
    · simp only [if_pos hrc]
      rfl
    · simp only [if_neg hrc]
      have hdeliver : Client.deliverMessage call c₁.bare = Client.deliverMessage call c₁ := rfl
      rw [hdeliver]
      by_cases hqos : f.message.qos = 0
      · simp only [if_pos hqos]
        exact cycleEnd_bare _ c₁.bare_bare.symm _
      · simp only [if_neg hqos]
        cases Client.acknowledge f.message.qos f.message.id with
        | none => rfl
        | some packet =>
            dsimp only
            obtain ⟨hrc', hclient, hworld⟩ := Result.bare_eq_iff.mp (sendPacket_bare packet timer c₁
              { net := net, app := (Client.deliverMessage call c₁ f.topicName f.message w.app).2 })
            rw [← hrc', ← hworld]
            split
            · exact sendPacket_bare packet timer c₁ _
            · exact cycleEnd_bare _ hclient _
  · simp only [if_neg hpub]
    split
    · apply cycleEnd_bare
      rfl
    · apply cycleEnd_bare
      rfl

theorem yieldLoop_bare (timer : Countdown) : ∀ (k : ℕ) {c c' : Client H} (w : World σ),
    c.bare = c'.bare →
    (Client.yieldLoop call timer k c w).bare = (Client.yieldLoop call timer k c' w).bare
  | 0, c, c', w, h => Result.bare_eq_iff.mpr ⟨rfl, h, rfl⟩
  | k + 1, c, c', w, h => by
      obtain ⟨hrc, hclient, hworld⟩ := Result.bare_eq_iff.mp
        ((cycle_bare call timer c w).trans (h ▸ (cycle_bare call timer c' w).symm))
      simp only [Client.yieldLoop]
      split
      · exact Result.bare_eq_iff.mpr ⟨rfl, h, rfl⟩
      · rw [← hrc]
        split
        · exact Result.bare_eq_iff.mpr ⟨hrc, hclient, hworld⟩
        · rw [← hworld]
          exact yieldLoop_bare timer k _ hclient

/-- On clients that differ in their buffers alone `yield` does the same to the network. -/
theorem yield_bare (timeout_ms : ℕ) {c c' : Client H} (w : World σ) (h : c.bare = c'.bare) :
    (Client.yield call timeout_ms c w).world = (Client.yield call timeout_ms c' w).world :=
  (Result.bare_eq_iff.mp (yieldLoop_bare call _ _ w h)).2.2

/-! ### The publish of a pointer -/

/-- `sendMQTT` with a pointer to the client. -/
def publishOn (topicName : CString) (message : Message) (s : Client H × World σ) :
    Client H × World σ :=
  let r := s.1.publish call topicName message s.2
  (r.client, r.world)

/-- The time at which the last of some packets has been taken, if all of them are taken in full
by the network as it will behave. -/
def acceptedAt (c : Client H) : List (CString × List UInt8) → Net → Option ℕ
  | [], net => some net.now
  | m :: texts, net =>
      if (c.sendOn (wirePacket m) net).1 then acceptedAt c texts (c.sendOn (wirePacket m) net).2
      else none

/-- The record of the last packet sent, that packet taken at `now`. -/
def Client.lastSentAt (c : Client H) (now : ℕ) : Countdown :=
  if 0 < c.keepAliveInterval then .countdown now c.keepAliveInterval else c.last_sent

/-- Clients that publish alike. -/
def Client.Alike (c c' : Client H) : Prop :=
  c.isconnected = c'.isconnected ∧ c.command_timeout_ms = c'.command_timeout_ms

theorem sendOn_alike {c c' : Client H} (h : c.Alike c') (packet : List UInt8) (net : Net) :
    c.sendOn packet net = c'.sendOn packet net := by
  unfold Client.sendOn
  rw [h.2]

theorem sendMQTT_connected {c : Client H} (hc : c.isconnected = true)
    {m : CString × List UInt8} (hnul : (0 : UInt8) ∉ m.2) (w : World σ) :
    sendMQTT call c m.1 (messageOf m.2) w =
      if FitsBuffer m then { w with net := (c.sendOn (wirePacket m) w.net).2 } else w := by
  rw [sendMQTT, publish_messageOf call hc hnul]
  split <;> rfl

theorem publishOn_connected {c : Client H} (hc : c.isconnected = true)
    {m : CString × List UInt8} (hnul : (0 : UInt8) ∉ m.2) (w : World σ) :
    publishOn call m.1 (messageOf m.2) (c, w) =
      if FitsBuffer m then
        (c.published (wirePacket m) (c.sendOn (wirePacket m) w.net).1
            (c.sendOn (wirePacket m) w.net).2.now,
          { w with net := (c.sendOn (wirePacket m) w.net).2 })
      else (c, w) := by
  rw [publishOn, publish_messageOf call hc hnul]
  split <;> rfl

theorem sendAll_cons (send : CString → Message → σ → σ) (m : CString × List UInt8)
    (texts : List (CString × List UInt8)) (a : σ) :
    sendAll send (m :: texts) a = sendAll send texts (send m.1 (messageOf m.2) a) := rfl

/-- A client that is not connected writes nothing in a round, and stays as it is. -/
theorem sendAll_publishOn_disconnected {c : Client H} (hc : c.isconnected = false) (w : World σ)
    (texts : List (CString × List UInt8)) : sendAll (publishOn call) texts (c, w) = (c, w) := by
  induction texts with
  | nil => rfl
  | cons m texts ih =>
      rw [sendAll_cons, publishOn, publish_disconnected call hc]
      exact ih

theorem sendAll_sendMQTT_disconnected {c : Client H} (hc : c.isconnected = false) (w : World σ)
    (texts : List (CString × List UInt8)) : sendAll (sendMQTT call c) texts w = w := by
  induction texts with
  | nil => rfl
  | cons m texts ih =>
      rw [sendAll_cons, sendMQTT, publish_disconnected call hc]
      exact ih

theorem published_bare (c : Client H) (packet : List UInt8) (now : ℕ) (hc : c.isconnected = true) :
    (c.published packet true now).bare = { c with last_sent := c.lastSentAt now }.bare := by
  unfold Client.published Client.retain Client.lastSentAt
  cases c
  cases hc
  dsimp only
  split <;> simp [Client.bare, Client.store]

/-- Only the record of the last packet counts. -/
theorem lastSentAt_bare {c p : Client H} {before : ℕ}
    (h : p.bare = { c with last_sent := c.lastSentAt before }.bare) (now : ℕ) :
    { p with last_sent := p.lastSentAt now }.bare =
      { c with last_sent := c.lastSentAt now }.bare := by
  have hkeep : p.keepAliveInterval = c.keepAliveInterval := congrArg (·.keepAliveInterval) h
  have hlast : p.last_sent = c.lastSentAt before := congrArg (·.last_sent) h
  have hsame : p.lastSentAt now = c.lastSentAt now := by
    unfold Client.lastSentAt at hlast ⊢
    rw [hkeep]
    split
    · rfl
    · rename_i h0
      rw [hlast, if_neg h0]
  rw [hsame]
  exact congrArg (fun q : Client H => { q with last_sent := c.lastSentAt now }) h

theorem published_alike {c c₀ : Client H} (hc : c.isconnected = true) (h : c.Alike c₀)
    (packet : List UInt8) (now : ℕ) : (c.published packet true now).Alike c₀ := by
  have hbare := published_bare c packet now hc
  exact ⟨(congrArg (·.isconnected) hbare).trans h.1,
    (congrArg (·.command_timeout_ms) hbare).trans h.2⟩

/-- If the network takes every packet in full, a round by pointer writes what a round by value
does, and records the time of the last packet. -/
theorem sendAll_accepted {c₀ : Client H} (hc₀ : c₀.isconnected = true) :
    ∀ (texts : List (CString × List UInt8)) {c : Client H} (w : World σ) {now : ℕ},
      (∀ m ∈ texts, (0 : UInt8) ∉ m.2) → c.Alike c₀ →
      acceptedAt c₀ (texts.filter fun m => FitsBuffer m) w.net = some now →
      (sendAll (publishOn call) texts (c, w)).2 = sendAll (sendMQTT call c₀) texts w ∧
        (sendAll (publishOn call) texts (c, w)).1.bare =
          (if texts.filter (fun m => FitsBuffer m) = [] then c
            else { c with last_sent := c.lastSentAt now }).bare
  | [], c, w, now, _, _, _ => ⟨rfl, rfl⟩
  | m :: texts, c, w, now, hnul, halike, hnow => by
      have hm := hnul m List.mem_cons_self
      have hrest := fun m' hm' => hnul m' (List.mem_cons_of_mem m hm')
      have hc : c.isconnected = true := halike.1.trans hc₀
      rw [sendAll_cons, sendAll_cons, publishOn_connected call hc hm,
        sendMQTT_connected call hc₀ hm, sendOn_alike halike]
      by_cases hfits : FitsBuffer m
      · rw [List.filter_cons_of_pos (by simpa using hfits)] at hnow ⊢
        simp only [if_pos hfits]
        unfold acceptedAt at hnow
        split at hnow
        case isFalse => cases hnow
        case isTrue hok =>
          rw [hok]
          have hbare := published_bare c (wirePacket m) (c₀.sendOn (wirePacket m) w.net).2.now hc
          obtain ⟨h₁, h₂⟩ := sendAll_accepted hc₀ texts
            { w with net := (c₀.sendOn (wirePacket m) w.net).2 } hrest
            (published_alike hc halike _ _) hnow
          refine ⟨h₁, h₂.trans ?_⟩
          rw [if_neg (List.cons_ne_nil _ _)]
          split
          · rename_i hnil
            rw [hnil] at hnow
            rw [hbare, ← Option.some.inj hnow]
          · exact lastSentAt_bare hbare now
      · rw [List.filter_cons_of_neg (by simpa using hfits)] at hnow ⊢
        simp only [if_neg hfits]
        exact sendAll_accepted hc₀ texts w hrest halike hnow

/-- If it does not, a round by pointer ends with the client disconnected. -/
theorem sendAll_rejected {c₀ : Client H} (hc₀ : c₀.isconnected = true) :
    ∀ (texts : List (CString × List UInt8)) {c : Client H} (w : World σ),
      (∀ m ∈ texts, (0 : UInt8) ∉ m.2) → c.Alike c₀ →
      acceptedAt c₀ (texts.filter fun m => FitsBuffer m) w.net = none →
      (sendAll (publishOn call) texts (c, w)).1.isconnected = false
  | [], c, w, _, _, hnone => by cases hnone
  | m :: texts, c, w, hnul, halike, hnone => by
      have hm := hnul m List.mem_cons_self
      have hrest := fun m' hm' => hnul m' (List.mem_cons_of_mem m hm')
      have hc : c.isconnected = true := halike.1.trans hc₀
      rw [sendAll_cons, publishOn_connected call hc hm, sendOn_alike halike]
      by_cases hfits : FitsBuffer m
      · rw [List.filter_cons_of_pos (by simpa using hfits)] at hnone
        simp only [if_pos hfits]
        unfold acceptedAt at hnone
        split at hnone
        case isTrue hok =>
          rw [hok]
          exact sendAll_rejected hc₀ texts _ hrest (published_alike hc halike _ _) hnone
        case isFalse hok =>
          rw [Bool.not_eq_true] at hok
          rw [hok, sendAll_publishOn_disconnected]
          · rfl
          · rfl
      · rw [List.filter_cons_of_neg (by simpa using hfits)] at hnone
        simp only [if_neg hfits]
        exact sendAll_rejected hc₀ texts w hrest halike hnone

/-! ### A round -/

/-- What the program goes on with: connected or not, the last packet, a ping not answered. -/
def Client.session (c : Client H) : Bool × Countdown × Bool :=
  (c.isconnected, c.last_sent, c.ping_outstanding)

/-- A round and the `yield` after it: the session of the client of `main`, the packets written in
the round and those written by its end. -/
structure RoundEnd where
  session : Bool × Countdown × Bool
  written : List SentPacket
  yielded : List SentPacket

section
variable {F : Type} (u : FloatUnit F) (G : Globals) (r : Readings F) (temperatura humedad : F)
  (c : Client H) (w : World σ)

/-- The round of the program; its client is untouched. -/
def roundByValue : Except Stop RoundEnd := do
  let t ← updateSensorData u G r (sendMQTT call c) ⟨temperatura, humedad, w⟩
  pure ⟨c.session, t.out.net.sent, (c.yield call 100 t.out).world.net.sent⟩

/-- The round with its publishes made on the client of `main` itself. -/
def roundByPointer : Except Stop RoundEnd := do
  let t ← updateSensorData u G r (publishOn call) ⟨temperatura, humedad, (c, w)⟩
  pure ⟨t.out.1.session, t.out.2.net.sent, (t.out.1.yield call 100 t.out.2).world.net.sent⟩

end

theorem session_of_bare {c c' : Client H} (h : c.bare = c'.bare) : c.session = c'.session := by
  change c.bare.session = c'.bare.session
  rw [h]

/-- Clients that differ in their buffers alone end a round alike. -/
theorem roundEnd_of_bare {c c' : Client H} (h : c.bare = c'.bare) (w : World σ) :
    RoundEnd.mk c.session w.net.sent (c.yield call 100 w).world.net.sent =
      ⟨c'.session, w.net.sent, (c'.yield call 100 w).world.net.sent⟩ := by
  rw [session_of_bare h, yield_bare call 100 w h]

theorem lastSentAt_eq_iff (c : Client H) (now : ℕ) :
    c.last_sent = c.lastSentAt now ↔
      c.keepAliveInterval = 0 ∨ c.last_sent = .countdown now c.keepAliveInterval := by
  unfold Client.lastSentAt
  by_cases h : 0 < c.keepAliveInterval
  · rw [if_pos h]
    exact ⟨.inr, fun h' => h'.resolve_left (Nat.pos_iff_ne_zero.mp h)⟩
  · rw [if_neg h]
    exact ⟨fun _ => .inl (by omega), fun _ => rfl⟩

/-- A round leaves the client, and writes, as if its publishes had been made on the client itself
exactly if nothing is published in it, or all its packets are taken in full and the record of the
last of them is what the client holds before. -/
theorem round_by_value_iff {v : Value} {G : Globals} (hv : parse v = .ok G) {F : Type}
    (u : FloatUnit F) (r : Readings F) (temperatura humedad : F) (c : Client H) (w : World σ) :
    ∃ ss, Aligned G ss ∧
      (roundByValue call u G r temperatura humedad c w =
          roundByPointer call u G r temperatura humedad c w ↔
        c.isconnected = false ∨
          (roundTexts u r 0 ss (temperatura, humedad)).filter (fun m => FitsBuffer m) = [] ∨
          ∃ now, acceptedAt c ((roundTexts u r 0 ss (temperatura, humedad)).filter
              fun m => FitsBuffer m) w.net = some now ∧
            (c.keepAliveInterval = 0 ∨ c.last_sent = .countdown now c.keepAliveInterval)) := by
  obtain ⟨-, -, ss, -, -, hG⟩ := parse_ok hv
  refine ⟨ss, hG, ?_⟩
  have hnul := nul_notMem_roundTexts u r 0 ss (temperatura, humedad)
  unfold roundByValue roundByPointer
  rw [updateSensorData_eq hG, updateSensorData_eq hG, ok_bind, ok_bind]
  dsimp only
  generalize roundTexts u r 0 ss (temperatura, humedad) = texts at hnul ⊢
  cases hc : c.isconnected with
  | false =>
      rw [sendAll_sendMQTT_disconnected call hc, sendAll_publishOn_disconnected call hc]
      exact ⟨fun _ => .inl rfl, fun _ => rfl⟩
  | true =>
      cases hnow : acceptedAt c (texts.filter fun m => FitsBuffer m) w.net with
      | none =>
          have hlost := sendAll_rejected call hc texts w hnul ⟨rfl, rfl⟩ hnow
          constructor
          · intro heq
            have := congrArg (fun e : RoundEnd => e.session.1) (Except.ok.inj heq)
            simp only [Client.session, hc, hlost] at this
            cases this
          · rintro (h | h | ⟨now, h, -⟩)
            · cases h
            · rw [h] at hnow
              cases hnow
            · cases h
      | some now =>
          obtain ⟨hworld, hclient⟩ := sendAll_accepted call hc texts w hnul ⟨rfl, rfl⟩ hnow
          rw [hworld]
          by_cases hnil : texts.filter (fun m => FitsBuffer m) = []
          · rw [if_pos hnil] at hclient
            refine ⟨fun _ => .inr (.inl hnil), fun _ => ?_⟩
            exact congrArg Except.ok (roundEnd_of_bare call hclient.symm _)
          · rw [if_neg hnil] at hclient
            constructor
            · intro heq
              have hsession := congrArg RoundEnd.session (Except.ok.inj heq)
              have hlast := congrArg (fun s : Bool × Countdown × Bool => s.2.1)
                (hsession.trans (session_of_bare hclient))
              exact .inr (.inr ⟨now, rfl, (lastSentAt_eq_iff c now).mp hlast⟩)
            · rintro (h | h | ⟨now', h, hlast⟩)
              · cases h
              · exact absurd h hnil
              · obtain rfl := Option.some.inj h
                rw [← lastSentAt_eq_iff] at hlast
                rw [← hlast] at hclient
                exact congrArg Except.ok (roundEnd_of_bare call hclient.symm _)

end

/-- A network that fails the next write. -/
def brokenWorld : World Unit := ⟨⟨0, [⟨.error, 0⟩], [], []⟩, ()⟩

theorem round_by_value_iff_farm :
    ∃ ss, Aligned (globalsOf farmSensors) ss ∧
      (roundByValue (fun (_ : Unit) _ a => a) exactUnit (globalsOf farmSensors)
            (steadyReadings 0 fun _ => false) 0 0 (.connected []) idleWorld =
          roundByPointer (fun (_ : Unit) _ a => a) exactUnit (globalsOf farmSensors)
            (steadyReadings 0 fun _ => false) 0 0 (.connected []) idleWorld ↔
        (Client.connected (H := Unit) []).isconnected = false ∨
          (roundTexts exactUnit (steadyReadings 0 fun _ => false) 0 ss (0, 0)).filter
              (fun m => FitsBuffer m) = [] ∨
          ∃ now, acceptedAt (.connected (H := Unit) [])
              ((roundTexts exactUnit (steadyReadings 0 fun _ => false) 0 ss (0, 0)).filter
                fun m => FitsBuffer m) idleWorld.net = some now ∧
            ((Client.connected (H := Unit) []).keepAliveInterval = 0 ∨
              (Client.connected (H := Unit) []).last_sent =
                .countdown now (Client.connected (H := Unit) []).keepAliveInterval)) :=
  round_by_value_iff _ parse_farmConfig exactUnit _ 0 0 _ _

/-- The write of the report fails, and the client of `main` stays connected. -/
theorem lost_connection_unnoticed :
    parse (config [element .dOut "lamp" 20]) = .ok (globalsOf [outputSensor "lamp" .p20]) ∧
      roundByValue (fun (_ : Unit) _ a => a) exactUnit (globalsOf [outputSensor "lamp" .p20])
          (steadyReadings 0 fun _ => false) 0 0 (.connected []) brokenWorld ≠
        roundByPointer (fun (_ : Unit) _ a => a) exactUnit (globalsOf [outputSensor "lamp" .p20])
          (steadyReadings 0 fun _ => false) 0 0 (.connected []) brokenWorld := by
  refine ⟨rfl, fun heq => ?_⟩
  have hsession := congrArg (fun e : Except Stop RoundEnd => e.toOption.map (·.session.1)) heq
  exact absurd hsession (by decide)

end RemotusHardware
