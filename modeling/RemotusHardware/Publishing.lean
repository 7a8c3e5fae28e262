import RemotusHardware.Update

/-! # A round on the wire

Every message of a round is a PUBLISH of QoS 0 with a text and its NUL as the payload.  On a
connected client `publish` makes a packet of it and hands it to the network, unless it is longer
than the send buffer of 100 bytes: then nothing is written, and as `sendMQTT` drops the return
code nobody knows (`publish_messageOf`).

With a network that takes every write in full a round puts the messages that fit on the wire, in
their order (`sendAll_sendMQTT`), so that every reading gets there exactly if no topic and text
are longer than 95 bytes together (`round_reaches_wire_iff`). -/

namespace RemotusHardware

open CLib

/-! ### The packet of a message -/

/-- The packet of a text on a topic. -/
def wirePacket (m : CString × List UInt8) : List UInt8 :=
  publishPacket 0 0 0 0 m.1.bytes (m.2 ++ [0])

/-- The packet fits the send buffer. -/
def FitsBuffer (m : CString × List UInt8) : Prop := strlen m.1 + m.2.length ≤ 95

instance (m : CString × List UInt8) : Decidable (FitsBuffer m) :=
  inferInstanceAs (Decidable (_ ≤ _))

theorem MQTTPacket_len_le_max (rem_len : ℕ) :
    MQTTPacket_len rem_len ≤ MAX_MQTT_PACKET_SIZE ↔ rem_len ≤ 98 := by
  unfold MQTTPacket_len MAX_MQTT_PACKET_SIZE
  dsimp only
  split
  case isTrue => omega
  case isFalse =>
    split
    case isTrue => omega
    case isFalse => split <;> omega

theorem MQTTPacket_len_le_iff (m : CString × List UInt8) :
    MQTTPacket_len (publishLength 0 m.1.bytes (m.2 ++ [0])) ≤ MAX_MQTT_PACKET_SIZE ↔
      FitsBuffer m := by
  have hlen : publishLength 0 m.1.bytes (m.2 ++ [0]) = strlen m.1 + m.2.length + 3 := by
    simp only [publishLength, strlen, List.length_append, List.length_singleton, lt_irrefl,
      if_false]
    omega
  rw [hlen, MQTTPacket_len_le_max]
  unfold FitsBuffer
  omega

theorem MQTTSerialize_publish_messageOf {m : CString × List UInt8} (h : (0 : UInt8) ∉ m.2) :
    MQTTSerialize_publish MAX_MQTT_PACKET_SIZE 0 (messageOf m.2).qos
      (messageOf m.2).retained.toNat 0
        (.ofCString m.1) (messageOf m.2).payload (messageOf m.2).payloadlen =
      if FitsBuffer m then some (wirePacket m) else none := by
  rw [messageOf_payloadlen h]
  change MQTTSerialize_publish MAX_MQTT_PACKET_SIZE 0 0 0 0 (.ofCString m.1) (m.2 ++ [0])
    (m.2 ++ [0]).length = _
  rw [MQTTSerialize_publish_eq]
  by_cases hfits : FitsBuffer m
  · rw [if_pos hfits, if_neg (Nat.not_lt.mpr ((MQTTPacket_len_le_iff m).mpr hfits)), wirePacket]
  · rw [if_neg hfits, if_pos (Nat.lt_of_not_le fun h => hfits ((MQTTPacket_len_le_iff m).mp h))]

/-! ### Publishing it -/

section
variable {H σ : Type}

/-- The client once `publish` has stored a packet of QoS 0. -/
def Client.retain (c : Client H) (packet : List UInt8) : Client H :=
  let c := c.store packet
  if !c.cleansession then
    { c with
      pubbuf := overwrite c.pubbuf 0 packet, inflightMsgid := 0
      inflightLen := packet.length, inflightQoS := 0 }
  else c

/-- What `publish` leaves of a client that has handed `packet` to the network, with `ok` the
outcome and `now` the time then. -/
def Client.published (c : Client H) (packet : List UInt8) (ok : Bool) (now : ℕ) : Client H :=
  { c.retain packet with
    last_sent := if ok = true ∧ 0 < c.keepAliveInterval then .countdown now c.keepAliveInterval
      else c.last_sent
    isconnected := ok }

/-- A packet is handed to the network with the time a command of the client has. -/
def Client.sendOn (c : Client H) (packet : List UInt8) (net : Net) : Bool × Net :=
  net.send packet packet.length (.countdown_ms net.now c.command_timeout_ms)

@[simp] theorem Client.retain_sendbuf (c : Client H) (packet : List UInt8) :
    (c.retain packet).sendbuf = overwrite c.sendbuf 0 packet := by
  unfold Client.retain
  dsimp only
  split <;> rfl

@[simp] theorem Client.retain_keepAliveInterval (c : Client H) (packet : List UInt8) :
    (c.retain packet).keepAliveInterval = c.keepAliveInterval := by
  unfold Client.retain
  dsimp only
  split <;> rfl

@[simp] theorem Client.retain_last_sent (c : Client H) (packet : List UInt8) :
    (c.retain packet).last_sent = c.last_sent := by
  unfold Client.retain
  dsimp only
  split <;> rfl

@[simp] theorem Client.retain_isconnected (c : Client H) (packet : List UInt8) :
    (c.retain packet).isconnected = c.isconnected := by
  unfold Client.retain
  dsimp only
  split <;> rfl

/-- A packet of QoS 0 is sent, and nothing waited for. -/
theorem publishPart_qos0 (call : H → MessageData → σ → σ) {c : Client H}
    (hc : c.isconnected = true) (length : ℕ) (timer : Countdown) (w : World σ) {ok : Bool}
    {net : Net} (h : w.net.send (c.sendbuf.take length) length timer = (ok, net)) :
    c.publishPart call length timer 0 w =
      ⟨if ok then SUCCESS else FAILURE,
        { c with
          last_sent := if ok = true ∧ 0 < c.keepAliveInterval then
              .countdown net.now c.keepAliveInterval
            else c.last_sent
          isconnected := ok },
        { w with net := net }⟩ := by
  cases c
  cases hc
  cases ok <;> simp [Client.publishPart, Client.sendPacket, h, SUCCESS, FAILURE]

/-- On a connected client a message that fits the buffer is handed to the network, and nothing
happens to one that does not. -/
theorem publish_messageOf (call : H → MessageData → σ → σ) {c : Client H}
    (hc : c.isconnected = true) {m : CString × List UInt8} (hnul : (0 : UInt8) ∉ m.2)
    (w : World σ) :
    c.publish call m.1 (messageOf m.2) w =
      if FitsBuffer m then
        ⟨if (c.sendOn (wirePacket m) w.net).1 then SUCCESS else FAILURE,
          c.published (wirePacket m) (c.sendOn (wirePacket m) w.net).1
            (c.sendOn (wirePacket m) w.net).2.now,
          { w with net := (c.sendOn (wirePacket m) w.net).2 }⟩
      else ⟨FAILURE, c, w⟩ := by
  have hqos : ¬ ((messageOf m.2).qos = 1 ∨ (messageOf m.2).qos = 2) := by simp [messageOf]
  simp only [Client.publish, hc, Bool.not_true, Bool.false_eq_true, if_false, if_neg hqos,
    MQTTSerialize_publish_messageOf hnul]
  by_cases hfits : FitsBuffer m
  · simp only [if_pos hfits]
    change (c.retain (wirePacket m)).publishPart call (wirePacket m).length
      (.countdown_ms w.net.now c.command_timeout_ms) 0 w = _
    rw [publishPart_qos0 call (by rw [Client.retain_isconnected, hc]) _ _ _
      (show _ = ((c.sendOn (wirePacket m) w.net).1, (c.sendOn (wirePacket m) w.net).2) by
        rw [Client.retain_sendbuf, overwrite_zero_take, Client.sendOn])]
    simp only [Client.retain_keepAliveInterval, Client.retain_last_sent, Client.published]
  · simp only [if_neg hfits]

/-- A client that is not connected publishes nothing. -/
theorem publish_disconnected (call : H → MessageData → σ → σ) {c : Client H}
    (hc : c.isconnected = false) (topic : CString) (message : Message) (w : World σ) :
    c.publish call topic message w = ⟨FAILURE, c, w⟩ := by
  simp [Client.publish, hc]

/-! ### A network that takes every write in full -/

/-- Every write to come is taken in full. -/
def Net.Full (net : Net) : Prop := ∀ o ∈ net.writes, o.accepted = .full

theorem sendLoop_full {length : ℕ} {timer : Countdown} {writes : List WriteOutcome} {now : ℕ}
    (hfull : ∀ o ∈ writes, o.accepted = .full) (hlength : 0 < length)
    (htimer : timer.expired now = false) :
    ∃ now', sendLoop length timer writes now 0 = (writes.tail, now', length) := by
  have hturn : (decide (0 < length) && !timer.expired now) = true := by simp [hlength, htimer]
  cases writes with
  | nil =>
      refine ⟨now, ?_⟩
      rw [sendLoop, hturn, if_pos rfl, Nat.zero_add, List.tail_nil]
  | cons w ws =>
      refine ⟨now + w.elapsed, ?_⟩
      have hw : w.accepted = .full := hfull w List.mem_cons_self
      rw [sendLoop, hturn, if_pos rfl, hw, Accepted.count]
      cases ws <;> simp [sendLoop]

/-- The packet goes out as it is. -/
theorem sendOn_full {c : Client H} (htimeout : 0 < c.command_timeout_ms) {packet : List UInt8}
    (hpacket : packet ≠ []) {net : Net} (hfull : net.Full) :
    (c.sendOn packet net).1 = true ∧
      (c.sendOn packet net).2.sent = net.sent ++ [⟨packet, packet.length⟩] ∧
      (c.sendOn packet net).2.Full := by
  have htimer : (Countdown.countdown_ms net.now c.command_timeout_ms).expired net.now = false := by
    simp [Countdown.expired, Countdown.countdown_ms]
    omega
  obtain ⟨now', hloop⟩ := sendLoop_full hfull (List.length_pos_iff.mpr hpacket) htimer
  unfold Client.sendOn Net.send
  rw [hloop, htimer]
  refine ⟨decide_eq_true rfl, rfl, ?_⟩
  intro o ho
  exact hfull o (List.mem_of_mem_tail ho)

theorem wirePacket_ne_nil (m : CString × List UInt8) : wirePacket m ≠ [] := by
  simp [wirePacket, publishPacket]

/-- The messages that fit go out, in their order. -/
theorem sendAll_sendMQTT (call : H → MessageData → σ → σ) {c : Client H}
    (hc : c.isconnected = true) (htimeout : 0 < c.command_timeout_ms) :
    ∀ (texts : List (CString × List UInt8)) (w : World σ), (∀ m ∈ texts, (0 : UInt8) ∉ m.2) →
      w.net.Full →
      (sendAll (sendMQTT call c) texts w).net.sent = w.net.sent ++
        (texts.filter fun m => FitsBuffer m).map fun m => ⟨wirePacket m, (wirePacket m).length⟩
  | [], w, _, _ => by simp [sendAll]
  | m :: texts, w, hnul, hfull => by
      have hm := hnul m List.mem_cons_self
      have hrest := fun m' hm' => hnul m' (List.mem_cons_of_mem m hm')
      have hstep : sendAll (sendMQTT call c) (m :: texts) w =
          sendAll (sendMQTT call c) texts (sendMQTT call c m.1 (messageOf m.2) w) := rfl
      rw [hstep]
      by_cases hfits : FitsBuffer m
      · obtain ⟨-, hsent, hfull'⟩ := sendOn_full htimeout (wirePacket_ne_nil m) hfull
        have hworld : sendMQTT call c m.1 (messageOf m.2) w =
            { w with net := (c.sendOn (wirePacket m) w.net).2 } := by
          rw [sendMQTT, publish_messageOf call hc hm, if_pos hfits]
        rw [hworld, sendAll_sendMQTT call hc htimeout texts _ hrest hfull', hsent,
          List.filter_cons_of_pos (by simpa using hfits), List.map_cons, List.append_assoc,
          List.singleton_append]
      · have hworld : sendMQTT call c m.1 (messageOf m.2) w = w := by
          rw [sendMQTT, publish_messageOf call hc hm, if_neg hfits]
        rw [hworld, sendAll_sendMQTT call hc htimeout texts w hrest hfull,
          List.filter_cons_of_neg (by simpa using hfits)]

end

/-! ### Every reading -/

/-- The packet `p`, taken whole, is a PUBLISH of QoS 0 with the topic of `m` and its text and a
NUL as the payload, whatever follows it in a buffer. -/
structure Carries (p : SentPacket) (m : CString × List UInt8) : Prop where
  whole : p.accepted = p.packet.length
  rc : ∀ rest, (MQTTDeserialize_publish (p.packet ++ rest)).rc = 1
  qos : ∀ rest, (MQTTDeserialize_publish (p.packet ++ rest)).qos = 0
  topic : ∀ rest, ∃ data,
    (MQTTDeserialize_publish (p.packet ++ rest)).topicName = ⟨none, ⟨strlen m.1, some data⟩⟩ ∧
      data.take (strlen m.1) = m.1.bytes
  payload : ∀ rest, ∃ data,
    (MQTTDeserialize_publish (p.packet ++ rest)).payload = some data ∧
      (MQTTDeserialize_publish (p.packet ++ rest)).payloadlen = m.2.length + 1 ∧
      data.take (m.2.length + 1) = m.2 ++ [0]

theorem carries_wirePacket {m : CString × List UInt8} (hfits : FitsBuffer m) :
    Carries ⟨wirePacket m, (wirePacket m).length⟩ m := by
  unfold FitsBuffer strlen at hfits
  have hlen : publishLength 0 m.1.bytes (m.2 ++ [0]) < 128 ^ 4 := by
    simp only [publishLength, List.length_append, List.length_singleton, lt_irrefl, if_false]
    omega
  have hread (rest : List UInt8) := MQTTDeserialize_publish_publishPacket (show 0 < 2 by decide)
    (show 0 < 4 by decide) (show 0 < 2 by decide) (show 0 < 65536 by decide)
    (show m.1.bytes.length < 65536 by omega) hlen rest
  refine ⟨rfl, fun rest => congrArg (·.rc) (hread rest), fun rest => congrArg (·.qos) (hread rest),
    fun rest => ⟨_, congrArg (·.topicName) (hread rest), List.take_left⟩,
    fun rest => ⟨_, congrArg (·.payload) (hread rest), ?_, ?_⟩⟩
  · rw [show (MQTTDeserialize_publish (wirePacket m ++ rest)).payloadlen = _ from
      congrArg (·.payloadlen) (hread rest)]
    simp
  · rw [show m.2.length + 1 = (m.2 ++ [0]).length by simp, List.take_left]

/-- A round on a connected client puts the reading of every sensor on the wire, in the order of
the tables, exactly if no topic and text are longer than 95 bytes together. -/
theorem round_reaches_wire_iff {v : Value} {G : Globals} (hv : parse v = .ok G) {H σ : Type}
    (call : H → MessageData → σ → σ) {c : Client H} (hc : c.isconnected = true)
    (htimeout : c.command_timeout_ms = 30000) {F : Type} (u : FloatUnit F) (r : Readings F)
    (temperatura humedad : F) {w : World σ} (hfull : w.net.Full) :
    ∃ ss, Aligned G ss ∧
      ((∃ t packets, updateSensorData u G r (sendMQTT call c) ⟨temperatura, humedad, w⟩ = .ok t ∧
          t.out.net.sent = w.net.sent ++ packets ∧ packets.length = G.numSensors ∧
          List.Forall₂ Carries packets (roundTexts u r 0 ss (temperatura, humedad))) ↔
        ∀ m ∈ roundTexts u r 0 ss (temperatura, humedad), strlen m.1 + m.2.length ≤ 95) := by
  obtain ⟨-, -, ss, -, -, hG⟩ := parse_ok hv
  refine ⟨ss, hG, ?_⟩
  have hrun : updateSensorData u G r (sendMQTT call c) ⟨temperatura, humedad, w⟩ = .ok _ :=
    updateSensorData_eq hG _
  have hsent := sendAll_sendMQTT call hc (by omega) (roundTexts u r 0 ss (temperatura, humedad)) w
    (nul_notMem_roundTexts u r 0 ss _) hfull
  have hlen := roundTexts_length u r 0 ss (temperatura, humedad)
  constructor
  · rintro ⟨t, packets, ht, hpackets, hnum, -⟩ m hm
    rw [hrun] at ht
    rw [← Except.ok.inj ht] at hpackets
    have heq := List.append_cancel_left (hsent.symm.trans hpackets)
    have hcount := congrArg List.length heq
    rw [List.length_map, hnum, hG.numSensors, ← hlen] at hcount
    have hall := List.length_filter_eq_length_iff.mp hcount m hm
    exact of_decide_eq_true hall
  · intro hall
    have hfilter : (roundTexts u r 0 ss (temperatura, humedad)).filter (fun m => FitsBuffer m) =
        roundTexts u r 0 ss (temperatura, humedad) :=
      List.filter_eq_self.mpr fun m hm => decide_eq_true (hall m hm)
    rw [hfilter] at hsent
    refine ⟨_, _, hrun, hsent, ?_, ?_⟩
    · rw [List.length_map, hlen, hG.numSensors]
    · rw [List.forall₂_map_left_iff]
      exact List.forall₂_same.mpr fun m hm => carries_wirePacket (hall m hm)

/-- A network to which nothing has been written, and that takes what is. -/
def idleWorld : World Unit := ⟨⟨0, [], [], []⟩, ()⟩

theorem idleWorld_full : idleWorld.net.Full := by
  intro o ho
  cases ho

theorem round_reaches_wire_iff_farm :
    ∃ ss, Aligned (globalsOf farmSensors) ss ∧
      ((∃ t packets, updateSensorData exactUnit (globalsOf farmSensors)
            (steadyReadings 0 fun _ => false)
            (sendMQTT (fun (_ : Unit) _ a => a) (.connected [])) ⟨0, 0, idleWorld⟩ = .ok t ∧
          t.out.net.sent = idleWorld.net.sent ++ packets ∧
          packets.length = (globalsOf farmSensors).numSensors ∧
          List.Forall₂ Carries packets
            (roundTexts exactUnit (steadyReadings 0 fun _ => false) 0 ss (0, 0))) ↔
        ∀ m ∈ roundTexts exactUnit (steadyReadings 0 fun _ => false) 0 ss (0, 0),
          strlen m.1 + m.2.length ≤ 95) :=
  round_reaches_wire_iff parse_farmConfig _ rfl rfl exactUnit _ 0 0 idleWorld_full

/-- A topic of 95 bytes. -/
def deepTopic : String :=
  "farm/north-field/greenhouse-3/irrigation/valve-group-b/solenoid-valve-07/relay-output-state/now"

set_option maxRecDepth 4000 in
/-- With the one digit of an output it is one byte too long. -/
theorem deepTopic_not_written :
    parse (config [element .dOut deepTopic 20]) = .ok (globalsOf [outputSensor deepTopic .p20]) ∧
      ¬ ∃ t packets, updateSensorData exactUnit (globalsOf [outputSensor deepTopic .p20])
            (steadyReadings 0 fun _ => false)
            (sendMQTT (fun (_ : Unit) _ a => a) (.connected [])) ⟨0, 0, idleWorld⟩ = .ok t ∧
          t.out.net.sent = idleWorld.net.sent ++ packets ∧
          packets.length = (globalsOf [outputSensor deepTopic .p20]).numSensors ∧
          List.Forall₂ Carries packets (roundTexts exactUnit (steadyReadings 0 fun _ => false) 0
            [outputSensor deepTopic .p20] (0, 0)) := by
  refine ⟨rfl, ?_⟩
  rintro ⟨t, packets, ht, hsent, hnum, -⟩
  rw [updateSensorData_eq (globalsOf_aligned _)] at ht
  rw [← Except.ok.inj ht] at hsent
  have hnone := sendAll_sendMQTT (fun (_ : Unit) _ (a : Unit) => a) (c := .connected []) rfl
    (by decide) (roundTexts exactUnit (steadyReadings 0 fun _ => false) 0
      [outputSensor deepTopic .p20] (0, 0)) idleWorld (nul_notMem_roundTexts _ _ _ _ _)
    idleWorld_full
  have hfilter : ((roundTexts exactUnit (steadyReadings 0 fun _ => false) 0
      [outputSensor deepTopic .p20] (0, 0)).filter fun m => FitsBuffer m) = [] := by decide +kernel
  rw [hfilter] at hnone
  have hempty : packets = [] := by
    have := hsent.symm.trans hnone
    simpa using this
  rw [hempty] at hnum
  cases hnum

end RemotusHardware
