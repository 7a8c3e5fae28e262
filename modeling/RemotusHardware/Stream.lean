import RemotusHardware.Cycle
import RemotusHardware.Delivery
import RemotusHardware.Publishing

/-! # Streams of packets

What the broker sends is a stream of packets, and each reaches the client as a read of the header
byte, one of the length and one of the rest; a rest that comes in two parts would be dropped.  While
the client is at work in `yield` or `waitfor` it takes packet after packet off the stream.  `Served`
says what it has done by then: the messages of the PUBLISH packets read so far have been handed to
the handlers, each once and in their order, and apart from pings the network has been handed
`replies`.  These are the PUBACKs and PUBRECs for the PUBLISH packets of QoS 1 and 2, each taken in
full; a `yield` that fails has come to one that was not (`Acknowledged`).  What a turn does with a
packet is `cycle_arrival`, and `yield_serves` says it of a whole run, whatever the network does to
what is written.

If the network takes what is written and the stream ends before the time is up, `yield` gets to its
end (`yield_complete`).  A stream is in time for the timers of 32 bits if it and the timeout end
within 35 minutes (`Net.Delivers`). -/

namespace RemotusHardware

open CLib Wire

/-! ### Packets on their way to the client -/

/-- A PUBLISH packet that fits the read buffer. -/
structure Publish where
  dup : ℕ
  qos : ℕ
  retained : ℕ
  packetid : ℕ
  topic : List UInt8
  payload : List UInt8
  dup_lt : dup < 2
  qos_le : qos ≤ 2
  retained_lt : retained < 2
  packetid_lt : packetid < 65536
  fits : publishLength qos topic payload + 2 ≤ MAX_MQTT_PACKET_SIZE

/-- A packet from the broker that fits the read buffer. -/
inductive Incoming where
  | publish (p : Publish)
  | other (header : UInt8) (body : List UInt8) (type : headerType header ≠ PUBLISH)
      (fits : body.length + 2 ≤ MAX_MQTT_PACKET_SIZE)

namespace Incoming

def header : Incoming → UInt8
  | publish p => headerByte PUBLISH p.dup p.qos p.retained
  | other header _ _ _ => header

/-- What follows the length. -/
def body : Incoming → List UInt8
  | publish p => putWord p.topic.length ++ p.topic ++ (idBytes p.qos p.packetid ++ p.payload)
  | other _ body _ _ => body

def packet (m : Incoming) : List UInt8 := m.header :: UInt8.ofNat m.body.length :: m.body

/-- The PUBLISH packet it is. -/
def publish? : Incoming → Option Publish
  | publish p => some p
  | other _ _ _ _ => none

/-- The packet the client answers with. -/
def acknowledgement : Incoming → Option (List UInt8)
  | publish p => Client.acknowledge p.qos p.packetid
  | other _ _ _ _ => none

theorem publish_body_length (p : Publish) :
    (publish p).body.length = publishLength p.qos p.topic p.payload := by
  by_cases hq : 0 < p.qos
  · simp only [body, idBytes, publishLength, putWord, if_pos hq, List.length_append,
      List.length_cons, List.length_nil]
    omega
  · simp only [body, idBytes, publishLength, putWord, if_neg hq, List.length_append,
      List.length_cons, List.length_nil]
    omega

theorem body_length_le (m : Incoming) : m.body.length + 2 ≤ MAX_MQTT_PACKET_SIZE := by
  cases m with
  | publish p =>
      rw [publish_body_length]
      exact p.fits
  | other _ _ _ fits => exact fits

theorem packet_length (m : Incoming) : m.packet.length = m.body.length + 2 := by simp [packet]

theorem encode_body (m : Incoming) :
    MQTTPacket_encode m.body.length = [UInt8.ofNat m.body.length] := by
  have hfits := m.body_length_le
  have hmax : MAX_MQTT_PACKET_SIZE = 100 := rfl
  exact putGroups_of_lt (by omega)

theorem packet_publish (p : Publish) : (publish p).packet =
    publishPacket p.dup p.qos p.retained p.packetid p.topic p.payload := by
  have henc := encode_body (publish p)
  rw [publishPacket, ← publish_body_length, henc]
  rfl

end Incoming

/-- A packet and the time each of its reads takes. -/
structure Arrival where
  incoming : Incoming
  headerTime : ℕ
  lengthTime : ℕ
  bodyTime : ℕ

namespace Arrival

/-- The reads it takes; there is none for an empty rest. -/
def reads (a : Arrival) : List ReadOutcome :=
  ⟨some [a.incoming.header], a.headerTime⟩ ::
    ⟨some [UInt8.ofNat a.incoming.body.length], a.lengthTime⟩ ::
      if a.incoming.body = [] then [] else [⟨some a.incoming.body, a.bodyTime⟩]

def elapsed (a : Arrival) : ℕ := (a.reads.map (·.elapsed)).sum

end Arrival

theorem decodePacket_arrival (timer : Countdown) {n : ℕ} (hn : n < 128) (net : Net) {t : ℕ}
    {os : List ReadOutcome} (h : net.reads = ⟨some [UInt8.ofNat n], t⟩ :: os) :
    Client.decodePacket timer 4 0 1 net = (n, { net with reads := os, now := net.now + t }) := by
  have hbyte : (UInt8.ofNat n).toNat = n := by simp; omega
  have hmod : n % 128 = n := Nat.mod_eq_of_lt hn
  rw [Client.decodePacket, Net.read, h]
  simp only [Option.map_some, List.take_succ_cons, List.take_zero, hbyte, hmod, Nat.zero_add,
    Nat.mul_one]
  rw [if_neg (by omega)]

section
variable {H σ : Type}

/-- The client with a packet in its buffer. -/
def Client.received (c : Client H) (a : Arrival) (now : ℕ) : Client H :=
  { c with
    readbuf := a.incoming.packet ++ c.readbuf.drop a.incoming.packet.length
    last_received :=
      if 0 < c.keepAliveInterval then .countdown (now + a.elapsed) c.keepAliveInterval
      else c.last_received }

/-- The network behind a packet. -/
def Net.behind (net : Net) (a : Arrival) (os : List ReadOutcome) : Net :=
  { net with reads := os, now := net.now + a.elapsed }

theorem readPacket_arrival (timer : Countdown) {c : Client H} {net : Net} {a : Arrival}
    {os : List ReadOutcome} (h : net.reads = a.reads ++ os) :
    c.readPacket timer net =
      ((headerType a.incoming.header : ℤ), c.received a net.now, net.behind a os) := by
  have hlen := a.incoming.body_length_le
  have hmax : MAX_MQTT_PACKET_SIZE = 100 := rfl
  have hreads : net.reads = ⟨some [a.incoming.header], a.headerTime⟩ ::
      ⟨some [UInt8.ofNat a.incoming.body.length], a.lengthTime⟩ ::
        ((if a.incoming.body = [] then [] else [⟨some a.incoming.body, a.bodyTime⟩]) ++ os) := by
    rw [h, Arrival.reads]
    rfl
  have hdec := decodePacket_arrival timer (show a.incoming.body.length < 128 by omega)
    { net with
      reads := ⟨some [UInt8.ofNat a.incoming.body.length], a.lengthTime⟩ ::
        ((if a.incoming.body = [] then [] else [⟨some a.incoming.body, a.bodyTime⟩]) ++ os)
      now := net.now + a.headerTime } rfl
  rw [Client.readPacket, Net.read, hreads]
  simp only [Option.map_some, List.take_succ_cons, List.take_zero, hdec, a.incoming.encode_body]
  by_cases hbody : a.incoming.body = []
  · have helapsed : a.elapsed = a.headerTime + a.lengthTime := by
      simp [Arrival.elapsed, Arrival.reads, hbody]
    have hpacket : a.incoming.packet = [a.incoming.header, UInt8.ofNat 0] := by
      rw [Incoming.packet, hbody, List.length_nil]
    rw [Client.received, Net.behind, helapsed, hpacket, hbody, ← Nat.add_assoc]
    rfl
  · have helapsed : a.elapsed = a.headerTime + a.lengthTime + a.bodyTime := by
      simp [Arrival.elapsed, Arrival.reads, hbody, Nat.add_assoc]
    have hpos : 0 < a.incoming.body.length := List.length_pos_iff.mpr hbody
    have hbuffer (buf : List UInt8) :
        overwrite (overwrite buf 0 [a.incoming.header, UInt8.ofNat a.incoming.body.length]) 2
          a.incoming.body = a.incoming.packet ++ buf.drop a.incoming.packet.length := by
      simp [overwrite, Incoming.packet, Nat.add_comm 2]
    simp only [if_pos hpos, if_neg hbody, Net.read, List.cons_append,
      Option.map_some, List.take_length, decide_true, if_true]
    rw [Client.received, Net.behind, helapsed, ← hbuffer, ← Nat.add_assoc, ← Nat.add_assoc]
    rfl

/-! ### What the client sends on the way -/

/-- A PINGREQ. -/
def pingreqPacket : List UInt8 := [192, 0]

/-- The client has been at work: only its buffers, its timers and the ping flag are others. -/
def Client.AtWork (c c' : Client H) : Prop :=
  c' = { c with
    sendbuf := c'.sendbuf, readbuf := c'.readbuf, last_sent := c'.last_sent
    last_received := c'.last_received, ping_outstanding := c'.ping_outstanding }

theorem Client.AtWork.refl (c : Client H) : c.AtWork c := rfl

theorem Client.AtWork.trans {c₁ c₂ c₃ : Client H} (h : c₁.AtWork c₂) (h' : c₂.AtWork c₃) :
    c₁.AtWork c₃ := by
  unfold Client.AtWork at h h' ⊢
  rw [h] at h'
  exact h'

/-- The time at which all that is listed has happened, if nothing else is waited for. -/
def Net.ahead (net : Net) : ℕ :=
  net.now + (net.reads.map (·.elapsed)).sum + (net.writes.map (·.elapsed)).sum

/-- The client has handed packets to the network and nothing else has happened. -/
structure Wrote (handed : List SentPacket) (c : Client H) (w : World σ) (c' : Client H)
    (w' : World σ) : Prop where
  atWork : c.AtWork c'
  readbuf : c'.readbuf = c.readbuf
  app : w'.app = w.app
  reads : w'.net.reads = w.net.reads
  writes : w'.net.writes <:+ w.net.writes
  sent : w'.net.sent = w.net.sent ++ handed
  ahead : w'.net.ahead ≤ w.net.ahead

theorem Wrote.nothing (c : Client H) (w : World σ) : Wrote [] c w c w where
  atWork := .refl c
  readbuf := rfl
  app := rfl
  reads := rfl
  writes := List.suffix_refl _
  sent := (List.append_nil _).symm
  ahead := le_rfl

theorem Wrote.trans {ps qs : List SentPacket} {c₁ c₂ c₃ : Client H} {w₁ w₂ w₃ : World σ}
    (h : Wrote ps c₁ w₁ c₂ w₂) (h' : Wrote qs c₂ w₂ c₃ w₃) : Wrote (ps ++ qs) c₁ w₁ c₃ w₃ where
  atWork := h.atWork.trans h'.atWork
  readbuf := h'.readbuf.trans h.readbuf
  app := h'.app.trans h.app
  reads := h'.reads.trans h.reads
  writes := h'.writes.trans h.writes
  sent := by rw [h'.sent, h.sent, List.append_assoc]
  ahead := h'.ahead.trans h.ahead

theorem sendLoop_ahead (length : ℕ) (timer : Countdown) :
    ∀ (writes : List WriteOutcome) (now sent : ℕ),
      (sendLoop length timer writes now sent).2.1 +
          ((sendLoop length timer writes now sent).1.map (·.elapsed)).sum ≤
        now + (writes.map (·.elapsed)).sum := by
  intro writes
  induction writes with
  | nil => exact fun now sent => le_rfl
  | cons w ws ih =>
      intro now sent
      rw [List.map_cons, List.sum_cons, ← Nat.add_assoc]
      unfold sendLoop
      split
      · split
        · exact le_rfl
        · exact ih _ _
      · simp only [List.map_cons, List.sum_cons]
        omega

/-- A packet is stored and handed over once, or not at all; it is sent if just its bytes are
taken. -/
theorem sendPacket_wrote {packet : List UInt8} (hpacket : packet ≠ []) (timer : Countdown)
    (c : Client H) (w : World σ) :
    ∃ handed, Wrote handed c w ((c.store packet).sendPacket packet.length timer w).client
        ((c.store packet).sendPacket packet.length timer w).world ∧
      (handed = [] ∨ ∃ accepted, handed = [⟨packet, accepted⟩]) ∧
      (((c.store packet).sendPacket packet.length timer w).rc = SUCCESS ↔
        handed = [⟨packet, packet.length⟩]) := by
  have hahead := sendLoop_ahead packet.length timer w.net.writes w.net.now 0
  have hlater := sendLoop_later packet.length timer w.net.writes w.net.now 0
  obtain ⟨hworld, -⟩ := sendPacket_store packet timer c w
  obtain ⟨handed, hsent, honce, hrc⟩ := sendPacket_handed hpacket timer c w
  have hclient : c.AtWork ((c.store packet).sendPacket packet.length timer w).client ∧
      ((c.store packet).sendPacket packet.length timer w).client.readbuf = c.readbuf := by
    rw [Client.sendPacket]
    generalize w.net.send ((c.store packet).sendbuf.take packet.length) packet.length timer = s
    obtain ⟨ok, net⟩ := s
    cases ok with
    | true => exact ⟨rfl, rfl⟩
    | false => exact ⟨rfl, rfl⟩
  refine ⟨handed, ⟨hclient.1, hclient.2, ?_, ?_, ?_, hsent, ?_⟩, honce, hrc⟩
  · rw [hworld]
  · rw [hworld]
    rfl
  · rw [hworld]
    exact hlater.2
  · rw [hworld]
    have hsum : (w.net.send packet packet.length timer).2.ahead =
        (sendLoop packet.length timer w.net.writes w.net.now 0).2.1 +
          (w.net.reads.map (·.elapsed)).sum +
          ((sendLoop packet.length timer w.net.writes w.net.now 0).1.map (·.elapsed)).sum := rfl
    rw [hsum, Net.ahead]
    omega

/-- `keepalive` sends a PINGREQ or nothing. -/
theorem keepalive_wrote (c : Client H) (w : World σ) :
    ∃ pings, Wrote pings c w (c.keepalive w).1 (c.keepalive w).2 ∧
      ∀ p ∈ pings, p.packet = pingreqPacket := by
  unfold Client.keepalive
  split
  · exact ⟨[], .nothing c w, by simp⟩
  · split
    · have hping : MQTTSerialize_pingreq MAX_MQTT_PACKET_SIZE = some pingreqPacket := rfl
      simp only [hping]
      obtain ⟨handed, hwrote, honce, -⟩ :=
        sendPacket_wrote (show pingreqPacket ≠ [] by decide) (.countdown_ms w.net.now 1000) c w
      have hpings : ∀ p ∈ handed, p.packet = pingreqPacket := by
        rcases honce with rfl | ⟨accepted, rfl⟩ <;> simp
      split
      · exact ⟨handed, ⟨hwrote.atWork.trans rfl, hwrote.readbuf, hwrote.app, hwrote.reads,
          hwrote.writes, hwrote.sent, hwrote.ahead⟩, hpings⟩
      · exact ⟨handed, hwrote, hpings⟩
    · exact ⟨[], .nothing c w, by simp⟩

/-- What has been handed to the network besides pings. -/
def replies (sent : List SentPacket) : List SentPacket :=
  sent.filter fun p => p.packet ≠ pingreqPacket

theorem replies_append (ps qs : List SentPacket) : replies (ps ++ qs) = replies ps ++ replies qs :=
  List.filter_append ..

theorem replies_pings {pings : List SentPacket} (h : ∀ p ∈ pings, p.packet = pingreqPacket) :
    replies pings = [] := by
  rw [replies, List.filter_eq_nil_iff]
  intro p hp
  simp [h p hp]

/-- A packet all of whose bytes have been taken, and no more. -/
def whole (packet : List UInt8) : SentPacket := ⟨packet, packet.length⟩

/-- A packet that has not been handed to the network, for want of time, or of which another number
of bytes has been taken. -/
def Cut (packet : List UInt8) (handed : List SentPacket) : Prop :=
  handed = [] ∨ ∃ accepted ≠ packet.length, handed = [⟨packet, accepted⟩]

/-! ### A turn of the client -/

/-- A message, as the handlers see it, is that of a PUBLISH packet; behind the topic and the
payload they see the bytes that follow in the buffer. -/
structure Publish.SeenAs (p : Publish) (md : MessageData) : Prop where
  qos : md.message.qos = p.qos
  dup : md.message.dup = decide (p.dup ≠ 0)
  retained : md.message.retained = decide (p.retained ≠ 0)
  id : 0 < p.qos → md.message.id = p.packetid
  payload : p.payload <+: md.message.payload
  payloadlen : md.message.payloadlen = p.payload.length
  cstring : md.topicName.cstring = none
  topic : ∃ tail, md.topicName.lenstring.data = some (p.topic ++ tail)
  topicLen : md.topicName.lenstring.len = p.topic.length

theorem Publish.seenAs (p : Publish) (rest : List UInt8) :
    (MQTTDeserialize_publish ((Incoming.publish p).packet ++ rest)).rc = 1 ∧
      p.SeenAs (arrivedData ((Incoming.publish p).packet ++ rest)) := by
  have hfits := p.fits
  have hmax : MAX_MQTT_PACKET_SIZE = 100 := rfl
  have hlen : publishLength p.qos p.topic p.payload < 128 ^ 4 := by omega
  have htopic : p.topic.length < 65536 := by
    have : 2 + p.topic.length ≤ publishLength p.qos p.topic p.payload := by
      unfold publishLength
      omega
    omega
  have hread := MQTTDeserialize_publish_publishPacket p.dup_lt (show p.qos < 4 by
    have := p.qos_le; omega) p.retained_lt p.packetid_lt htopic hlen rest
  rw [Incoming.packet_publish, arrivedData, hread]
  refine ⟨rfl, ⟨rfl, rfl, rfl, ?_, List.prefix_append _ _, rfl, rfl, ⟨_, rfl⟩, rfl⟩⟩
  intro hq
  simp only [PublishFields.message, if_pos hq, Option.getD_some]

/-- What the client has done on the way from one state to another with the packets `done`. -/
structure Served (call : H → MessageData → σ → σ) (done : List Incoming)
    (answers : List SentPacket) (c : Client H) (w : World σ) (c' : Client H) (w' : World σ) :
    Prop where
  atWork : c.AtWork c'
  handed : ∃ mds, List.Forall₂ Publish.SeenAs (done.filterMap Incoming.publish?) mds ∧
    w'.app = mds.foldl (fun a md => (c.deliverMessage call md.topicName md.message a).2) w.app
  answered : ∃ sent, w'.net.sent = w.net.sent ++ sent ∧ replies sent = answers
  writes : w'.net.writes <:+ w.net.writes

variable (call : H → MessageData → σ → σ)

variable {call} in
theorem Client.AtWork.deliverMessage {c c' : Client H} (h : c.AtWork c') :
    c'.deliverMessage call = c.deliverMessage call := by
  rw [h]
  rfl

variable {call} in
theorem Served.trans {xs ys : List Incoming} {ps qs : List SentPacket} {c₁ c₂ c₃ : Client H}
    {w₁ w₂ w₃ : World σ} (h : Served call xs ps c₁ w₁ c₂ w₂)
    (h' : Served call ys qs c₂ w₂ c₃ w₃) : Served call (xs ++ ys) (ps ++ qs) c₁ w₁ c₃ w₃ := by
  obtain ⟨mds, hseen, happ⟩ := h.handed
  obtain ⟨mds', hseen', happ'⟩ := h'.handed
  obtain ⟨sent, hsent, hps⟩ := h.answered
  obtain ⟨sent', hsent', hqs⟩ := h'.answered
  refine ⟨h.atWork.trans h'.atWork, ⟨mds ++ mds', ?_, ?_⟩, ⟨sent ++ sent', ?_, ?_⟩,
    h'.writes.trans h.writes⟩
  · rw [List.filterMap_append]
    exact List.rel_append hseen hseen'
  · rw [happ', happ, List.foldl_append, h.atWork.deliverMessage]
  · rw [hsent', hsent, List.append_assoc]
  · rw [replies_append, hps, hqs]

/-- Pings do not count. -/
theorem Wrote.served {pings : List SentPacket} {c : Client H} {w : World σ} {c' : Client H}
    {w' : World σ} (h : Wrote pings c w c' w') (hpings : ∀ p ∈ pings, p.packet = pingreqPacket) :
    Served call [] [] c w c' w' :=
  ⟨h.atWork, ⟨[], .nil, h.app⟩, ⟨pings, h.sent, replies_pings hpings⟩, h.writes⟩

/-- The end of a turn. -/
theorem cycleEnd_served (packet_type : ℤ) (c : Client H) (w : World σ) :
    Served call [] [] c w (Client.cycleEnd packet_type c w).client
        (Client.cycleEnd packet_type c w).world ∧
      (Client.cycleEnd packet_type c w).world.net.reads = w.net.reads ∧
      (Client.cycleEnd packet_type c w).world.net.ahead ≤ w.net.ahead := by
  obtain ⟨pings, hwrote, hpings⟩ := keepalive_wrote c w
  exact ⟨hwrote.served call hpings, hwrote.reads, hwrote.ahead⟩

/-- What a turn does with an incoming PUBLISH once it has been read into the buffer of `c`. -/
def Client.answer (timer : Countdown) (p : Publish) (c : Client H) (w : World σ) : Result H σ :=
  match Client.acknowledge p.qos p.packetid with
  | none => Client.cycleEnd PUBLISH c w
  | some packet =>
      let r := (c.store packet).sendPacket packet.length timer w
      if r.rc = FAILURE then r else Client.cycleEnd PUBLISH r.client r.world

theorem cycle_publish (timer : Countdown) {c : Client H} {w : World σ} {a : Arrival} {p : Publish}
    {os : List ReadOutcome} (hp : a.incoming = .publish p) (h : w.net.reads = a.reads ++ os) :
    ∃ md, p.SeenAs md ∧ c.cycle call timer w = (c.received a w.net.now).answer timer p
      ⟨w.net.behind a os, (c.deliverMessage call md.topicName md.message w.app).2⟩ := by
  have htype : headerType a.incoming.header = PUBLISH := by
    rw [hp]
    exact headerType_headerByte (by decide) _ _ _
  have hread := readPacket_arrival timer (c := c) h
  rw [htype] at hread
  have hdeliver : (c.received a w.net.now).deliverMessage call = c.deliverMessage call := rfl
  obtain ⟨hrc, hseen⟩ := p.seenAs (c.readbuf.drop a.incoming.packet.length)
  rw [← hp, show a.incoming.packet ++ c.readbuf.drop a.incoming.packet.length =
    (c.received a w.net.now).readbuf from rfl] at hrc hseen
  generalize c.received a w.net.now = c₁ at *
  generalize w.net.behind a os = net at *
  refine ⟨arrivedData c₁.readbuf, hseen, ?_⟩
  have hqos : (MQTTDeserialize_publish c₁.readbuf).message.qos = p.qos := hseen.qos
  have hid : 0 < p.qos → (MQTTDeserialize_publish c₁.readbuf).message.id = p.packetid := hseen.id
  have hpos : ¬ ((PUBLISH : ℕ) : ℤ) < 0 := by decide
  simp only [Client.cycle, hread, if_neg hpos, if_true, hrc, hqos, ne_eq, not_true_eq_false,
    if_false, hdeliver, Client.answer, arrivedData]
  by_cases hq : p.qos = 0
  · have hack : Client.acknowledge p.qos p.packetid = none := by simp [Client.acknowledge, hq]
    rw [if_pos hq, hack]
  · rw [if_neg hq, hid (Nat.pos_of_ne_zero hq)]
    cases hack : Client.acknowledge p.qos p.packetid with
    | none =>
        exfalso
        have hle := p.qos_le
        obtain h1 | h2 : p.qos = 1 ∨ p.qos = 2 := by omega
        · simp [Client.acknowledge, h1, MQTTSerialize_ack, MAX_MQTT_PACKET_SIZE] at hack
        · simp [Client.acknowledge, h2, MQTTSerialize_ack, MAX_MQTT_PACKET_SIZE] at hack
    | some packet => rfl

/-- A packet that is no PUBLISH changes at most the ping flag. -/
theorem cycle_other (timer : Countdown) {c : Client H} {w : World σ} {a : Arrival}
    {os : List ReadOutcome} (ha : headerType a.incoming.header ≠ PUBLISH)
    (h : w.net.reads = a.reads ++ os) :
    ∃ c₁, c.AtWork c₁ ∧ c.cycle call timer w =
      Client.cycleEnd (headerType a.incoming.header : ℤ) c₁ ⟨w.net.behind a os, w.app⟩ := by
  have hpos : ¬ ((headerType a.incoming.header : ℕ) : ℤ) < 0 := by omega
  have htype : ¬ ((headerType a.incoming.header : ℕ) : ℤ) = (PUBLISH : ℕ) := by exact_mod_cast ha
  by_cases hping : ((headerType a.incoming.header : ℕ) : ℤ) = (PINGRESP : ℕ)
  · refine ⟨{ c.received a w.net.now with ping_outstanding := false }, rfl, ?_⟩
    simp only [Client.cycle, readPacket_arrival timer h, if_neg hpos, if_neg htype, if_pos hping]
  · refine ⟨c.received a w.net.now, rfl, ?_⟩
    simp only [Client.cycle, readPacket_arrival timer h, if_neg hpos, if_neg htype, if_neg hping]

/-- An acknowledgement is no ping. -/
theorem acknowledge_some {qos id : ℕ} {packet : List UInt8}
    (h : Client.acknowledge qos id = some packet) : packet ≠ [] ∧ packet ≠ pingreqPacket := by
  have hack (type : ℕ) (htype : type = PUBACK ∨ type = PUBREC)
      (hs : MQTTSerialize_ack MAX_MQTT_PACKET_SIZE type 0 id = some packet) :
      packet ≠ [] ∧ packet ≠ pingreqPacket := by
    simp only [MQTTSerialize_ack, MAX_MQTT_PACKET_SIZE, Option.some.injEq,
      show ¬ 100 < 4 by decide, if_false] at hs
    rw [← hs]
    refine ⟨List.cons_ne_nil _ _, fun he => ?_⟩
    rcases htype with rfl | rfl
    · exact absurd (List.cons.inj he).1 (by decide)
    · exact absurd (List.cons.inj he).1 (by decide)
  unfold Client.acknowledge at h
  split at h
  · exact hack _ (.inl rfl) h
  · split at h
    · exact hack _ (.inr rfl) h
    · cases h

omit call in
/-- The answer to a PUBLISH and pings are all that is sent for it, and a turn fails if the answer
does not go out. -/
theorem answer_wrote (timer : Countdown) (p : Publish) (c : Client H) (w : World σ) :
    ∃ handed, Wrote handed c w (c.answer timer p w).client (c.answer timer p w).world ∧
      ((c.answer timer p w).rc ≠ FAILURE →
        replies handed = (Client.acknowledge p.qos p.packetid).toList.map whole) ∧
      ((c.answer timer p w).rc = FAILURE →
        ∃ ack, Client.acknowledge p.qos p.packetid = some ack ∧ Cut ack (replies handed)) := by
  have hend (c : Client H) (w : World σ) : (Client.cycleEnd PUBLISH c w).rc ≠ FAILURE :=
    show (3 : ℤ) ≠ -1 by decide
  unfold Client.answer
  cases hack : Client.acknowledge p.qos p.packetid with
  | none =>
      obtain ⟨pings, hwrote, hpings⟩ := keepalive_wrote c w
      exact ⟨pings, hwrote, fun _ => replies_pings hpings, fun hrc => absurd hrc (hend c w)⟩
  | some packet =>
      obtain ⟨hne, hnoping⟩ := acknowledge_some hack
      obtain ⟨handed, hwrote, honce, hsuccess⟩ := sendPacket_wrote hne timer c w
      have hreplies : replies handed = handed := by
        rcases honce with rfl | ⟨accepted, rfl⟩
        · rfl
        · simp [replies, hnoping]
      have hrc : ((c.store packet).sendPacket packet.length timer w).rc = SUCCESS ∨
          ((c.store packet).sendPacket packet.length timer w).rc = FAILURE := by
        rw [(sendPacket_store packet timer c w).2]
        split <;> simp
      dsimp only
      split
      case isTrue hfailure =>
        refine ⟨handed, hwrote, fun h => absurd hfailure h, fun _ => ⟨packet, rfl, ?_⟩⟩
        rw [hreplies]
        apply honce.imp_right
        rintro ⟨accepted, rfl⟩
        refine ⟨accepted, ?_, rfl⟩
        rintro rfl
        exact absurd ((hsuccess.mpr rfl).symm.trans hfailure) (by decide)
      case isFalse hfailure =>
        obtain ⟨pings, hpinged, hpings⟩ := keepalive_wrote
          ((c.store packet).sendPacket packet.length timer w).client
          ((c.store packet).sendPacket packet.length timer w).world
        refine ⟨handed ++ pings, hwrote.trans hpinged, fun _ => ?_,
          fun h => absurd h (hend _ _)⟩
        rw [replies_append, replies_pings hpings, hreplies, List.append_nil,
          hsuccess.mp (hrc.resolve_right hfailure)]
        rfl

theorem behind_ahead {w : World σ} {a : Arrival} {os : List ReadOutcome}
    (h : w.net.reads = a.reads ++ os) : (w.net.behind a os).ahead = w.net.ahead := by
  rw [Net.ahead, Net.ahead, h, List.map_append, List.sum_append, Net.behind]
  dsimp only [Arrival.elapsed]
  omega

/-- What a turn does with a packet, and that it fails only if an answer does not go out. -/
theorem cycle_arrival (timer : Countdown) (c : Client H) {w : World σ} {a : Arrival}
    {os : List ReadOutcome} (h : w.net.reads = a.reads ++ os) :
    ∃ answers,
      Served call [a.incoming] answers c w (c.cycle call timer w).client
        (c.cycle call timer w).world ∧
      ((c.cycle call timer w).rc ≠ FAILURE →
        answers = a.incoming.acknowledgement.toList.map whole) ∧
      ((c.cycle call timer w).rc = FAILURE →
        ∃ ack, a.incoming.acknowledgement = some ack ∧ Cut ack answers) ∧
      (c.cycle call timer w).world.net.reads = os ∧
      (c.cycle call timer w).world.net.ahead ≤ w.net.ahead := by
  have hahead := behind_ahead h
  cases hp : a.incoming with
  | publish p =>
      obtain ⟨md, hseen, hcycle⟩ := cycle_publish call timer (c := c) hp h
      obtain ⟨handed, hwrote, hgone, hcut⟩ := answer_wrote timer p (c.received a w.net.now)
        ⟨w.net.behind a os, (c.deliverMessage call md.topicName md.message w.app).2⟩
      have hreceived : c.AtWork (c.received a w.net.now) := rfl
      rw [hcycle]
      exact ⟨replies handed, ⟨hreceived.trans hwrote.atWork, ⟨[md], .cons hseen .nil, hwrote.app⟩,
        ⟨handed, hwrote.sent, rfl⟩, hwrote.writes⟩, hgone, hcut, hwrote.reads,
        hahead ▸ hwrote.ahead⟩
  | other header body htype fits =>
      obtain ⟨c₁, hc₁, hcycle⟩ := cycle_other call timer (c := c)
        (a := a) (by rw [hp]; exact htype) h
      obtain ⟨hserved, hreads, hle⟩ := cycleEnd_served call (headerType a.incoming.header : ℤ) c₁
        ⟨w.net.behind a os, w.app⟩
      have hrc : (Client.cycleEnd (headerType a.incoming.header : ℤ) c₁
          (⟨w.net.behind a os, w.app⟩ : World σ)).rc ≠ FAILURE := by
        change (headerType a.incoming.header : ℤ) ≠ -1
        omega
      obtain ⟨mds, hseen, happ⟩ := hserved.handed
      obtain rfl : mds = [] := by simpa using hseen
      rw [hcycle]
      exact ⟨[], ⟨hc₁.trans hserved.atWork, ⟨[], .nil, happ⟩, hserved.answered, hserved.writes⟩,
        fun _ => rfl, fun hfailure => absurd hfailure hrc, hreads, hahead ▸ hle⟩

/-- A turn in which nothing arrives. -/
theorem cycle_idle (timer : Countdown) (c : Client H) {w : World σ} (h : w.net.reads = []) :
    Served call [] [] c w (c.cycle call timer w).client (c.cycle call timer w).world ∧
      (c.cycle call timer w).world.net.reads = [] ∧ (c.cycle call timer w).rc ≠ FAILURE ∧
      (c.cycle call timer w).world.net.ahead ≤
        max w.net.now (timer.start + timer.interval_end_ms) +
          (w.net.writes.map (·.elapsed)).sum := by
  have hnone : w.net.read 1 timer = (none,
      { w.net with now := max w.net.now (timer.start + timer.interval_end_ms) }) := by
    simp only [Net.read, h]
  have hread : c.readPacket timer w.net = (FAILURE, c,
      { w.net with now := max w.net.now (timer.start + timer.interval_end_ms) }) := by
    rw [Client.readPacket, hnone]
  have hcycle : c.cycle call timer w = Client.cycleEnd 65535 c
      ⟨{ w.net with now := max w.net.now (timer.start + timer.interval_end_ms) }, w.app⟩ := by
    simp only [Client.cycle, hread]
    rfl
  obtain ⟨hserved, hreads, hle⟩ := cycleEnd_served call 65535 c
    ⟨{ w.net with now := max w.net.now (timer.start + timer.interval_end_ms) }, w.app⟩
  rw [hcycle]
  refine ⟨⟨hserved.atWork, hserved.handed, hserved.answered, hserved.writes⟩, hreads.trans h,
    show (65535 : ℤ) ≠ -1 by decide, hle.trans ?_⟩
  simp [Net.ahead, h]

/-! ### Runs of the loops -/

/-- What every turn keeps, `yield` keeps. -/
theorem yieldLoop_invariant {timer : Countdown} {I : Client H → World σ → Prop}
    (hstep : ∀ c w, I c w → I (c.cycle call timer w).client (c.cycle call timer w).world) (k : ℕ) :
    ∀ c w, I c w →
      I (Client.yieldLoop call timer k c w).client (Client.yieldLoop call timer k c w).world := by
  induction k with
  | zero => exact fun c w h => h
  | succ k ih =>
      intro c w h
      unfold Client.yieldLoop
      split
      · exact h
      · dsimp only
        split
        · exact hstep c w h
        · exact ih _ _ (hstep c w h)

/-- And so does `waitfor`. -/
theorem waitforLoop_invariant {packet_type : ℕ} {timer : Countdown} {I : Client H → World σ → Prop}
    (hstep : ∀ c w, I c w → I (c.cycle call timer w).client (c.cycle call timer w).world) (k : ℕ) :
    ∀ r, I r.client r.world → I (Client.waitforLoop call packet_type timer k r).client
      (Client.waitforLoop call packet_type timer k r).world := by
  induction k with
  | zero => exact fun r h => h
  | succ k ih =>
      intro r h
      unfold Client.waitforLoop
      split
      · exact h
      · dsimp only
        split
        · exact hstep _ _ h
        · exact ih _ (hstep _ _ h)

/-- With this return code these acknowledgements are due and these packets have been handed to the
network: all of them, in full and in their order; or all but the last one, which is cut. -/
inductive Acknowledged : ℤ → List (List UInt8) → List SentPacket → Prop
  | all (acks : List (List UInt8)) : Acknowledged SUCCESS acks (acks.map whole)
  | cut (acks : List (List UInt8)) {ack : List UInt8} {handed : List SentPacket} :
      Cut ack handed → Acknowledged FAILURE (acks ++ [ack]) (acks.map whole ++ handed)

theorem Acknowledged.append {rc : ℤ} {acks : List (List UInt8)} {handed : List SentPacket}
    (h : Acknowledged rc acks handed) (before : List (List UInt8)) :
    Acknowledged rc (before ++ acks) (before.map whole ++ handed) := by
  cases h with
  | all acks =>
      rw [← List.map_append]
      exact .all _
  | cut acks hcut =>
      rw [← List.append_assoc, ← List.append_assoc, ← List.map_append]
      exact .cut _ hcut

/-- What is due for these packets. -/
def acknowledgements (stream : List Arrival) : List (List UInt8) :=
  stream.filterMap (·.incoming.acknowledgement)

theorem acknowledgements_cons (a : Arrival) (stream : List Arrival) :
    acknowledgements (a :: stream) =
      a.incoming.acknowledgement.toList ++ acknowledgements stream := by
  unfold acknowledgements
  rw [List.filterMap_cons]
  cases a.incoming.acknowledgement <;> rfl

/-- Some packets at the head of the stream have been served and answered, and the others are still
to come. -/
def ServedPart (stream : List Arrival) (c : Client H) (w : World σ) (r : Result H σ) : Prop :=
  ∃ done rest answers, stream = done ++ rest ∧
    Served call (done.map (·.incoming)) answers c w r.client r.world ∧
    Acknowledged r.rc (acknowledgements done) answers ∧
    r.world.net.reads = rest.flatMap Arrival.reads

theorem Served.none (c : Client H) (w : World σ) : Served call [] [] c w c w :=
  (Wrote.nothing c w).served call (by simp)

theorem ServedPart.none {stream : List Arrival} {c : Client H} {w : World σ}
    (h : w.net.reads = stream.flatMap Arrival.reads) :
    ServedPart call stream c w ⟨SUCCESS, c, w⟩ :=
  ⟨[], stream, [], rfl, Served.none call c w, .all [], h⟩

/-- A stream of packets is all that comes, and with this timeout it ends before the microseconds of
a timer come round. -/
structure Net.Delivers (net : Net) (stream : List Arrival) (timeout_ms : ℕ) : Prop where
  reads : net.reads = stream.flatMap Arrival.reads
  time : net.ahead + timeout_ms ≤ net.now + 2147483

variable {stream : List Arrival} {c : Client H} {w : World σ} {timeout_ms : ℕ}

theorem Net.now_le_ahead (net : Net) : net.now ≤ net.ahead := by
  unfold Net.ahead
  omega

/-- On the way from `start`, what is left of a stream ends before a timer comes round. -/
structure Net.Ending (start net : Net) : Prop where
  reads : ∃ rest : List Arrival, net.reads = rest.flatMap Arrival.reads
  writes : net.writes <:+ start.writes
  ahead : net.ahead ≤ start.now + 2147483

theorem Net.Delivers.ending_cycle (h : w.net.Delivers stream timeout_ms) (c₁ : Client H)
    (w₁ : World σ) (h₁ : w.net.Ending w₁.net) :
    w.net.Ending (c₁.cycle call (.countdown_ms w.net.now timeout_ms) w₁).world.net := by
  obtain ⟨⟨rest, hreads⟩, hwrites, hahead⟩ := h₁
  cases rest with
  | nil =>
      obtain ⟨hserved, hnone, -, hle⟩ :=
        cycle_idle call (.countdown_ms w.net.now timeout_ms) c₁ hreads
      refine ⟨⟨[], hnone⟩, hserved.writes.trans hwrites, hle.trans ?_⟩
      obtain ⟨before, hbefore⟩ := hwrites
      have hsum : (w.net.writes.map (·.elapsed)).sum = (before.map (·.elapsed)).sum +
          (w₁.net.writes.map (·.elapsed)).sum := by
        rw [← hbefore, List.map_append, List.sum_append]
      have htime := h.time
      simp only [Net.ahead, Countdown.countdown_ms] at hahead htime ⊢
      omega
  | cons a rest =>
      rw [List.flatMap_cons] at hreads
      obtain ⟨answers, hserved, -, -, hrest, hle⟩ :=
        cycle_arrival call (.countdown_ms w.net.now timeout_ms) c₁ hreads
      exact ⟨⟨rest, hrest⟩, hserved.writes.trans hwrites, hle.trans hahead⟩

/-- It is over before the microseconds of its timer come round, so that the timer is right
(`Countdown.expired_eq`). -/
theorem yield_inTime (h : w.net.Delivers stream timeout_ms) :
    (c.yield call timeout_ms w).world.net.now - w.net.now ≤ 2147483 := by
  have hend : w.net.Ending (c.yield call timeout_ms w).world.net :=
    yieldLoop_invariant call (h.ending_cycle call) (w.net.reads.length + 2) c w
      ⟨⟨stream, h.reads⟩, List.suffix_refl _, (Nat.le_add_right _ _).trans h.time⟩
  have hnow := (c.yield call timeout_ms w).world.net.now_le_ahead
  have hahead := hend.ahead
  omega

/-! ### A network that takes what is written -/

theorem not_expired_of_ahead {timer : Countdown} {net : Net}
    (h : net.ahead - timer.start < timer.interval_end_ms) : timer.expired net.now = false := by
  have hnow := net.now_le_ahead
  simp only [Countdown.expired, decide_eq_false_iff_not]
  omega

omit call in
theorem sendPacket_success {packet : List UInt8} (hpacket : packet ≠ []) {timer : Countdown}
    {c : Client H} {w : World σ} (hfull : w.net.Full) (htimer : timer.expired w.net.now = false) :
    ((c.store packet).sendPacket packet.length timer w).rc = SUCCESS := by
  obtain ⟨now', hloop⟩ := sendLoop_full hfull (List.length_pos_iff.mpr hpacket) htimer
  rw [(sendPacket_store packet timer c w).2, Net.send, hloop]
  exact if_pos (decide_eq_true rfl)

/-- A turn in time does not fail. -/
theorem cycle_arrival_rc {timer : Countdown} (c : Client H) {w : World σ} {a : Arrival}
    {os : List ReadOutcome} (h : w.net.reads = a.reads ++ os) (hfull : w.net.Full)
    (hahead : w.net.ahead - timer.start < timer.interval_end_ms) :
    (c.cycle call timer w).rc ≠ FAILURE := by
  have hend (type : ℕ) (c : Client H) (w : World σ) :
      (Client.cycleEnd (type : ℤ) c w).rc ≠ FAILURE := by
    change (type : ℤ) ≠ -1
    omega
  by_cases htype : headerType a.incoming.header = PUBLISH
  · obtain ⟨p, hp⟩ : ∃ p, a.incoming = .publish p := by
      cases hp : a.incoming with
      | publish p => exact ⟨p, rfl⟩
      | other header body hne fits => exact absurd (by rw [hp] at htype; exact htype) hne
    obtain ⟨md, -, hcycle⟩ := cycle_publish call timer (c := c) hp h
    rw [hcycle, Client.answer]
    cases hack : Client.acknowledge p.qos p.packetid with
    | none => exact hend PUBLISH _ _
    | some packet =>
        have hsuccess := sendPacket_success (c := c.received a w.net.now) (acknowledge_some hack).1
          (w := ⟨w.net.behind a os, (c.deliverMessage call md.topicName md.message w.app).2⟩) hfull
          (not_expired_of_ahead (behind_ahead h ▸ hahead))
        dsimp only
        rw [hsuccess, if_neg (by decide)]
        exact hend PUBLISH _ _
  · obtain ⟨c₁, -, hcycle⟩ := cycle_other call timer (c := c) htype h
    rw [hcycle]
    exact hend _ _ _

/-- On such a network a turn in time serves and answers a packet. -/
theorem cycle_arrival_full {timer : Countdown} (c : Client H) {w : World σ} {a : Arrival}
    {os : List ReadOutcome} (h : w.net.reads = a.reads ++ os) (hfull : w.net.Full)
    (hahead : w.net.ahead - timer.start < timer.interval_end_ms) :
    Served call [a.incoming] (a.incoming.acknowledgement.toList.map whole) c w
        (c.cycle call timer w).client (c.cycle call timer w).world ∧
      (c.cycle call timer w).world.net.reads = os ∧ (c.cycle call timer w).world.net.Full ∧
      (c.cycle call timer w).world.net.ahead - timer.start < timer.interval_end_ms := by
  obtain ⟨answers, hserved, hgone, -, hreads, hle⟩ := cycle_arrival call timer c h
  obtain rfl := hgone (cycle_arrival_rc call c h hfull hahead)
  exact ⟨hserved, hreads, fun o ho => hfull o (hserved.writes.subset ho),
    (Nat.sub_le_sub_right hle _).trans_lt hahead⟩

theorem yieldLoop_idle (timer : Countdown) (k : ℕ) : ∀ (c : Client H) (w : World σ),
    w.net.reads = [] →
      (Client.yieldLoop call timer k c w).rc = SUCCESS ∧
        Served call [] [] c w (Client.yieldLoop call timer k c w).client
          (Client.yieldLoop call timer k c w).world ∧
        (Client.yieldLoop call timer k c w).world.net.reads = [] := by
  induction k with
  | zero => exact fun c w h => ⟨rfl, .none call c w, h⟩
  | succ k ih =>
      intro c w h
      obtain ⟨hserved, hreads, hrc, -⟩ := cycle_idle call timer c h
      obtain ⟨hsuccess, hrest, hnone⟩ := ih _ _ hreads
      unfold Client.yieldLoop
      split
      · exact ⟨rfl, .none call c w, h⟩
      · dsimp only
        rw [if_neg hrc]
        exact ⟨hsuccess, hserved.trans hrest, hnone⟩

/-- As long as the rest of the stream is in time, the loop goes on. -/
theorem yieldLoop_complete {timer : Countdown} (rest : List Arrival) :
    ∀ (k : ℕ) (c : Client H) (w : World σ), rest.length ≤ k →
      w.net.reads = rest.flatMap Arrival.reads → w.net.Full →
      w.net.ahead - timer.start < timer.interval_end_ms →
      (Client.yieldLoop call timer k c w).rc = SUCCESS ∧
        Served call (rest.map (·.incoming)) ((acknowledgements rest).map whole) c w
          (Client.yieldLoop call timer k c w).client (Client.yieldLoop call timer k c w).world ∧
        (Client.yieldLoop call timer k c w).world.net.reads = [] := by
  induction rest with
  | nil => exact fun k c w _ h _ _ => yieldLoop_idle call timer k c w h
  | cons a rest ih =>
      intro k c w hk h hfull hahead
      obtain ⟨k, rfl⟩ : ∃ j, k = j + 1 := ⟨k - 1, by
        rw [List.length_cons] at hk
        omega⟩
      rw [List.flatMap_cons] at h
      have hrc := cycle_arrival_rc call c h hfull hahead
      obtain ⟨hserved, hreads, hfull', hahead'⟩ := cycle_arrival_full call c h hfull hahead
      obtain ⟨hsuccess, hrest, hnone⟩ := ih k _ _ (by simpa using hk) hreads hfull' hahead'
      rw [Client.yieldLoop, not_expired_of_ahead hahead, if_neg Bool.false_ne_true]
      dsimp only
      rw [if_neg hrc, acknowledgements_cons, List.map_append]
      exact ⟨hsuccess, hserved.trans hrest, hnone⟩

theorem Arrival.two_le_reads (a : Arrival) : 2 ≤ a.reads.length := by
  simp [Arrival.reads]

theorem length_le_flatMap_reads (stream : List Arrival) :
    stream.length ≤ (stream.flatMap Arrival.reads).length := by
  induction stream with
  | nil => exact le_rfl
  | cons a stream ih =>
      have := a.two_le_reads
      rw [List.flatMap_cons, List.length_append, List.length_cons]
      omega

/-- A stream that is in time is served and answered to its end. -/
theorem yield_complete (h : w.net.Delivers stream timeout_ms) (hfull : w.net.Full)
    (hahead : w.net.ahead < w.net.now + timeout_ms) :
    (c.yield call timeout_ms w).rc = SUCCESS ∧
      Served call (stream.map (·.incoming)) ((acknowledgements stream).map whole) c w
        (c.yield call timeout_ms w).client (c.yield call timeout_ms w).world ∧
      (c.yield call timeout_ms w).world.net.reads = [] := by
  have hnow := w.net.now_le_ahead
  have htime : w.net.ahead - (Countdown.countdown_ms w.net.now timeout_ms).start <
      (Countdown.countdown_ms w.net.now timeout_ms).interval_end_ms := by
    dsimp only [Countdown.countdown_ms]
    omega
  refine yieldLoop_complete call stream _ c w ?_ h.reads hfull htime
  have hlength := length_le_flatMap_reads stream
  rw [h.reads]
  omega

end

/-- A PINGRESP, then a message of QoS 1. -/
def twoArrivals : List Arrival :=
  [⟨.other (headerByte PINGRESP 0 0 0) [] (by decide) (by decide), 1, 1, 0⟩,
    ⟨.publish ⟨0, 1, 0, 7, ascii "lamp", ascii "1", by decide, by decide, by decide, by decide,
      by decide⟩, 1, 1, 5⟩]

def twoArrivalsWorld : World ℕ := ⟨⟨0, [], twoArrivals.flatMap Arrival.reads, []⟩, 0⟩

/-- Counts the messages. -/
def countMessages : Unit → MessageData → ℕ → ℕ := fun _ _ n => n + 1

def listener : Client Unit := .connected [⟨some (.lit "#"), some ()⟩]

theorem yield_complete_two :
    (listener.yield countMessages 100 twoArrivalsWorld).rc = SUCCESS ∧
      Served countMessages (twoArrivals.map (·.incoming))
        ((acknowledgements twoArrivals).map whole) listener twoArrivalsWorld
        (listener.yield countMessages 100 twoArrivalsWorld).client
        (listener.yield countMessages 100 twoArrivalsWorld).world ∧
      (listener.yield countMessages 100 twoArrivalsWorld).world.net.reads = [] :=
  yield_complete countMessages ⟨rfl, by decide⟩ (by simp [Net.Full, twoArrivalsWorld]) (by decide)

end RemotusHardware
