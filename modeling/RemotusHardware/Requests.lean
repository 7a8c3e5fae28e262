import RemotusHardware.KeepAlive

/-! # Requests

`publish` with QoS 1 and `subscribe` send a packet and wait for the answer in the stream of incoming
packets, each of which comes with its body in one piece.  While they wait they serve what comes
before it: messages are handed to the handlers there are and acknowledged.  On a network that takes
every write, with all that is to happen in time, a request ends with the first packet of the type it
waits for (`request_awaited`).

Only the type counts, not the packet identifier.  So a message of QoS 1 counts as delivered
if any PUBACK comes in (`publish_stream`), and a handler is attached if the first SUBACK is no
refusal (`subscribe_stream`); what has come in before that is not for it. -/

namespace RemotusHardware

open CLib Wire Transition

section
variable {H σ : Type} (call : H → MessageData → σ → σ)

/-! ### One turn -/

def Arrival.type (a : Arrival) : ℕ := headerType a.incoming.header

/-- The packet is in the read buffer after the turn. -/
theorem cycle_arrival_readbuf (timer : Countdown) (c : Client H) {w : World σ} {a : Arrival}
    {os : List ReadOutcome} (h : w.net.reads = a.reads ++ os) :
    ∃ old, (c.cycle call timer w).client.readbuf = a.incoming.packet ++ old :=
  ⟨c.readbuf.drop a.incoming.packet.length, by rw [cycle_readbuf, readPacket_arrival timer h]; rfl⟩

/-- A turn returns the type of the packet, unless the answer to a PUBLISH is not sent; and neither
PUBLISH nor `FAILURE` is waited for. -/
theorem cycle_arrival_type (timer : Countdown) (c : Client H) {w : World σ} {a : Arrival}
    {os : List ReadOutcome} (h : w.net.reads = a.reads ++ os) {type : ℕ} (htype : type ≠ PUBLISH) :
    (c.cycle call timer w).rc = type ↔ a.type = type := by
  by_cases hpub : a.type = PUBLISH
  · refine iff_of_false ?_ (fun he => htype (he ▸ hpub))
    obtain ⟨p, hp⟩ : ∃ p, a.incoming = .publish p := by
      cases hp : a.incoming with
      | publish p => exact ⟨p, rfl⟩
      | other header body hne fits =>
          rw [Arrival.type, hp] at hpub
          exact absurd hpub hne
    obtain ⟨md, -, hcycle⟩ := cycle_publish call timer (c := c) hp h
    have hend (c₁ : Client H) (w₁ : World σ) : (Client.cycleEnd PUBLISH c₁ w₁).rc ≠ type :=
      fun he => htype (Int.ofNat.inj he).symm
    rw [hcycle, Client.answer]
    cases Client.acknowledge p.qos p.packetid with
    | none => exact hend _ _
    | some packet =>
        dsimp only
        split
        · rename_i hfailure
          rw [hfailure, FAILURE]
          omega
        · exact hend _ _
  · obtain ⟨c₁, -, hcycle⟩ := cycle_other call timer (c := c) hpub h
    rw [hcycle]
    exact Nat.cast_inj

/-! ### Waiting -/

/-- A wait that has come to the packet `a` of the stream and leaves the others. -/
structure Found (pre : List Arrival) (a : Arrival) (post : List Arrival) (c : Client H)
    (w : World σ) (r : Result H σ) : Prop where
  rc : r.rc = a.type
  served : Served call ((pre ++ [a]).map (·.incoming)) ((acknowledgements (pre ++ [a])).map whole)
    c w r.client r.world
  reads : r.world.net.reads = post.flatMap Arrival.reads
  readbuf : ∃ old, r.client.readbuf = a.incoming.packet ++ old

/-- A wait that has come to the end of the stream. -/
structure Missed (type : ℕ) (stream : List Arrival) (c : Client H) (w : World σ)
    (r : Result H σ) : Prop where
  rc : r.rc ≠ type
  served : Served call (stream.map (·.incoming)) ((acknowledgements stream).map whole) c w r.client
    r.world
  reads : r.world.net.reads = []

theorem waitforLoop_found {type : ℕ} (htype : type ≠ PUBLISH) {timer : Countdown} {a : Arrival}
    (ha : a.type = type) (post pre : List Arrival) : ∀ (k : ℕ) (r : Result H σ),
      pre.length < k → (∀ b ∈ pre, b.type ≠ type) →
      r.world.net.reads = (pre ++ a :: post).flatMap Arrival.reads → r.world.net.Full →
      r.world.net.ahead - timer.start < timer.interval_end_ms →
      Found call pre a post r.client r.world (Client.waitforLoop call type timer k r) := by
  induction pre with
  | nil =>
      intro k r hk _ hreads hfull hahead
      obtain ⟨k, rfl⟩ : ∃ j, k = j + 1 := ⟨k - 1, by omega⟩
      rw [List.nil_append, List.flatMap_cons] at hreads
      obtain ⟨hserved, hrest, -⟩ := cycle_arrival_full call r.client hreads hfull hahead
      have hrc := (cycle_arrival_type call timer r.client hreads htype).mpr ha
      rw [Client.waitforLoop, not_expired_of_ahead hahead, if_neg Bool.false_ne_true]
      dsimp only
      rw [if_pos hrc]
      refine ⟨hrc.trans (congrArg _ ha.symm), ?_, hrest,
        cycle_arrival_readbuf call timer r.client hreads⟩
      rw [List.nil_append, acknowledgements_cons]
      exact (List.append_nil _).symm ▸ hserved
  | cons b pre ih =>
      intro k r hk hpre hreads hfull hahead
      obtain ⟨k, rfl⟩ : ∃ j, k = j + 1 := ⟨k - 1, by omega⟩
      obtain ⟨hb, hpre⟩ := List.forall_mem_cons.mp hpre
      rw [List.cons_append, List.flatMap_cons] at hreads
      obtain ⟨hserved, hrest, hfull', hahead'⟩ :=
        cycle_arrival_full call r.client hreads hfull hahead
      have hrc := mt (cycle_arrival_type call timer r.client hreads htype).mp hb
      have hfound := ih k (r.client.cycle call timer r.world) (Nat.lt_of_succ_lt_succ hk) hpre hrest
        hfull' hahead'
      rw [Client.waitforLoop, not_expired_of_ahead hahead, if_neg Bool.false_ne_true]
      dsimp only
      rw [if_neg hrc]
      refine ⟨hfound.rc, ?_, hfound.reads, hfound.readbuf⟩
      rw [List.cons_append, acknowledgements_cons, List.map_append]
      exact hserved.trans hfound.served

/-- Nothing more comes. -/
theorem waitforLoop_silent {type : ℕ} (htype : type < 16) (timer : Countdown) (k : ℕ) :
    ∀ r : Result H σ, r.rc ≠ type → r.world.net.reads = [] →
      Missed call type [] r.client r.world (Client.waitforLoop call type timer k r) := by
  induction k with
  | zero => exact fun r hrc h => ⟨hrc, .none call _ _, h⟩
  | succ k ih =>
      intro r hrc h
      obtain ⟨hserved, hnone, -⟩ := cycle_idle call timer r.client h
      have hidle : (r.client.cycle call timer r.world).rc ≠ type := by
        rw [cycle_silent call timer r.client h, Client.cycleEnd]
        dsimp only
        omega
      have hmissed := ih _ hidle hnone
      unfold Client.waitforLoop
      split
      · exact ⟨hrc, .none call _ _, h⟩
      · dsimp only
        rw [if_neg hidle]
        exact ⟨hmissed.rc, hserved.trans hmissed.served, hmissed.reads⟩

theorem waitforLoop_missed {type : ℕ} (htype : type ≠ PUBLISH) (hlt : type < 16) {timer : Countdown}
    (stream : List Arrival) : ∀ (k : ℕ) (r : Result H σ), stream.length < k → r.rc ≠ type →
      (∀ b ∈ stream, b.type ≠ type) → r.world.net.reads = stream.flatMap Arrival.reads →
      r.world.net.Full → r.world.net.ahead - timer.start < timer.interval_end_ms →
      Missed call type stream r.client r.world (Client.waitforLoop call type timer k r) := by
  induction stream with
  | nil => exact fun k r _ hrc _ hreads _ _ => waitforLoop_silent call hlt timer k r hrc hreads
  | cons b stream ih =>
      intro k r hk _ hstream hreads hfull hahead
      obtain ⟨k, rfl⟩ : ∃ j, k = j + 1 := ⟨k - 1, by omega⟩
      obtain ⟨hb, hstream⟩ := List.forall_mem_cons.mp hstream
      rw [List.flatMap_cons] at hreads
      obtain ⟨hserved, hrest, hfull', hahead'⟩ :=
        cycle_arrival_full call r.client hreads hfull hahead
      have hrc := mt (cycle_arrival_type call timer r.client hreads htype).mp hb
      have hmissed := ih k (r.client.cycle call timer r.world) (Nat.lt_of_succ_lt_succ hk) hrc
        hstream hrest hfull' hahead'
      rw [Client.waitforLoop, not_expired_of_ahead hahead, if_neg Bool.false_ne_true]
      dsimp only
      rw [if_neg hrc]
      refine ⟨hmissed.rc, ?_, hmissed.reads⟩
      rw [acknowledgements_cons, List.map_append]
      exact hserved.trans hmissed.served

/-! ### Sending and waiting -/

theorem Client.AtWork.isconnected {c c' : Client H} (h : c.AtWork c') :
    c'.isconnected = c.isconnected := by
  rw [h]

theorem Client.AtWork.inflightMsgid {c c' : Client H} (h : c.AtWork c') :
    c'.inflightMsgid = c.inflightMsgid := by
  rw [h]

theorem Client.AtWork.messageHandlers {c c' : Client H} (h : c.AtWork c') :
    c'.messageHandlers = c.messageHandlers := by
  rw [h]

/-- The client has sent a packet and then served the packets `done` and answered them. -/
structure Requested (packet : List UInt8) (done : List Arrival) (c : Client H) (w : World σ)
    (w' : World σ) : Prop where
  handed : ∃ mds,
    List.Forall₂ Publish.SeenAs ((done.map (·.incoming)).filterMap Incoming.publish?) mds ∧
    w'.app = mds.foldl (fun a md => (c.deliverMessage call md.topicName md.message a).2) w.app
  sent : ∃ sent, w'.net.sent = w.net.sent ++ whole packet :: sent ∧
    replies sent = (acknowledgements done).map whole

/-- On a network that takes every write the packet goes out, and nothing else happens. -/
theorem sendPacket_goesOut {packet : List UInt8} (hpacket : packet ≠ []) {timer : Countdown}
    {c : Client H} {w : World σ} (hfull : w.net.Full) (htimer : timer.expired w.net.now = false) :
    ((c.store packet).sendPacket packet.length timer w).rc = SUCCESS ∧
      c.AtWork ((c.store packet).sendPacket packet.length timer w).client ∧
      ((c.store packet).sendPacket packet.length timer w).world.app = w.app ∧
      ((c.store packet).sendPacket packet.length timer w).world.net.reads = w.net.reads ∧
      ((c.store packet).sendPacket packet.length timer w).world.net.sent =
        w.net.sent ++ [whole packet] ∧
      ((c.store packet).sendPacket packet.length timer w).world.net.Full ∧
      ((c.store packet).sendPacket packet.length timer w).world.net.ahead ≤ w.net.ahead := by
  have hsuccess := sendPacket_success hpacket (c := c) hfull htimer
  obtain ⟨handed, hwrote, -, hrc⟩ := sendPacket_wrote hpacket timer c w
  obtain rfl := hrc.mp hsuccess
  exact ⟨hsuccess, hwrote.atWork, hwrote.app, hwrote.reads, hwrote.sent,
    fun o ho => hfull o (hwrote.writes.subset ho), hwrote.ahead⟩

variable {call} in
theorem Served.requested {packet : List UInt8} {done : List Arrival} {c c₁ c₂ : Client H}
    {w w₁ w₂ : World σ}
    (h : Served call (done.map (·.incoming)) ((acknowledgements done).map whole) c₁ w₁ c₂ w₂)
    (hc : c.AtWork c₁) (happ : w₁.app = w.app)
    (hsent : w₁.net.sent = w.net.sent ++ [whole packet]) :
    Requested call packet done c w w₂ := by
  obtain ⟨mds, hseen, hhanded⟩ := h.handed
  obtain ⟨sent, hafter, hacks⟩ := h.answered
  refine ⟨⟨mds, hseen, ?_⟩, ⟨sent, ?_, hacks⟩⟩
  · rw [hhanded, happ, hc.deliverMessage]
  · rw [hafter, hsent, List.append_assoc]
    rfl

variable {stream : List Arrival} {c : Client H} {w : World σ} {packet : List UInt8} {type : ℕ}
  {timer : Countdown}

theorem countdown_ahead {net : Net} {ms : ℕ} (h : net.ahead < net.now + ms) :
    net.ahead - (Countdown.countdown_ms net.now ms).start <
      (Countdown.countdown_ms net.now ms).interval_end_ms := by
  have hnow := net.now_le_ahead
  change net.ahead - net.now < ms
  omega

/-- A request: a packet is sent, then its answer is waited for. -/
def Client.request (packet : List UInt8) (type : ℕ) (timer : Countdown) (c : Client H)
    (w : World σ) : Result H σ :=
  Client.waitfor call type timer ((c.store packet).sendPacket packet.length timer w).client
    ((c.store packet).sendPacket packet.length timer w).world

/-- The answer is the first packet of the type waited for. -/
theorem request_found (hpacket : packet ≠ []) (htype : type ≠ PUBLISH) (hfull : w.net.Full)
    (hahead : w.net.ahead - timer.start < timer.interval_end_ms) {pre post : List Arrival}
    {a : Arrival} (hpre : ∀ b ∈ pre, b.type ≠ type) (ha : a.type = type)
    (h : w.net.reads = (pre ++ a :: post).flatMap Arrival.reads) :
    (c.request call packet type timer w).rc = type ∧
      c.AtWork (c.request call packet type timer w).client ∧
      Requested call packet (pre ++ [a]) c w (c.request call packet type timer w).world ∧
      (c.request call packet type timer w).world.net.reads = post.flatMap Arrival.reads ∧
      ∃ old, (c.request call packet type timer w).client.readbuf = a.incoming.packet ++ old := by
  obtain ⟨-, hwork, happ, hreads, hsent, hfull', hle⟩ :=
    sendPacket_goesOut hpacket (c := c) hfull (not_expired_of_ahead hahead)
  have hlength := length_le_flatMap_reads (pre ++ a :: post)
  rw [List.length_append, List.length_cons] at hlength
  obtain ⟨hrc, hserved, hrest, hbuf⟩ := waitforLoop_found call htype ha post pre
    (((c.store packet).sendPacket packet.length timer w).world.net.reads.length + 2)
    ⟨FAILURE, ((c.store packet).sendPacket packet.length timer w).client,
      ((c.store packet).sendPacket packet.length timer w).world⟩
    (by rw [hreads, h]; omega) hpre (hreads.trans h) hfull'
    ((Nat.sub_le_sub_right hle _).trans_lt hahead)
  exact ⟨hrc.trans (congrArg _ ha), hwork.trans hserved.atWork,
    hserved.requested hwork happ hsent, hrest, hbuf⟩

/-- Without an answer the whole stream is served. -/
theorem request_missed (hpacket : packet ≠ []) (htype : type ≠ PUBLISH) (hlt : type < 16)
    (hfull : w.net.Full) (hahead : w.net.ahead - timer.start < timer.interval_end_ms)
    (hstream : ∀ b ∈ stream, b.type ≠ type) (h : w.net.reads = stream.flatMap Arrival.reads) :
    (c.request call packet type timer w).rc ≠ type ∧
      c.AtWork (c.request call packet type timer w).client ∧
      Requested call packet stream c w (c.request call packet type timer w).world ∧
      (c.request call packet type timer w).world.net.reads = [] := by
  obtain ⟨-, hwork, happ, hreads, hsent, hfull', hle⟩ :=
    sendPacket_goesOut hpacket (c := c) hfull (not_expired_of_ahead hahead)
  have hlength := length_le_flatMap_reads stream
  obtain ⟨hrc, hserved, hrest⟩ := waitforLoop_missed call htype hlt stream
    (((c.store packet).sendPacket packet.length timer w).world.net.reads.length + 2)
    ⟨FAILURE, ((c.store packet).sendPacket packet.length timer w).client,
      ((c.store packet).sendPacket packet.length timer w).world⟩
    (by rw [hreads, h]; omega) (show FAILURE ≠ (type : ℤ) by rw [FAILURE]; omega) hstream
    (hreads.trans h) hfull' ((Nat.sub_le_sub_right hle _).trans_lt hahead)
  exact ⟨hrc, hwork.trans hserved.atWork, hserved.requested hwork happ hsent, hrest⟩

/-- The packets of a stream up to the first one of a type, that packet, and those behind it. -/
inductive Awaited (type : ℕ) : List Arrival → List Arrival → Option Arrival → List Arrival → Prop
  | answered {pre post : List Arrival} {a : Arrival} : (∀ b ∈ pre, b.type ≠ type) →
      a.type = type → Awaited type (pre ++ a :: post) (pre ++ [a]) (some a) post
  | unanswered {stream : List Arrival} : (∀ b ∈ stream, b.type ≠ type) →
      Awaited type stream stream none []

theorem Awaited.answer {type : ℕ} {stream done rest : List Arrival} {a : Arrival}
    (h : Awaited type stream done (some a) rest) : a ∈ stream ∧ a.type = type := by
  cases h with
  | answered _ ha => exact ⟨by simp, ha⟩

theorem exists_awaited (type : ℕ) (stream : List Arrival) :
    ∃ done answer rest, Awaited type stream done answer rest := by
  cases h : stream.find? (fun b => b.type = type) with
  | none =>
      refine ⟨stream, none, [], .unanswered ?_⟩
      simpa using h
  | some a =>
      obtain ⟨ha, pre, post, rfl, hpre⟩ := List.find?_eq_some_iff_append.mp h
      exact ⟨pre ++ [a], some a, post, .answered (by simpa using hpre) (by simpa using ha)⟩

/-- What a request comes back with. -/
structure Replied (packet : List UInt8) (type : ℕ) (done : List Arrival) (answer : Option Arrival)
    (rest : List Arrival) (c : Client H) (w : World σ) (r : Result H σ) : Prop where
  rc : r.rc = type ↔ answer.isSome
  atWork : c.AtWork r.client
  requested : Requested call packet done c w r.world
  reads : r.world.net.reads = rest.flatMap Arrival.reads
  readbuf : ∀ a, answer = some a → ∃ old, r.client.readbuf = a.incoming.packet ++ old

theorem request_awaited (hpacket : packet ≠ []) (htype : type ≠ PUBLISH) (hlt : type < 16)
    (hfull : w.net.Full) (hahead : w.net.ahead - timer.start < timer.interval_end_ms)
    (h : w.net.reads = stream.flatMap Arrival.reads) {done rest : List Arrival}
    {answer : Option Arrival} (hwait : Awaited type stream done answer rest) :
    Replied call packet type done answer rest c w (c.request call packet type timer w) := by
  cases hwait with
  | answered hpre ha =>
      obtain ⟨hrc, hwork, hreq, hrest, hbuf⟩ :=
        request_found call hpacket htype hfull hahead hpre ha h
      refine ⟨iff_of_true hrc rfl, hwork, hreq, hrest, ?_⟩
      intro a ha
      cases ha
      exact hbuf
  | unanswered hnone =>
      obtain ⟨hrc, hwork, hreq, hrest⟩ :=
        request_missed call hpacket htype hlt hfull hahead hnone h
      exact ⟨iff_of_false hrc Bool.false_ne_true, hwork, hreq, hrest, fun a ha => by cases ha⟩

/-! ### A message of QoS 1 -/

/-- The length of a packet is one byte. -/
theorem decodeBuf_packet (m : Incoming) (old : List UInt8) :
    MQTTPacket_decodeBuf (m.packet ++ old).tail = (1, m.body.length) := by
  have hfits := m.body_length_le
  have hmax : MAX_MQTT_PACKET_SIZE = 100 := rfl
  have hdec := decodeBuf_encode_append (n := m.body.length) (by omega) (m.body ++ old)
  rw [m.encode_body] at hdec
  exact hdec

/-- The codes of a SUBACK, one for each topic. -/
def Incoming.grantedQoSs (m : Incoming) : List ℕ := (m.body.drop 2).map (·.toNat)

/-- What it grants for the first topic; -1 if there is none. -/
def Incoming.granted (m : Incoming) : ℤ :=
  match m.grantedQoSs with
  | [] => -1
  | q :: _ => q

/-- A second code would be stored past the variable of `subscribe`. -/
theorem deserialize_suback_packet {m : Incoming} (htype : headerType m.header = SUBACK)
    (hlen : m.body.length ≤ 3) (old : List UInt8) :
    (MQTTDeserialize_suback 1 (m.packet ++ old)).rc = 1 ∧
      (MQTTDeserialize_suback 1 (m.packet ++ old)).grantedQoSs = m.grantedQoSs := by
  have hheader : ¬ headerType ((m.packet ++ old).headD 0) ≠ SUBACK := not_not_intro htype
  have hbody : (m.packet ++ old).tail.drop 1 = m.body ++ old := rfl
  rw [MQTTDeserialize_suback, if_neg hheader, decodeBuf_packet, Incoming.grantedQoSs]
  dsimp only
  rw [hbody]
  match m.body, hlen with
  | [], _ => exact ⟨rfl, rfl⟩
  | [_], _ => exact ⟨rfl, rfl⟩
  | [_, _], _ => exact ⟨rfl, rfl⟩
  | [_, _, _], _ => exact ⟨rfl, rfl⟩

/-- What the answer to a SUBSCRIBE makes of the table of handlers, and the code returned. -/
def Client.subscribedBy (topicFilter : CString) (h : H) (slots : List (MessageHandlers H)) :
    Option Arrival → ℤ × List (MessageHandlers H)
  | none => (FAILURE, slots)
  | some a =>
      if a.incoming.granted = 128 then (128, slots)
      else match Client.attach topicFilter h slots with
        | some slots' => (0, slots')
        | none => (a.incoming.granted, slots)

theorem subscribeAcked_packet (topicFilter : CString) (h : H) {r : Result H σ} {a : Arrival}
    {old : List UInt8} (hbuf : r.client.readbuf = a.incoming.packet ++ old)
    (htype : a.type = SUBACK) (hlen : a.incoming.body.length ≤ 3) :
    let outcome := Client.subscribedBy topicFilter h r.client.messageHandlers (some a)
    Client.subscribeAcked topicFilter h r =
      ⟨outcome.1, { r.client with messageHandlers := outcome.2 }, r.world⟩ := by
  obtain ⟨hrc, hgranted⟩ := deserialize_suback_packet htype hlen old
  rw [← hbuf] at hrc hgranted
  unfold Client.subscribeAcked Client.subscribedBy Incoming.granted
  dsimp only
  rw [hrc, if_pos rfl, hgranted]
  cases hcodes : a.incoming.grantedQoSs with
  | nil =>
      have hgrant : ¬ (-1 : ℤ) = 128 := by decide
      simp only [if_neg hgrant]
      cases Client.attach topicFilter h r.client.messageHandlers with
      | none => rfl
      | some slots => rfl
  | cons q codes =>
      by_cases hq : (q : ℤ) = 128
      · simp only [if_pos hq]
        rw [hq]
      · simp only [if_neg hq]
        cases Client.attach topicFilter h r.client.messageHandlers with
        | none => rfl
        | some slots => rfl

theorem MQTTSerialize_subscribe_ne_nil {dup packetid : ℕ} {topicFilters : List (MQTTString × ℕ)}
    (h : MQTTSerialize_subscribe MAX_MQTT_PACKET_SIZE dup packetid topicFilters = some packet) :
    packet ≠ [] := by
  unfold MQTTSerialize_subscribe at h
  dsimp only at h
  split at h
  · cases h
  · rw [← Option.some.inj h]
    exact List.cons_ne_nil _ _

theorem subscribe_request {topicFilter : CString} {qos : ℕ} {h : H} (hc : c.isconnected = true)
    (hpacket : MQTTSerialize_subscribe MAX_MQTT_PACKET_SIZE 0 (getNext c.packetid)
      [(.ofCString topicFilter, qos)] = some packet)
    (hsend : ((({ c with packetid := getNext c.packetid } : Client H).store packet).sendPacket
      packet.length (.countdown_ms w.net.now c.command_timeout_ms) w).rc = SUCCESS) :
    let r := ({ c with packetid := getNext c.packetid } : Client H).request call packet SUBACK
      (.countdown_ms w.net.now c.command_timeout_ms) w
    let r' :=
      if r.rc = SUBACK then Client.subscribeAcked topicFilter h r else { r with rc := FAILURE }
    c.subscribe call topicFilter qos h w =
      if r'.rc = SUCCESS then r'
      else { r' with client := { r'.client with isconnected := false } } := by
  have hgo : ¬ (!c.isconnected) = true := by
    rw [hc]
    decide
  have hpart : c.subscribePart call topicFilter qos h w =
      let r := ({ c with packetid := getNext c.packetid } : Client H).request call packet SUBACK
        (.countdown_ms w.net.now c.command_timeout_ms) w
      if r.rc = SUBACK then Client.subscribeAcked topicFilter h r
      else { r with rc := FAILURE } := by
    unfold Client.subscribePart
    dsimp only
    rw [if_neg hgo, hpacket]
    dsimp only
    rw [if_neg (not_not_intro hsend)]
    rfl
  unfold Client.subscribe
  rw [hpart]

/-- The first SUBACK decides on a subscription, for this topic or another one. -/
theorem subscribe_stream {topicFilter : CString} {qos : ℕ} {h : H} (hc : c.isconnected = true)
    (hpacket : MQTTSerialize_subscribe MAX_MQTT_PACKET_SIZE 0 (getNext c.packetid)
      [(.ofCString topicFilter, qos)] = some packet)
    (hnet : w.net.Delivers stream c.command_timeout_ms) (hfull : w.net.Full)
    (hahead : w.net.ahead < w.net.now + c.command_timeout_ms)
    (hcodes : ∀ a ∈ stream, a.type = SUBACK → a.incoming.body.length ≤ 3) :
    let r := c.subscribe call topicFilter qos h w
    ∃ done answer rest, Awaited SUBACK stream done answer rest ∧
      (r.rc, r.client.messageHandlers) =
        Client.subscribedBy topicFilter h c.messageHandlers answer ∧
      (r.client.isconnected = true ↔ r.rc = SUCCESS) ∧
      Requested call packet done c w r.world ∧
      r.world.net.reads = rest.flatMap Arrival.reads := by
  have hne := MQTTSerialize_subscribe_ne_nil hpacket
  have htimer := countdown_ahead hahead
  obtain ⟨done, answer, rest, hwait⟩ := exists_awaited SUBACK stream
  obtain ⟨hrc, hwork, ⟨hhanded, hsent⟩, hrest, hbuf⟩ :=
    request_awaited call (c := { c with packetid := getNext c.packetid }) hne
      (by decide) (by decide) hfull htimer hnet.reads hwait
  have hsubscribe := subscribe_request call (h := h) hc hpacket
    (sendPacket_success hne (c := { c with packetid := getNext c.packetid }) hfull
      (not_expired_of_ahead htimer))
  refine ⟨done, answer, rest, hwait, ?_⟩
  rw [hsubscribe]
  have hhandlers := hwork.messageHandlers
  have hconnected := hwork.isconnected.trans hc
  generalize ({ c with packetid := getNext c.packetid } : Client H).request call packet SUBACK
    (.countdown_ms w.net.now c.command_timeout_ms) w = r at *
  cases answer with
  | none =>
      have hfailure : ¬ FAILURE = SUCCESS := by decide
      rw [if_neg (mt hrc.mp Bool.false_ne_true), if_neg hfailure]
      exact ⟨Prod.ext rfl hhandlers, iff_of_false Bool.false_ne_true hfailure, ⟨hhanded, hsent⟩,
        hrest⟩
  | some a =>
      obtain ⟨hmem, htype⟩ := hwait.answer
      obtain ⟨old, hold⟩ := hbuf a rfl
      rw [if_pos (hrc.mpr rfl),
        subscribeAcked_packet topicFilter h hold htype (hcodes a hmem htype)]
      dsimp only
      rw [hhandlers]
      split
      · rename_i hrc
        exact ⟨rfl, iff_of_true hconnected hrc, ⟨hhanded, hsent⟩, hrest⟩
      · rename_i hrc
        exact ⟨rfl, iff_of_false Bool.false_ne_true hrc, ⟨hhanded, hsent⟩, hrest⟩

end

/-! ### A message behind another one -/

theorem puback_type : headerType (headerByte PUBACK 0 0 0) ≠ PUBLISH := by decide

theorem puback_fits : [0, 9].length + 2 ≤ MAX_MQTT_PACKET_SIZE := by decide

def puback : Incoming := .other (headerByte PUBACK 0 0 0) [0, 9] puback_type puback_fits

theorem suback_type : headerType (headerByte SUBACK 0 0 0) ≠ PUBLISH := by decide

theorem suback_fits : [0, 9, 1].length + 2 ≤ MAX_MQTT_PACKET_SIZE := by decide

def suback : Incoming := .other (headerByte SUBACK 0 0 0) [0, 9, 1] suback_type suback_fits

/-- Two answers to packets the client has not sent. -/
def strayAnswers : List Arrival := [⟨suback, 1, 1, 1⟩, ⟨puback, 1, 1, 1⟩]

def strayWorld : World ℕ := ⟨⟨0, [], strayAnswers.flatMap Arrival.reads, []⟩, 0⟩

def alarmSubscribe : List UInt8 := [130, 10, 0, 1, 0, 5, 97, 108, 97, 114, 109, 1]

theorem strayAnswers_codes :
    ∀ a ∈ strayAnswers, a.type = SUBACK → a.incoming.body.length ≤ 3 := by
  intro a ha _
  obtain rfl | ha := List.mem_cons.mp ha
  · exact le_rfl
  · obtain rfl := List.mem_singleton.mp ha
    exact Nat.le_succ 2

theorem subscribe_stream_stray :
    let r := listener.subscribe countMessages (.lit "alarm") 1 () strayWorld
    ∃ done answer rest, Awaited SUBACK strayAnswers done answer rest ∧
      (r.rc, r.client.messageHandlers) =
        Client.subscribedBy (.lit "alarm") () listener.messageHandlers answer ∧
      (r.client.isconnected = true ↔ r.rc = SUCCESS) ∧
      Requested countMessages alarmSubscribe done listener strayWorld r.world ∧
      r.world.net.reads = rest.flatMap Arrival.reads :=
  subscribe_stream countMessages rfl rfl ⟨rfl, by decide⟩ (by simp [Net.Full, strayWorld])
    (by decide) strayAnswers_codes

end RemotusHardware
