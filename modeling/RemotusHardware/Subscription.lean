import RemotusHardware.Cycle
import RemotusHardware.Dispatch
import RemotusHardware.Publishing

/-! # Subscribing to the outputs

`subscribeTopics` of `main.cpp`: a loop over the tables that subscribes to the topic of every
`dOut` sensor and drops the return code.

A broker that answers in time is a predicate on the run of the client (`Answers`): while the
timer of the command has not expired the client reads on, until it reads a SUBACK, and no packet on
the way is too long for its read buffer.  Then `waitfor`
comes back with it (`waitfor_answered`) and the granted QoS is what `subscribe` returns, unless a
free slot of the table puts a 0 in its place (`subscribe_answered`).  So a sixth output on a QoS
of 1 disconnects the client, and one on a QoS of 0 is lost without a trace.  `subscribeAll_spec`
carries this through the loop. -/

namespace RemotusHardware

open CLib Wire

/-! ### The loop -/

section
variable {σ : Type} (call : Handler → MessageData → σ → σ)

/-- `client->subscribe(topic, MQTT::QOS1, messageArrived)`, the return code dropped. -/
def subscribeTopic (topic : CString) (s : Client Handler × World σ) : Client Handler × World σ :=
  let r := s.1.subscribe call topic 1 Handler.messageArrived s.2
  (r.client, r.world)

section
variable (G : Globals)

/-- The body of the loop of `subscribeTopics`. -/
def subscribeAt (rc : ℕ) (s : Client Handler × World σ) :
    Except Stop (Client Handler × World σ) := do
  let type ← deref G.typesObjects rc
  if strcmp type (.lit "aOut") = 0 ∨ strcmp type (.lit "dOut") = 0 then do
    let topic ← deref G.topicsMQTT rc
    pure (subscribeTopic call topic s)
  else pure s

/-- The loop, `k` turns before its end. -/
def subscribeFrom : ℕ → ℕ → Client Handler × World σ → Except Stop (Client Handler × World σ)
  | 0, _, s => pure s
  | k + 1, rc, s => do subscribeFrom k (rc + 1) (← subscribeAt call G rc s)

def subscribeTopics (client : Client Handler) (w : World σ) :
    Except Stop (Client Handler × World σ) :=
  subscribeFrom call G G.numSensors 0 (client, w)

end

/-- The topics of the outputs, in the order of the tables. -/
def outputTopics (G : Globals) : List CString :=
  (G.typesObjects.zip G.topicsMQTT).filterMap fun e =>
    if e.1 = some (.lit "dOut") then e.2 else none

/-- Subscribing to a list of topics, one after another. -/
def subscribeAll (topics : List CString) (s : Client Handler × World σ) :
    Client Handler × World σ :=
  topics.foldl (fun s topic => subscribeTopic call topic s) s

/-- The topics of the outputs among some sensors. -/
def dOutTopics (ss : List Sensor) : List CString :=
  (ss.filter fun s => s.kind = .dOut).map (·.topic)

theorem name_dOut (k : SensorKind) : k.name = .lit "dOut" ↔ k = .dOut :=
  SensorKind.name_inj (k := .dOut)

theorem Aligned.outputTopics_eq {G : Globals} {ss : List Sensor} (h : Aligned G ss) :
    outputTopics G = dOutTopics ss := by
  unfold outputTopics dOutTopics
  rw [h.typesObjects, h.topicsMQTT, List.zip_map', List.filterMap_map]
  clear h
  induction ss with
  | nil => rfl
  | cons s ss ih =>
      by_cases hk : s.kind = .dOut
      · simp [name_dOut, hk, ← ih]
      · simp [name_dOut, hk, ← ih]

/-- No sensor is stored as an `aOut`. -/
theorem strcmp_aOut (k : SensorKind) : strcmp k.name (.lit "aOut") ≠ 0 := by
  cases k <;> decide

theorem subscribeAt_eq {G : Globals} {rc : ℕ} {s : Sensor} (h : EntryOf G rc s)
    (t : Client Handler × World σ) :
    subscribeAt call G rc t =
      .ok (if s.kind = .dOut then subscribeTopic call s.topic t else t) := by
  have hd := strcmp_kind (k := s.kind) (j := .dOut) "dOut" rfl
  unfold subscribeAt
  simp only [h.type, ok_bind, strcmp_aOut, false_or, hd, h.topic]
  split <;> rfl

theorem subscribeFrom_eq {G : Globals} : ∀ (ss : List Sensor) (i : ℕ)
    (t : Client Handler × World σ), (∀ j s, ss[j]? = some s → EntryOf G (i + j) s) →
    subscribeFrom call G ss.length i t = .ok (subscribeAll call (dOutTopics ss) t)
  | [], _, _, _ => rfl
  | s :: ss, i, t, h => by
      obtain ⟨h0, hs⟩ := entries_cons h
      simp only [List.length_cons, subscribeFrom, subscribeAt_eq call h0, ok_bind,
        subscribeFrom_eq ss (i + 1) _ hs, dOutTopics]
      by_cases hk : s.kind = .dOut
      · rw [if_pos hk, List.filter_cons_of_pos (by simpa using hk)]
        rfl
      · rw [if_neg hk, List.filter_cons_of_neg (by simpa using hk)]

/-- On the tables of `ss` the loop subscribes to the topics of the outputs. -/
theorem subscribeTopics_eq {G : Globals} {ss : List Sensor} (h : Aligned G ss)
    (client : Client Handler) (w : World σ) :
    subscribeTopics call G client w = .ok (subscribeAll call (outputTopics G) (client, w)) := by
  rw [subscribeTopics, h.numSensors, h.outputTopics_eq]
  exact subscribeFrom_eq call ss 0 _ fun j s hj => by simpa using h.entry hj

end

/-! ### The table of handlers -/

section
variable {H : Type}

/-- The number of free slots. -/
def freeSlots (slots : List (MessageHandlers H)) : ℕ :=
  slots.countP fun slot => slot.topicFilter = none

/-- A slot holds the topic, with this handler attached. -/
def Held (slots : List (MessageHandlers H)) (topic : CString) (h : H) : Prop :=
  ⟨some topic, some h⟩ ∈ slots

theorem attach_eq_none (topic : CString) (h : H) (slots : List (MessageHandlers H)) :
    Client.attach topic h slots = none ↔ freeSlots slots = 0 := by
  induction slots with
  | nil => simp [Client.attach, freeSlots]
  | cons slot slots ih =>
      unfold freeSlots at ih ⊢
      unfold Client.attach
      cases hf : slot.topicFilter with
      | none => simp [hf]
      | some t => simp [hf, ih]

/-- The topic takes a free slot, and the others keep theirs. -/
theorem attach_eq_some {topic : CString} {h : H} : ∀ {slots slots' : List (MessageHandlers H)},
    Client.attach topic h slots = some slots' →
      freeSlots slots = freeSlots slots' + 1 ∧
        ∀ t, Held slots' t h ↔ t = topic ∨ Held slots t h
  | [], _, heq => by cases heq
  | slot :: slots, slots', heq => by
      unfold Client.attach at heq
      cases hf : slot.topicFilter with
      | none =>
          rw [hf] at heq
          obtain rfl := Option.some.inj heq
          refine ⟨by simp [freeSlots, hf], fun t => ?_⟩
          have hne : (⟨some t, some h⟩ : MessageHandlers H) ≠ slot := by
            rintro rfl
            cases hf
          simp [Held, hne]
      | some t₀ =>
          rw [hf, Option.map_eq_some_iff] at heq
          obtain ⟨slots₁, h₁, rfl⟩ := heq
          obtain ⟨hfree, hheld⟩ := attach_eq_some h₁
          refine ⟨by simpa [freeSlots, hf] using hfree, fun t => ?_⟩
          unfold Held at hheld ⊢
          rw [List.mem_cons, List.mem_cons, hheld t]
          tauto

end

/-! ### Reading a SUBACK -/

/-- A SUBACK for one topic. -/
def subackPacket (packetid q : ℕ) : List UInt8 :=
  headerByte SUBACK 0 0 0 :: (MQTTPacket_encode 3 ++ (putWord packetid ++ [UInt8.ofNat q]))

/-- What `subscribe` reads from a SUBACK for one topic. -/
theorem MQTTDeserialize_suback_subackPacket (packetid : ℕ) {q : ℕ} (hq : q < 256)
    (rest : List UInt8) :
    (MQTTDeserialize_suback 1 (subackPacket packetid q ++ rest)).rc = 1 ∧
      (MQTTDeserialize_suback 1 (subackPacket packetid q ++ rest)).grantedQoSs = [q] := by
  have hdec : MQTTPacket_decodeBuf (MQTTPacket_encode 3 ++
      (putWord packetid ++ UInt8.ofNat q :: rest)) = ((MQTTPacket_encode 3).length, 3) :=
    decodeBuf_encode_append (by norm_num) _
  have hbyte : (UInt8.ofNat q).toNat = q := by simp; omega
  have hgranted : readGranted 1 1 (UInt8.ofNat q :: rest) [] = (true, [q]) := by
    simp [readGranted, hbyte]
  unfold MQTTDeserialize_suback subackPacket
  simp only [List.cons_append, List.append_assoc, List.nil_append, List.headD_cons, List.tail_cons,
    headerType_headerByte (show SUBACK < 16 by decide), hdec, List.drop_left, drop_putWord_append]
  exact ⟨by simp [hgranted], by simp [hgranted]⟩

section
variable {H σ : Type} (call : H → MessageData → σ → σ) (timer : Countdown) (q : ℕ)

/-- The answer to a SUBSCRIBE is among what is to come and comes in time: the client reads on, its
timer not expired, and what it reads is sound and not a SUBACK until it is one that grants `q`. -/
inductive Answers : Client H → World σ → Prop
  | now {c : Client H} {w : World σ} (packetid : ℕ) : timer.InTime w.net.now →
      c.ReadsSoundly timer w.net → (c.readPacket timer w.net).1 = SUBACK →
      subackPacket packetid q <+: (c.readPacket timer w.net).2.1.readbuf → Answers c w
  | later {c : Client H} {w : World σ} : timer.InTime w.net.now →
      c.ReadsSoundly timer w.net → (c.cycle call timer w).rc ≠ SUBACK →
      Answers (c.cycle call timer w).client (c.cycle call timer w).world → Answers c w

variable {timer q}

theorem Answers.inTime {c : Client H} {w : World σ} (h : Answers call timer q c w) :
    timer.expired w.net.now = false := by
  cases h with
  | now _ htime _ _ _ => exact htime.1
  | later htime _ _ _ => exact htime.1

/-- A turn that reads a SUBACK returns its type and leaves it in the buffer. -/
theorem cycle_suback {c : Client H} {w : World σ}
    (h : (c.readPacket timer w.net).1 = SUBACK) :
    (c.cycle call timer w).rc = SUBACK ∧
      (c.cycle call timer w).client.readbuf = (c.readPacket timer w.net).2.1.readbuf := by
  unfold Client.cycle
  generalize c.readPacket timer w.net = s at h ⊢
  obtain ⟨t, c₁, net⟩ := s
  obtain rfl : t = SUBACK := h
  obtain ⟨hrc, -, hbuf, -⟩ := cycleEnd_spec SUBACK c₁ { w with net := net }
  exact ⟨hrc, hbuf⟩

/-- What a client has after waiting: it is the same client, later, and a SUBACK granting `q` is
at the start of its buffer. -/
structure Waited (q : ℕ) (c : Client H) (w : World σ) (r : Result H σ) : Prop where
  rc : r.rc = SUBACK
  keeps : c.Keeps r.client
  later : w.net.Later r.world.net
  suback : ∃ packetid, subackPacket packetid q <+: r.client.readbuf

/-- Waiting for an answer that comes in time ends with it. -/
theorem waitforLoop_answered {c : Client H} {w : World σ} (h : Answers call timer q c w) :
    ∀ (k : ℕ) (rc : ℤ), w.net.reads.length + 2 ≤ k →
      Waited q c w (Client.waitforLoop call SUBACK timer k ⟨rc, c, w⟩) := by
  induction h with
  | @now c w packetid htime _ htype hbuf =>
      intro k rc hk
      obtain ⟨k, rfl⟩ : ∃ j, k = j + 1 := ⟨k - 1, by omega⟩
      obtain ⟨hrc, hread⟩ := cycle_suback call htype
      obtain ⟨hkeeps, hlater, -⟩ := cycle_spec call timer c w
      unfold Client.waitforLoop
      rw [htime.1, if_neg Bool.false_ne_true]
      dsimp only
      rw [if_pos hrc]
      exact ⟨hrc, hkeeps, hlater, packetid, hread ▸ hbuf⟩
  | @later c w htime _ hrc hans ih =>
      intro k rc hk
      obtain ⟨k, rfl⟩ : ∃ j, k = j + 1 := ⟨k - 1, by omega⟩
      obtain ⟨hkeeps, hlater, -⟩ := cycle_spec call timer c w
      have hless := cycle_progress call hans.inTime
      unfold Client.waitforLoop
      rw [htime.1, if_neg Bool.false_ne_true]
      dsimp only
      rw [if_neg hrc]
      have := ih k (c.cycle call timer w).rc (by omega)
      exact ⟨this.rc, hkeeps.trans this.keeps, hlater.trans this.later, this.suback⟩

theorem waitfor_answered {c : Client H} {w : World σ} (h : Answers call timer q c w) :
    Waited q c w (c.waitfor call SUBACK timer w) :=
  waitforLoop_answered call h _ _ le_rfl

end

/-! ### One subscription -/

/-- A SUBSCRIBE for one topic, asking for a QoS of 1. -/
def subscribePacket (packetid : ℕ) (topic : CString) : List UInt8 :=
  headerByte SUBSCRIBE 0 1 0 :: (MQTTPacket_encode (strlen topic + 5) ++ putWord packetid ++
    (writeCString topic ++ [1]))

/-- It fits the send buffer up to a topic of 93 bytes. -/
theorem MQTTSerialize_subscribe_eq (packetid : ℕ) (topic : CString) :
    MQTTSerialize_subscribe MAX_MQTT_PACKET_SIZE 0 packetid [(.ofCString topic, 1)] =
      if strlen topic ≤ 93 then some (subscribePacket packetid topic) else none := by
  have hlen : MQTTSerialize_subscribeLength [MQTTString.ofCString topic] = strlen topic + 5 := by
    simp only [MQTTSerialize_subscribeLength, List.map_cons, List.map_nil, List.sum_cons,
      List.sum_nil, MQTTstrlen_ofCString]
    omega
  have hfits : MAX_MQTT_PACKET_SIZE < MQTTPacket_len (strlen topic + 5) ↔ ¬ strlen topic ≤ 93 := by
    rw [← Nat.not_le, MQTTPacket_len_le_max]
    omega
  simp only [MQTTSerialize_subscribe, List.map_cons, List.map_nil, hlen, hfits, ite_not,
    List.flatMap_singleton]
  rfl

section
variable {H σ : Type} (call : H → MessageData → σ → σ)

/-- The client and the world once `subscribe` has sent its packet, if it comes to that. -/
def Client.subscribeSent (topic : CString) (c : Client H) (w : World σ) : Option (Result H σ) :=
  if c.isconnected then
    (MQTTSerialize_subscribe MAX_MQTT_PACKET_SIZE 0 (getNext c.packetid)
        [(.ofCString topic, 1)]).map fun packet =>
      ({ c with packetid := getNext c.packetid }.store packet).sendPacket packet.length
        (.countdown_ms w.net.now c.command_timeout_ms) w
  else none

theorem Net.Later.full {net net' : Net} (h : net.Later net') (hfull : net.Full) : net'.Full :=
  fun o ho => hfull o (h.writes.subset ho)

/-- A packet stored in the send buffer goes out whole. -/
theorem sendPacket_full {c : Client H} (htimeout : 0 < c.command_timeout_ms) {packet : List UInt8}
    (hpacket : packet ≠ []) {w : World σ} (hfull : w.net.Full) :
    ((c.store packet).sendPacket packet.length
      (.countdown_ms w.net.now c.command_timeout_ms) w).rc = SUCCESS := by
  have hsent := (sendOn_full htimeout hpacket hfull).1
  unfold Client.sendOn at hsent
  rw [(sendPacket_store packet _ c w).2, hsent, if_pos rfl]

/-- A SUBACK in the buffer that grants a QoS of 0 or 1: a free slot takes the topic, and the
granted QoS is what is returned if there is none. -/
theorem subscribeAcked_eq {r : Result H σ} {packetid q : ℕ}
    (hbuf : subackPacket packetid q <+: r.client.readbuf) (hq : q ≤ 1) (topic : CString) (h : H) :
    Client.subscribeAcked topic h r =
      match Client.attach topic h r.client.messageHandlers with
      | some slots => { r with rc := 0, client := { r.client with messageHandlers := slots } }
      | none => { r with rc := q } := by
  obtain ⟨rest, hrest⟩ := hbuf
  obtain ⟨hrc, hgranted⟩ :=
    MQTTDeserialize_suback_subackPacket packetid (show q < 256 by omega) rest
  rw [hrest] at hrc hgranted
  unfold Client.subscribeAcked
  simp only [hrc, hgranted, if_true]
  have hgrant : ¬ (q : ℤ) = 128 := by omega
  cases Client.attach topic h r.client.messageHandlers with
  | none => exact if_neg hgrant
  | some slots => exact if_neg hgrant

/-- A subscription whose SUBACK comes in time reads it, on the client it was sent from. -/
theorem subscribePart_answered {c : Client H} (hc : c.isconnected = true)
    (htimeout : 0 < c.command_timeout_ms) {topic : CString} (hfits : strlen topic ≤ 93)
    {w : World σ} (hfull : w.net.Full) {q : ℕ} (hq : q ≤ 1) (h : H)
    (hans : ∀ r, c.subscribeSent topic w = some r →
      Answers call (.countdown_ms w.net.now c.command_timeout_ms) q r.client r.world) :
    ∃ r : Result H σ, c.Keeps r.client ∧ w.net.Later r.world.net ∧
      c.subscribePart call topic 1 h w = match Client.attach topic h c.messageHandlers with
        | some slots => { r with rc := 0, client := { r.client with messageHandlers := slots } }
        | none => { r with rc := q } := by
  have hser := MQTTSerialize_subscribe_eq (getNext c.packetid) topic
  rw [if_pos hfits] at hser
  have hne : subscribePacket (getNext c.packetid) topic ≠ [] := by simp [subscribePacket]
  generalize subscribePacket (getNext c.packetid) topic = packet at hser hne
  have hsent : (({ c with packetid := getNext c.packetid }.store packet).sendPacket packet.length
      (.countdown_ms w.net.now c.command_timeout_ms) w).rc = SUCCESS :=
    sendPacket_full (c := { c with packetid := getNext c.packetid }) htimeout hne hfull
  obtain ⟨hk, -, hlater, -⟩ := sendPacket_spec packet.length
    (.countdown_ms w.net.now c.command_timeout_ms)
    ({ c with packetid := getNext c.packetid }.store packet) w
  have hkeeps : c.Keeps (({ c with packetid := getNext c.packetid }.store packet).sendPacket
      packet.length (.countdown_ms w.net.now c.command_timeout_ms) w).client :=
    ⟨hk.isconnected, hk.messageHandlers, hk.command_timeout_ms⟩
  unfold Client.subscribeSent at hans
  rw [if_pos hc, hser, Option.map_some] at hans
  have hans := hans _ rfl
  unfold Client.subscribePart
  rw [if_neg (by simp [hc])]
  dsimp only
  rw [hser]
  dsimp only
  generalize ({ c with packetid := getNext c.packetid }.store packet).sendPacket packet.length
    (.countdown_ms w.net.now c.command_timeout_ms) w = r₀ at hans hsent hkeeps hlater ⊢
  obtain ⟨hrc, hkeeps', hlater', packetid, hbuf⟩ := waitfor_answered call hans
  rw [if_neg (by simp [hsent]), if_pos hrc, subscribeAcked_eq hbuf hq,
    (hkeeps.trans hkeeps').messageHandlers]
  exact ⟨_, hkeeps.trans hkeeps', hlater.trans hlater', rfl⟩

/-- What a subscription leaves that has been answered: if a slot is free it takes the topic and
the client is connected, otherwise the QoS granted decides. -/
structure Subscribed (topic : CString) (q : ℕ) (h : H) (c : Client H) (w : World σ)
    (r : Result H σ) : Prop where
  isconnected : r.client.isconnected = true ↔ 0 < freeSlots c.messageHandlers ∨ q = 0
  free : freeSlots r.client.messageHandlers = freeSlots c.messageHandlers - 1
  held : ∀ t, Held r.client.messageHandlers t h ↔
    (0 < freeSlots c.messageHandlers ∧ t = topic) ∨ Held c.messageHandlers t h
  timeout : r.client.command_timeout_ms = c.command_timeout_ms
  later : w.net.Later r.world.net

theorem subscribe_answered {c : Client H} (hc : c.isconnected = true)
    (htimeout : 0 < c.command_timeout_ms) {topic : CString} (hfits : strlen topic ≤ 93)
    {w : World σ} (hfull : w.net.Full) {q : ℕ} (hq : q ≤ 1) (h : H)
    (hans : ∀ r, c.subscribeSent topic w = some r →
      Answers call (.countdown_ms w.net.now c.command_timeout_ms) q r.client r.world) :
    Subscribed topic q h c w (c.subscribe call topic 1 h w) := by
  obtain ⟨r, hkeeps, hlater, hpart⟩ :=
    subscribePart_answered call hc htimeout hfits hfull hq h hans
  have hconn : r.client.isconnected = true := hkeeps.isconnected.trans hc
  unfold Client.subscribe
  rw [hpart]
  cases hattach : Client.attach topic h c.messageHandlers with
  | some slots =>
      obtain ⟨hfree, hheld⟩ := attach_eq_some hattach
      have hpos : 0 < freeSlots c.messageHandlers := by omega
      refine ⟨⟨fun _ => .inl hpos, fun _ => hconn⟩, ?_, fun t => ?_, hkeeps.command_timeout_ms,
        hlater⟩
      · exact (Nat.sub_eq_of_eq_add hfree).symm
      · exact (hheld t).trans (or_congr_left (and_iff_right hpos).symm)
  | none =>
      have hfree := (attach_eq_none topic h c.messageHandlers).mp hattach
      have hpos : ¬ 0 < freeSlots c.messageHandlers := by omega
      have hsame : Subscribed topic 0 h c w { r with rc := 0 } := by
        refine ⟨⟨fun _ => .inr rfl, fun _ => hconn⟩, ?_, fun t => ?_, hkeeps.command_timeout_ms,
          hlater⟩
        · rw [hkeeps.messageHandlers, hfree]
        · rw [hkeeps.messageHandlers]
          exact ⟨.inr, fun h => h.resolve_left fun h => hpos h.1⟩
      interval_cases q
      · exact hsame
      · refine ⟨⟨fun h => ?_, fun h => ?_⟩, hsame.free, hsame.held, hsame.timeout, hsame.later⟩
        · cases h
        · exact absurd h (by simp [hfree])

/-- A client that is not connected stays so, and keeps its table. -/
theorem subscribe_disconnected {c : Client H} (hc : c.isconnected = false) (topic : CString)
    (h : H) (w : World σ) : (c.subscribe call topic 1 h w).client.isconnected = false := by
  simp [Client.subscribe, Client.subscribePart, hc, FAILURE, SUCCESS]

/-- A topic too long for the send buffer disconnects the client. -/
theorem subscribe_too_long {c : Client H} {topic : CString} (hlong : ¬ strlen topic ≤ 93)
    (h : H) (w : World σ) : (c.subscribe call topic 1 h w).client.isconnected = false := by
  have hser := MQTTSerialize_subscribe_eq (getNext c.packetid) topic
  rw [if_neg hlong] at hser
  unfold Client.subscribe Client.subscribePart
  cases hc : c.isconnected with
  | false => simp [FAILURE, SUCCESS]
  | true => simp [hser, FAILURE, SUCCESS]

end

/-! ### All of them -/

section
variable {σ : Type} (call : Handler → MessageData → σ → σ)

/-- Every SUBSCRIBE that is sent for these topics is answered in time, with the QoS granted that
is paired with its topic. -/
def Answered : List (CString × ℕ) → Client Handler × World σ → Prop
  | [], _ => True
  | m :: answers, s =>
      (∀ r, s.1.subscribeSent m.1 s.2 = some r →
        Answers call (.countdown_ms s.2.net.now s.1.command_timeout_ms) m.2 r.client r.world) ∧
      Answered answers (subscribeTopic call m.1 s)

theorem subscribeAll_cons (topic : CString) (topics : List CString)
    (s : Client Handler × World σ) :
    subscribeAll call (topic :: topics) s =
      subscribeAll call topics (subscribeTopic call topic s) :=
  rfl

theorem subscribeAll_disconnected (topics : List CString) : ∀ {s : Client Handler × World σ},
    s.1.isconnected = false → (subscribeAll call topics s).1.isconnected = false := by
  induction topics with
  | nil => exact fun h => h
  | cons topic topics ih =>
      intro s h
      rw [subscribeAll_cons]
      exact ih (subscribe_disconnected call h topic _ _)

/-- The client is still connected at the end exactly if every topic fits its packet and those for
which no slot is left are granted a QoS of 0.  Then the table has got the topics for which there
was one. -/
theorem subscribeAll_spec : ∀ (answers : List (CString × ℕ)) {s : Client Handler × World σ},
    s.1.isconnected = true → 0 < s.1.command_timeout_ms → s.2.net.Full →
    (∀ m ∈ answers, m.2 ≤ 1) → Answered call answers s →
    ((subscribeAll call (answers.map (·.1)) s).1.isconnected = true ↔
        (∀ m ∈ answers, strlen m.1 ≤ 93) ∧
          ∀ m ∈ answers.drop (freeSlots s.1.messageHandlers), m.2 = 0) ∧
      ((subscribeAll call (answers.map (·.1)) s).1.isconnected = true → ∀ t,
        Held (subscribeAll call (answers.map (·.1)) s).1.messageHandlers t .messageArrived ↔
          t ∈ (answers.take (freeSlots s.1.messageHandlers)).map (·.1) ∨
            Held s.1.messageHandlers t .messageArrived)
  | [], s, hc, _, _, _, _ => by
      refine ⟨⟨fun _ => ⟨by simp, by simp⟩, fun _ => hc⟩, fun _ t => ?_⟩
      simp [subscribeAll]
  | m :: answers, s, hc, htimeout, hfull, hq, hans => by
      rw [List.map_cons, subscribeAll_cons]
      obtain ⟨hm, hrest⟩ := hans
      by_cases hfits : strlen m.1 ≤ 93
      case neg =>
        have hlost := subscribeAll_disconnected call (answers.map (·.1))
          (s := subscribeTopic call m.1 s) (subscribe_too_long call hfits _ _)
        rw [hlost]
        refine ⟨⟨fun h => absurd h Bool.false_ne_true, fun h => ?_⟩,
          fun h => absurd h Bool.false_ne_true⟩
        exact absurd (h.1 m List.mem_cons_self) hfits
      case pos =>
        have hsub : Subscribed m.1 m.2 .messageArrived s.1 s.2
            (s.1.subscribe call m.1 1 .messageArrived s.2) :=
          subscribe_answered call hc htimeout hfits hfull (hq m List.mem_cons_self) _ hm
        have hq' := fun m' hm' => hq m' (List.mem_cons_of_mem m hm')
        have htimeout' : 0 < (subscribeTopic call m.1 s).1.command_timeout_ms := by
          exact hsub.timeout ▸ htimeout
        have ih := fun hc' => subscribeAll_spec answers (s := subscribeTopic call m.1 s) hc'
          htimeout' (hsub.later.full hfull) hq' hrest
        have hfree : freeSlots (subscribeTopic call m.1 s).1.messageHandlers =
          freeSlots s.1.messageHandlers - 1 := hsub.free
        have hheld : ∀ t,
            Held (subscribeTopic call m.1 s).1.messageHandlers t .messageArrived ↔ _ :=
          hsub.held
        cases hk : freeSlots s.1.messageHandlers with
        | zero =>
            rw [hk] at hfree hheld
            by_cases hq0 : m.2 = 0
            · obtain ⟨hconn, htable⟩ := ih (hsub.isconnected.mpr (.inr hq0))
              rw [hfree] at hconn htable
              refine ⟨hconn.trans ?_, fun h t => (htable h t).trans ?_⟩
              · simp [hfits, hq0]
              · rw [hheld]
                simp
            · have hlost : (subscribeTopic call m.1 s).1.isconnected = false := by
                rw [Bool.eq_false_iff]
                exact fun h => (hsub.isconnected.mp h).elim (by simp [hk]) hq0
              rw [subscribeAll_disconnected call _ hlost]
              refine ⟨⟨fun h => absurd h Bool.false_ne_true, fun h => ?_⟩,
                fun h => absurd h Bool.false_ne_true⟩
              exact absurd (h.2 m List.mem_cons_self) hq0
        | succ k =>
            rw [hk] at hfree hheld
            obtain ⟨hconn, htable⟩ := ih (hsub.isconnected.mpr (.inl (by omega)))
            rw [hfree, Nat.add_sub_cancel] at hconn htable
            refine ⟨hconn.trans ?_, fun h t => (htable h t).trans ?_⟩
            · simp [hfits]
            · rw [hheld, List.take_succ_cons, List.map_cons, List.mem_cons,
                and_iff_right (Nat.succ_pos k), or_left_comm, or_assoc]

/-- After `subscribeTopics` the client is connected and holds every output's topic exactly if no
topic is longer than 93 bytes and every output without a slot left for it is on a QoS of 0 and on
the topic of an output that has one. -/
theorem subscribeTopics_complete_iff {v : Value} {G : Globals} (hv : parse v = .ok G)
    {c : Client Handler} (hc : c.isconnected = true) (htimeout : 0 < c.command_timeout_ms)
    {w : World σ} (hfull : w.net.Full) {answers : List (CString × ℕ)}
    (htopics : answers.map (·.1) = outputTopics G) (hgranted : ∀ m ∈ answers, m.2 ≤ 1)
    (hans : Answered call answers (c, w)) :
    (∃ c' w', subscribeTopics call G c w = .ok (c', w') ∧ c'.isconnected = true ∧
        ∀ topic ∈ outputTopics G, Held c'.messageHandlers topic .messageArrived) ↔
      (∀ topic ∈ outputTopics G, strlen topic ≤ 93) ∧
        ∀ m ∈ answers.drop (freeSlots c.messageHandlers), m.2 = 0 ∧
          (m.1 ∈ (outputTopics G).take (freeSlots c.messageHandlers) ∨
            Held c.messageHandlers m.1 .messageArrived) := by
  obtain ⟨-, -, ss, -, -, hG⟩ := parse_ok hv
  obtain ⟨hconn, htable⟩ := subscribeAll_spec call answers (s := (c, w)) hc htimeout hfull hgranted
    hans
  rw [subscribeTopics_eq call hG, ← htopics, ← List.map_take]
  dsimp only at hconn htable
  generalize subscribeAll call (answers.map (·.1)) (c, w) = s at hconn htable
  generalize freeSlots c.messageHandlers = k at hconn htable ⊢
  constructor
  · rintro ⟨c', w', heq, hc', hheld⟩
    obtain rfl := Except.ok.inj heq
    obtain ⟨hfits, hzero⟩ := hconn.mp hc'
    refine ⟨fun topic htopic => ?_, fun m hm => ⟨hzero m hm, ?_⟩⟩
    · obtain ⟨m, hm, rfl⟩ := List.mem_map.mp htopic
      exact hfits m hm
    · exact (htable hc' m.1).mp (hheld m.1 (List.mem_map_of_mem (List.mem_of_mem_drop hm)))
  · rintro ⟨hfits, hrest⟩
    have hc' := hconn.mpr ⟨fun m hm => hfits m.1 (List.mem_map_of_mem hm),
      fun m hm => (hrest m hm).1⟩
    refine ⟨s.1, s.2, rfl, hc', fun topic htopic => (htable hc' topic).mpr ?_⟩
    obtain ⟨m, hm, rfl⟩ := List.mem_map.mp htopic
    rw [← List.take_append_drop k answers, List.mem_append] at hm
    rcases hm with hm | hm
    · exact .inl (List.mem_map_of_mem hm)
    · exact (hrest m hm).2

end

/-- The reads that deliver a SUBACK at once. -/
def subackReads (packetid q : ℕ) : List ReadOutcome :=
  [⟨some [headerByte SUBACK 0 0 0], 0⟩, ⟨some (MQTTPacket_encode 3), 0⟩,
    ⟨some (putWord packetid ++ [UInt8.ofNat q]), 0⟩]

/-- A broker that grants these QoS at once, one SUBSCRIBE after another. -/
def promptWorld (granted : List ℕ) : World Unit where
  net := ⟨0, [], (granted.zipIdx 1).flatMap fun q => subackReads q.2 q.1, []⟩
  app := ()

/-- The client of `main` after `connect`: all slots are free. -/
def freshClient : Client Handler := .connected (List.replicate MAX_MESSAGE_HANDLERS ⟨none, none⟩)

def ignore : Handler → MessageData → Unit → Unit := fun _ _ a => a

theorem promptWorld_full (granted : List ℕ) : (promptWorld granted).net.Full := by
  intro o ho
  cases ho

/-- A SUBACK that comes as soon as a SUBSCRIBE has been sent is an answer to it. -/
theorem answers_prompt {c : Client Handler} {w : World Unit} {topic : CString}
    {sent : Result Handler Unit} {timer : Countdown} {q : ℕ} (packetid : ℕ)
    (hsent : c.subscribeSent topic w = some sent) (htime : timer.InTime sent.world.net.now)
    (hfits : Client.storedBytes timer sent.world.net ≤ MAX_MQTT_PACKET_SIZE)
    (htype : (sent.client.readPacket timer sent.world.net).1 = SUBACK)
    (hbuf : subackPacket packetid q <+:
      (sent.client.readPacket timer sent.world.net).2.1.readbuf) :
    ∀ r, c.subscribeSent topic w = some r → Answers ignore timer q r.client r.world := by
  intro r hr
  obtain rfl := Option.some.inj (hsent.symm.trans hr)
  refine .now packetid htime ⟨hfits, fun hpublish => ?_⟩ htype hbuf
  exact absurd (hpublish.symm.trans htype) (by decide)

/-- Six outputs, the last one on the topic of the first, among sensors of other kinds. -/
def fullConfig : Value :=
  config [element .temperature "air" 12, element .dOut "lamp" 20, element .dOut "pump" 21,
    element .dOut "fan" 22, sonarElement "tank" 14 15, element .dOut "valve" 23,
    element .dOut "heater" 24, element .dOut "lamp" 25]

def fullGlobals : Globals :=
  globalsOf [airSensor, outputSensor "lamp" .p20, outputSensor "pump" .p21,
    outputSensor "fan" .p22, tankSensor, outputSensor "valve" .p23, outputSensor "heater" .p24,
    outputSensor "lamp" .p25]

/-- The QoS granted to them. -/
def fullAnswers : List (CString × ℕ) := (outputTopics fullGlobals).zip [1, 1, 0, 1, 1, 0]

theorem full_answered :
    Answered ignore fullAnswers (freshClient, promptWorld [1, 1, 0, 1, 1, 0]) := by
  refine ⟨?_, ?_, ?_, ?_, ?_, ?_, trivial⟩
  · exact answers_prompt 1 rfl (by decide) (by decide) rfl ⟨_, rfl⟩
  · exact answers_prompt 2 rfl (by decide) (by decide) rfl ⟨_, rfl⟩
  · exact answers_prompt 3 rfl (by decide) (by decide) rfl ⟨_, rfl⟩
  · exact answers_prompt 4 rfl (by decide) (by decide) rfl ⟨_, rfl⟩
  · exact answers_prompt 5 rfl (by decide) (by decide) rfl ⟨_, rfl⟩
  · exact answers_prompt 6 rfl (by decide) (by decide) rfl ⟨_, rfl⟩

theorem subscribeTopics_complete_iff_full :
    (∃ c' w', subscribeTopics ignore fullGlobals freshClient (promptWorld [1, 1, 0, 1, 1, 0]) =
          .ok (c', w') ∧ c'.isconnected = true ∧
        ∀ topic ∈ outputTopics fullGlobals, Held c'.messageHandlers topic .messageArrived) ↔
      (∀ topic ∈ outputTopics fullGlobals, strlen topic ≤ 93) ∧
        ∀ m ∈ fullAnswers.drop (freeSlots freshClient.messageHandlers), m.2 = 0 ∧
          (m.1 ∈ (outputTopics fullGlobals).take (freeSlots freshClient.messageHandlers) ∨
            Held freshClient.messageHandlers m.1 .messageArrived) :=
  subscribeTopics_complete_iff ignore (v := fullConfig) rfl rfl (by decide) (promptWorld_full _) rfl
    (by decide) full_answered

/-- Six outputs on as many topics. -/
def sixConfig : Value :=
  config [element .dOut "lamp" 20, element .dOut "pump" 21, element .dOut "fan" 22,
    element .dOut "valve" 23, element .dOut "heater" 24, element .dOut "siren" 25]

def sixGlobals : Globals :=
  globalsOf [outputSensor "lamp" .p20, outputSensor "pump" .p21, outputSensor "fan" .p22,
    outputSensor "valve" .p23, outputSensor "heater" .p24, outputSensor "siren" .p25]

def sixAnswers : List (CString × ℕ) := (outputTopics sixGlobals).map fun topic => (topic, 1)

theorem six_answered :
    Answered ignore sixAnswers (freshClient, promptWorld (List.replicate 6 1)) := by
  refine ⟨?_, ?_, ?_, ?_, ?_, ?_, trivial⟩
  · exact answers_prompt 1 rfl (by decide) (by decide) rfl ⟨_, rfl⟩
  · exact answers_prompt 2 rfl (by decide) (by decide) rfl ⟨_, rfl⟩
  · exact answers_prompt 3 rfl (by decide) (by decide) rfl ⟨_, rfl⟩
  · exact answers_prompt 4 rfl (by decide) (by decide) rfl ⟨_, rfl⟩
  · exact answers_prompt 5 rfl (by decide) (by decide) rfl ⟨_, rfl⟩
  · exact answers_prompt 6 rfl (by decide) (by decide) rfl ⟨_, rfl⟩

/-- With six outputs, each granted the QoS of 1 that is asked for, the client is disconnected. -/
theorem sixth_output_disconnects :
    parse sixConfig = .ok sixGlobals ∧ freshClient.isconnected = true ∧
      Answered ignore sixAnswers (freshClient, promptWorld (List.replicate 6 1)) ∧
      ¬ ∃ c' w', subscribeTopics ignore sixGlobals freshClient (promptWorld (List.replicate 6 1)) =
          .ok (c', w') ∧ c'.isconnected = true ∧
        ∀ topic ∈ outputTopics sixGlobals, Held c'.messageHandlers topic .messageArrived := by
  refine ⟨rfl, rfl, six_answered, ?_⟩
  rintro ⟨c', w', heq, hc', -⟩
  have hG : Aligned sixGlobals _ := globalsOf_aligned _
  rw [subscribeTopics_eq ignore hG] at heq
  obtain rfl := congrArg Prod.fst (Except.ok.inj heq)
  have hlost : (subscribeAll ignore (outputTopics sixGlobals)
      (freshClient, promptWorld (List.replicate 6 1))).1.isconnected = false := by rfl
  exact absurd (hlost.symm.trans hc') Bool.false_ne_true

end RemotusHardware
