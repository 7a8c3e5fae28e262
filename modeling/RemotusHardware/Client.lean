import RemotusHardware.Packet

/-! # The MQTT client

`MQTT::Client` of `MQTTClient.h` with its default sizes, over a network and a clock that are
inputs.  `Net` says how every coming call of the network goes: how much of a `write` it takes
or what a `read` delivers, and how long the call lasts.  After the listed outcomes the network
takes every write in full and nothing more arrives.  It keeps a record of the packets that
`ipstack.write` has been called for.

A `Client` is a value.  What the program copies, the model copies; the network, which every
copy refers to, is passed on.  `H` is the type of the callbacks and `call` runs one on the
state `σ` of the application.

The model is the code's as long as memory is: `readPacket` may store more than `readbuf` has room
for, and a PUBLISH may come without a topic to point to.  `Client.ReadsSoundly` excludes both.  A
`Countdown` counts milliseconds without a bound, the timer it reads in microseconds of 32 bits
(`Countdown.expired_eq`). -/

namespace RemotusHardware

open CLib

/-! ### Timers -/

/-- `Countdown`: a timer started at `start`, for `interval_end_ms` milliseconds. -/
structure Countdown where
  start : ℕ
  interval_end_ms : ℕ
deriving DecidableEq, Repr

/-- `Timer::read_us()` after so many microseconds: an `int` of 32 bits. -/
def read_us (us : ℕ) : ℤ := (us : ℤ).bmod (2 ^ 32)

theorem read_us_eq {us : ℕ} (h : us < 2 ^ 31) : read_us us = us := by
  unfold read_us
  apply Int.bmod_eq_of_le
  · norm_num
  · norm_num
    omega

namespace Countdown

def countdown_ms (now ms : ℕ) : Countdown := ⟨now, ms⟩

def countdown (now seconds : ℕ) : Countdown := countdown_ms now (seconds * 1000)

/-- `t.read_ms() >= interval_end_ms`, with the milliseconds counted without a bound. -/
def expired (t : Countdown) (now : ℕ) : Bool := t.interval_end_ms ≤ now - t.start

/-- The same on the timer of 32 bits; `int` and `unsigned long` are compared as the latter. -/
def expired32 (t : Countdown) (now : ℕ) : Bool :=
  (t.interval_end_ms : ℤ) ≤ (read_us (1000 * (now - t.start))).tdiv 1000 % 2 ^ 32

/-- For the first 35 minutes both agree. -/
theorem expired_eq (t : Countdown) {now : ℕ} (h : now - t.start ≤ 2147483) :
    t.expired32 now = t.expired now := by
  unfold expired32 expired
  generalize now - t.start = e at h ⊢
  have hms : (read_us (1000 * e)).tdiv 1000 = e := by
    rw [read_us_eq (by omega), Nat.cast_mul]
    exact Int.mul_tdiv_cancel_left _ (by decide)
  rw [hms, Int.emod_eq_of_lt (by omega) (by omega)]
  exact decide_eq_decide.mpr Nat.cast_le

/-- The timer has not expired, and its microseconds have not come round. -/
def InTime (t : Countdown) (now : ℕ) : Prop := t.expired now = false ∧ now - t.start ≤ 2147483

instance (t : Countdown) (now : ℕ) : Decidable (t.InTime now) := inferInstanceAs (Decidable (_ ∧ _))

end Countdown

/-! ### The network -/

/-- What a `write` of `length` bytes comes to. -/
inductive Accepted where
  | full
  | part (n : ℕ)
  | error
deriving DecidableEq, Repr

/-- The bytes taken, `none` for a negative return code. -/
def Accepted.count (length : ℕ) : Accepted → Option ℕ
  | full => some length
  | part n => some (min n length)
  | error => none

structure WriteOutcome where
  accepted : Accepted
  elapsed : ℕ
deriving DecidableEq, Repr

/-- What a `read` delivers, `none` for a negative return code. -/
structure ReadOutcome where
  data : Option (List UInt8)
  elapsed : ℕ
deriving DecidableEq, Repr

/-- A packet handed to the network and the number of bytes taken, from the start of `sendbuf` on:
the packet's first ones, and bytes behind it if a write that follows a partial one takes more than
was left of it. -/
structure SentPacket where
  packet : List UInt8
  accepted : ℕ
deriving DecidableEq, Repr

structure Net where
  now : ℕ
  writes : List WriteOutcome
  reads : List ReadOutcome
  sent : List SentPacket
deriving DecidableEq, Repr

/-- `ipstack.read(buffer, len, timer.left_ms())`; with nothing to come it waits in vain. -/
def Net.read (net : Net) (len : ℕ) (timer : Countdown) : Option (List UInt8) × Net :=
  match net.reads with
  | [] => (none, { net with now := max net.now (timer.start + timer.interval_end_ms) })
  | o :: os => (o.data.map (·.take len), { net with reads := os, now := net.now + o.elapsed })

/-! ### The client -/

def FAILURE : ℤ := -1
def SUCCESS : ℤ := 0

def MAX_MQTT_PACKET_SIZE : ℕ := 100
def MAX_MESSAGE_HANDLERS : ℕ := 5

/-- `MQTT::Message`; `payload` points into memory. -/
structure Message where
  qos : ℕ
  retained : Bool
  dup : Bool
  id : ℕ
  payload : List UInt8
  payloadlen : ℕ

structure MessageData where
  message : Message
  topicName : MQTTString

/-- A slot of the table of handlers; it is free while its filter is null. -/
structure MessageHandlers (H : Type) where
  topicFilter : Option CString
  fp : Option H

structure Client (H : Type) where
  command_timeout_ms : ℕ
  sendbuf : List UInt8
  readbuf : List UInt8
  last_sent : Countdown
  last_received : Countdown
  keepAliveInterval : ℕ
  ping_outstanding : Bool
  cleansession : Bool
  packetid : ℕ
  messageHandlers : List (MessageHandlers H)
  defaultMessageHandler : Option H
  isconnected : Bool
  pubbuf : List UInt8
  inflightLen : ℕ
  inflightMsgid : ℕ
  inflightQoS : ℕ

/-- The message `cycle` makes of an incoming PUBLISH. -/
def PublishFields.message (f : PublishFields) : Message where
  qos := f.qos
  retained := f.retained ≠ 0
  dup := f.dup ≠ 0
  id := f.packetid.getD 0
  payload := f.payload.getD []
  payloadlen := f.payloadlen.toNat

/-- `PacketId::getNext`. -/
def getNext (next : ℕ) : ℕ := if next = 65535 then 1 else next + 1

/-- What a client shares with its copies: the network and the application. -/
structure World (σ : Type) where
  net : Net
  app : σ

/-- A return code, the client and the world after a call. -/
structure Result (H σ : Type) where
  rc : ℤ
  client : Client H
  world : World σ

/-- The loop of `sendPacket`: the outcomes left, the time and the number of bytes sent.  Every turn
offers `length` bytes again, not those that are left. -/
def sendLoop (length : ℕ) (timer : Countdown) : List WriteOutcome → ℕ → ℕ →
    List WriteOutcome × ℕ × ℕ
  | [], now, sent =>
      ([], now, if decide (sent < length) && !timer.expired now then sent + length else sent)
  | w :: ws, now, sent =>
      if decide (sent < length) && !timer.expired now then
        match w.accepted.count length with
        | none => (ws, now + w.elapsed, sent)
        | some rc => sendLoop length timer ws (now + w.elapsed) (sent + rc)
      else (w :: ws, now, sent)

/-- A packet is handed to the network: whether just its bytes were taken, and the network.  Once
the timer has expired nothing is handed to it. -/
def Net.send (packet : List UInt8) (length : ℕ) (timer : Countdown) (net : Net) : Bool × Net :=
  let (writes, now, sent) := sendLoop length timer net.writes net.now 0
  (decide (sent = length), { net with
    writes := writes
    now := now
    sent := if timer.expired net.now then net.sent else net.sent ++ [⟨packet, sent⟩] })

section
variable {H σ : Type}

namespace Client

/-- A serializer stores its packet at the start of `sendbuf`. -/
def store (c : Client H) (packet : List UInt8) : Client H :=
  { c with sendbuf := overwrite c.sendbuf 0 packet }

def sendPacket (length : ℕ) (timer : Countdown) (c : Client H) (w : World σ) : Result H σ :=
  let (ok, net) := w.net.send (c.sendbuf.take length) length timer
  if ok then
    let last_sent :=
      if 0 < c.keepAliveInterval then Countdown.countdown net.now c.keepAliveInterval
      else c.last_sent
    ⟨SUCCESS, { c with last_sent := last_sent }, { w with net := net }⟩
  else ⟨FAILURE, c, { w with net := net }⟩

/-- `decodePacket`: at most four bytes are asked for; the value read and the network. -/
def decodePacket (timer : Countdown) : ℕ → ℕ → ℕ → Net → ℕ × Net
  | 0, value, _, net => (value, net)
  | k + 1, value, multiplier, net =>
      match net.read 1 timer with
      | (some [c], net) =>
          let value := value + c.toNat % 128 * multiplier
          if 128 ≤ c.toNat then decodePacket timer k value (multiplier * 128) net else (value, net)
      | (_, net) => (value, net)

/-- `readPacket`: the packet type or `FAILURE`. -/
def readPacket (timer : Countdown) (c : Client H) (net : Net) : ℤ × Client H × Net :=
  match net.read 1 timer with
  | (some [b], net) =>
      let (rem_len, net) := decodePacket timer 4 0 1 net
      let head := b :: MQTTPacket_encode rem_len
      let c := { c with readbuf := overwrite c.readbuf 0 head }
      let (ok, c, net) : Bool × Client H × Net :=
        if 0 < rem_len then
          match net.read rem_len timer with
          | (some data, net) =>
              (decide (data.length = rem_len),
                { c with readbuf := overwrite c.readbuf head.length data }, net)
          | (none, net) => (false, c, net)
        else (true, c, net)
      if ok then
        let last_received :=
          if 0 < c.keepAliveInterval then Countdown.countdown net.now c.keepAliveInterval
          else c.last_received
        (headerType b, { c with last_received := last_received }, net)
      else (FAILURE, c, net)
  | (_, net) => (FAILURE, c, net)

/-- How many bytes from the start of the read buffer on `readPacket` stores: the header and the
length, and what is delivered of the rest. -/
def storedBytes (timer : Countdown) (net : Net) : ℕ :=
  match net.read 1 timer with
  | (some [_], net) =>
      let (rem_len, net) := decodePacket timer 4 0 1 net
      1 + (MQTTPacket_encode rem_len).length +
        if 0 < rem_len then ((net.read rem_len timer).1.getD []).length else 0
  | (_, _) => 0

/-- What comes next is not stored past the read buffer, and a PUBLISH points to its topic. -/
structure ReadsSoundly (timer : Countdown) (c : Client H) (net : Net) : Prop where
  fits : storedBytes timer net ≤ MAX_MQTT_PACKET_SIZE
  topic : (readPacket timer c net).1 = PUBLISH →
    (MQTTDeserialize_publish (readPacket timer c net).2.1.readbuf).rc = 1 →
    (MQTTDeserialize_publish (readPacket timer c net).2.1.readbuf).topicName.lenstring.data ≠ none

/-- The loop of `isTopicMatched`, on what is left of the filter and of the name: `+` skips to the
next `/`, `#` to the end. -/
def topicMatchLoop : List UInt8 → List UInt8 → Bool
  | [], name => name.isEmpty
  | _ :: _, [] => false
  | f :: filter, n :: name =>
      if n = 47 ∧ f ≠ 47 then false
      else if f ≠ 43 ∧ f ≠ 35 ∧ f ≠ n then false
      else if f = 43 then topicMatchLoop filter (name.dropWhile (· ≠ 47))
      else if f = 35 then topicMatchLoop filter []
      else topicMatchLoop filter name

def isTopicMatched (topicFilter : CString) (topicName : MQTTString) : Bool :=
  topicMatchLoop topicFilter.bytes
    ((topicName.lenstring.data.getD []).take topicName.lenstring.len)

/-- A slot takes a message if its filter equals the topic or matches it. -/
def handles (slot : MessageHandlers H) (topicName : MQTTString) : Bool :=
  match slot.topicFilter with
  | none => false
  | some filter => MQTTPacket_equals topicName filter || isTopicMatched filter topicName

variable (call : H → MessageData → σ → σ)

/-- The loop of `deliverMessage` over the slots. -/
def deliverLoop (md : MessageData) : List (MessageHandlers H) → ℤ × σ → ℤ × σ
  | [], r => r
  | slot :: slots, (rc, a) =>
      if handles slot md.topicName then
        match slot.fp with
        | some h => deliverLoop md slots (SUCCESS, call h md a)
        | none => deliverLoop md slots (rc, a)
      else deliverLoop md slots (rc, a)

def deliverMessage (c : Client H) (topicName : MQTTString) (message : Message) (a : σ) : ℤ × σ :=
  let md : MessageData := ⟨message, topicName⟩
  let (rc, a) := deliverLoop call md c.messageHandlers (FAILURE, a)
  match c.defaultMessageHandler with
  | some h => if rc = FAILURE then (SUCCESS, call h md a) else (rc, a)
  | none => (rc, a)

def keepalive (c : Client H) (w : World σ) : Client H × World σ :=
  if c.keepAliveInterval = 0 then (c, w)
  else if (c.last_sent.expired w.net.now || c.last_received.expired w.net.now) &&
      !c.ping_outstanding then
    match MQTTSerialize_pingreq MAX_MQTT_PACKET_SIZE with
    | none => (c, w)
    | some packet =>
        let r := (c.store packet).sendPacket packet.length (.countdown_ms w.net.now 1000) w
        if r.rc = SUCCESS then ({ r.client with ping_outstanding := true }, r.world)
        else (r.client, r.world)
  else (c, w)

/-- The acknowledgement of a PUBLISH; for QoS 3 `len` stays 0. -/
def acknowledge (qos id : ℕ) : Option (List UInt8) :=
  if qos = 1 then MQTTSerialize_ack MAX_MQTT_PACKET_SIZE PUBACK 0 id
  else if qos = 2 then MQTTSerialize_ack MAX_MQTT_PACKET_SIZE PUBREC 0 id
  else none

/-- The end of `cycle`: `keepalive()` and the packet type. -/
def cycleEnd (packet_type : ℤ) (c : Client H) (w : World σ) : Result H σ :=
  let (c, w) := keepalive c w
  ⟨packet_type, c, w⟩

/-- The packet type is an `unsigned short`, a failed read comes out as 65535. -/
def cycle (timer : Countdown) (c : Client H) (w : World σ) : Result H σ :=
  let (t, c, net) := readPacket timer c w.net
  let w := { w with net := net }
  let packet_type : ℤ := if t < 0 then 65535 else t
  if packet_type = PUBLISH then
    let f := MQTTDeserialize_publish c.readbuf
    if f.rc ≠ 1 then ⟨packet_type, c, w⟩
    else
      let msg := f.message
      let w := { w with app := (deliverMessage call c f.topicName msg w.app).2 }
      if msg.qos = 0 then cycleEnd packet_type c w
      else
        match acknowledge msg.qos msg.id with
        | none => ⟨FAILURE, c, w⟩
        | some packet =>
            let r := (c.store packet).sendPacket packet.length timer w
            if r.rc = FAILURE then r else cycleEnd packet_type r.client r.world
  else if packet_type = PINGRESP then cycleEnd packet_type { c with ping_outstanding := false } w
  else cycleEnd packet_type c w

/-- The loop of `waitfor`.  A cycle uses up an outcome of `reads`, or the time of the timer
once there is none, so one turn more than there are outcomes, and one to see the timer expired,
is all it can take. -/
def waitforLoop (packet_type : ℕ) (timer : Countdown) : ℕ → Result H σ → Result H σ
  | 0, r => r
  | k + 1, r =>
      if timer.expired r.world.net.now then r
      else
        let r := cycle call timer r.client r.world
        if r.rc = packet_type then r else waitforLoop packet_type timer k r

def waitfor (packet_type : ℕ) (timer : Countdown) (c : Client H) (w : World σ) : Result H σ :=
  waitforLoop call packet_type timer (w.net.reads.length + 2) ⟨FAILURE, c, w⟩

/-- The loop of `yield`. -/
def yieldLoop (timer : Countdown) : ℕ → Client H → World σ → Result H σ
  | 0, c, w => ⟨SUCCESS, c, w⟩
  | k + 1, c, w =>
      if timer.expired w.net.now then ⟨SUCCESS, c, w⟩
      else
        let r := cycle call timer c w
        if r.rc = FAILURE then r else yieldLoop timer k r.client r.world

def yield (timeout_ms : ℕ) (c : Client H) (w : World σ) : Result H σ :=
  yieldLoop call (.countdown_ms w.net.now timeout_ms) (w.net.reads.length + 2) c w

/-- `publish(len, timer, qos)`. -/
def publishPart (length : ℕ) (timer : Countdown) (qos : ℕ) (c : Client H) (w : World σ) :
    Result H σ :=
  let r := c.sendPacket length timer w
  let r :=
    if r.rc = SUCCESS ∧ qos = 1 then
      let r := waitfor call PUBACK timer r.client r.world
      if r.rc = PUBACK then
        let (rc, mypacketid) := MQTTDeserialize_ack r.client.readbuf
        if rc ≠ 1 then { r with rc := FAILURE }
        else if some r.client.inflightMsgid = mypacketid then
          { r with rc := SUCCESS, client := { r.client with inflightMsgid := 0 } }
        else { r with rc := SUCCESS }
      else { r with rc := FAILURE }
    else r
  if r.rc = SUCCESS then r else { r with client := { r.client with isconnected := false } }

/-- `publish(topicName, message)`. -/
def publish (topicName : CString) (message : Message) (c : Client H) (w : World σ) : Result H σ :=
  let timer := Countdown.countdown_ms w.net.now c.command_timeout_ms
  if !c.isconnected then ⟨FAILURE, c, w⟩
  else
    let (c, id) : Client H × ℕ :=
      if message.qos = 1 ∨ message.qos = 2 then
        ({ c with packetid := getNext c.packetid }, getNext c.packetid)
      else (c, 0)
    match MQTTSerialize_publish MAX_MQTT_PACKET_SIZE 0 message.qos message.retained.toNat id
        (.ofCString topicName) message.payload message.payloadlen with
    | none => ⟨FAILURE, c, w⟩
    | some packet =>
        let c := c.store packet
        let c :=
          if !c.cleansession then
            { c with
              pubbuf := overwrite c.pubbuf 0 packet, inflightMsgid := id
              inflightLen := packet.length, inflightQoS := message.qos }
          else c
        publishPart call packet.length timer message.qos c w

/-- The first free slot takes the handler. -/
def attach (topicFilter : CString) (h : H) :
    List (MessageHandlers H) → Option (List (MessageHandlers H))
  | [] => none
  | slot :: slots =>
      match slot.topicFilter with
      | none => some (⟨some topicFilter, some h⟩ :: slots)
      | some _ => (attach topicFilter h slots).map (slot :: ·)

/-- `subscribe` once a SUBACK has been read; `grantedQoS` is returned unless a free slot puts a 0 in
its place. -/
def subscribeAcked (topicFilter : CString) (h : H) (r : Result H σ) : Result H σ :=
  let suback := MQTTDeserialize_suback 1 r.client.readbuf
  let grantedQoS : ℤ := match suback.grantedQoSs with
    | [] => -1
    | q :: _ => q
  let rc : ℤ := if suback.rc = 1 then grantedQoS else SUCCESS
  if rc = 128 then { r with rc := rc }
  else match attach topicFilter h r.client.messageHandlers with
    | some slots => { r with rc := 0, client := { r.client with messageHandlers := slots } }
    | none => { r with rc := rc }

/-- `subscribe`, up to the label `exit`. -/
def subscribePart (topicFilter : CString) (qos : ℕ) (h : H) (c : Client H) (w : World σ) :
    Result H σ :=
  let timer := Countdown.countdown_ms w.net.now c.command_timeout_ms
  if !c.isconnected then ⟨FAILURE, c, w⟩
  else
    let c := { c with packetid := getNext c.packetid }
    match MQTTSerialize_subscribe MAX_MQTT_PACKET_SIZE 0 c.packetid
        [(.ofCString topicFilter, qos)] with
    | none => ⟨FAILURE, c, w⟩
    | some packet =>
        let r := (c.store packet).sendPacket packet.length timer w
        if r.rc ≠ SUCCESS then r
        else
          let r := waitfor call SUBACK timer r.client r.world
          if r.rc = SUBACK then subscribeAcked topicFilter h r else { r with rc := FAILURE }

def subscribe (topicFilter : CString) (qos : ℕ) (h : H) (c : Client H) (w : World σ) :
    Result H σ :=
  let r := subscribePart call topicFilter qos h c w
  if r.rc = SUCCESS then r else { r with client := { r.client with isconnected := false } }

/-- A client that has been connected at time 0 with the options of `main`; its slots are given. -/
def connected (slots : List (MessageHandlers H)) : Client H where
  command_timeout_ms := 30000
  sendbuf := List.replicate MAX_MQTT_PACKET_SIZE 0
  readbuf := List.replicate MAX_MQTT_PACKET_SIZE 0
  last_sent := .countdown 0 60
  last_received := .countdown 0 60
  keepAliveInterval := 60
  ping_outstanding := false
  cleansession := true
  packetid := 0
  messageHandlers := slots
  defaultMessageHandler := none
  isconnected := true
  pubbuf := List.replicate MAX_MQTT_PACKET_SIZE 0
  inflightLen := 0
  inflightMsgid := 0
  inflightQoS := 0

end Client

end

end RemotusHardware
