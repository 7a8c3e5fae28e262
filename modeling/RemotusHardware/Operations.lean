import RemotusHardware.Base.Transition
import RemotusHardware.Connect
import RemotusHardware.Stream
import RemotusHardware.Subscription

/-! # What all operations of the client keep

The client writes its packets into buffers of a fixed size and keeps its handlers in a table of
slots.  What it does is as it is written down here while its memory is intact, and two things can
spoil that: a packet that does not fit the read buffer, as `readPacket` stores as many bytes as the
packet says it has, and a write that is taken in part, as `sendPacket` then offers bytes that lie
behind the packet.  On a network without either (`Net.Sound`) no operation stores or sends a packet
that does not fit, over any sequence of them (`operations_keep`): the buffers keep their sizes, and
a slot of the table that is taken stays as it is.  Nothing ever frees a slot, not even
`unsubscribe`.

On any network the read buffer is intact, over a run of turns, exactly if every packet that has
arrived fits (`readbuf_intact_iff`). -/

namespace RemotusHardware

open CLib Wire Transition

/-! ### The operations that are left -/

def UNSUBSCRIBE : ℕ := 10
def UNSUBACK : ℕ := 11
def DISCONNECT : ℕ := 14

def MQTTSerialize_unsubscribeLength (topicFilters : List MQTTString) : ℕ :=
  2 + (topicFilters.map fun t => 2 + MQTTstrlen t).sum

def MQTTSerialize_unsubscribe (buflen dup packetid : ℕ) (topicFilters : List MQTTString) :
    Option (List UInt8) :=
  let rem_len := MQTTSerialize_unsubscribeLength topicFilters
  if buflen < MQTTPacket_len rem_len then none
  else some (headerByte UNSUBSCRIBE dup 1 0 :: (MQTTPacket_encode rem_len ++ putWord packetid ++
    topicFilters.flatMap writeMQTTString))

/-- `MQTTDeserialize_unsuback`: its return value, on which the type alone decides, and the packet
identifier, if it is stored. -/
def MQTTDeserialize_unsuback (buf : List UInt8) : ℤ × Option ℕ :=
  let (rc, packetid) := MQTTDeserialize_ack buf
  (if headerType (buf.headD 0) = UNSUBACK then 1 else rc, packetid)

def MQTTSerialize_disconnect (buflen : ℕ) : Option (List UInt8) :=
  MQTTSerialize_zero buflen DISCONNECT

section
variable {H σ : Type} (call : H → MessageData → σ → σ)

namespace Client

/-- `unsubscribe`, up to the label `exit`; without a proper UNSUBACK `rc` still holds what
`sendPacket` has returned. -/
def unsubscribePart (topicFilter : CString) (c : Client H) (w : World σ) : Result H σ :=
  let timer := Countdown.countdown_ms w.net.now c.command_timeout_ms
  if !c.isconnected then ⟨FAILURE, c, w⟩
  else
    let c := { c with packetid := getNext c.packetid }
    match MQTTSerialize_unsubscribe MAX_MQTT_PACKET_SIZE 0 c.packetid [.ofCString topicFilter] with
    | none => ⟨FAILURE, c, w⟩
    | some packet =>
        let r := (c.store packet).sendPacket packet.length timer w
        if r.rc ≠ SUCCESS then r
        else
          let r := waitfor call UNSUBACK timer r.client r.world
          if r.rc = UNSUBACK then
            if (MQTTDeserialize_unsuback r.client.readbuf).1 = 1 then { r with rc := 0 }
            else { r with rc := SUCCESS }
          else { r with rc := FAILURE }

def unsubscribe (topicFilter : CString) (c : Client H) (w : World σ) : Result H σ :=
  let r := unsubscribePart call topicFilter c w
  if r.rc = SUCCESS then r else { r with client := { r.client with isconnected := false } }

def disconnect (c : Client H) (w : World σ) : Result H σ :=
  let timer := Countdown.countdown_ms w.net.now c.command_timeout_ms
  let r : Result H σ := match MQTTSerialize_disconnect MAX_MQTT_PACKET_SIZE with
    | none => ⟨FAILURE, c, w⟩
    | some packet => (c.store packet).sendPacket packet.length timer w
  { r with client := { r.client with isconnected := false } }

end Client

/-- A call of the application. -/
inductive Operation (H : Type) where
  | connect (options : MQTTPacket_connectData)
  | subscribe (topicFilter : CString) (qos : ℕ) (h : H)
  | unsubscribe (topicFilter : CString)
  | publish (topicName : CString) (message : Message)
  | yield (timeout_ms : ℕ)
  | disconnect

def Operation.run : Operation H → Client H → World σ → Result H σ
  | connect options, c, w => Client.connect call options c w
  | subscribe topicFilter qos h, c, w => c.subscribe call topicFilter qos h w
  | unsubscribe topicFilter, c, w => c.unsubscribe call topicFilter w
  | publish topicName message, c, w => c.publish call topicName message w
  | yield timeout_ms, c, w => c.yield call timeout_ms w
  | disconnect, c, w => c.disconnect w

/-! ### Buffers and slots -/

/-- The buffers have their sizes; a command waits no longer than its timer can tell. -/
structure Client.Buffers (c : Client H) : Prop where
  sendbuf : c.sendbuf.length = MAX_MQTT_PACKET_SIZE
  readbuf : c.readbuf.length = MAX_MQTT_PACKET_SIZE
  pubbuf : c.pubbuf.length = MAX_MQTT_PACKET_SIZE
  inflightLen : c.inflightLen ≤ MAX_MQTT_PACKET_SIZE
  command_timeout_ms : c.command_timeout_ms ≤ 2147483

/-- Packet after packet is read soundly, whatever the client and its timers. -/
inductive SoundReads (H : Type) : List ReadOutcome → Prop
  | nil : SoundReads H []
  | packet {reads : List ReadOutcome} :
      (∀ (c : Client H) (timer : Countdown) (net : Net), net.reads = reads →
        c.ReadsSoundly timer net) →
      (∀ (c : Client H) (timer : Countdown) (net : Net), net.reads = reads →
        SoundReads H (c.readPacket timer net).2.2.reads) → SoundReads H reads

/-- Nothing that comes is stored past the read buffer, and no write is taken in part. -/
structure Net.Sound (H : Type) (net : Net) : Prop where
  reads : SoundReads H net.reads
  writes : net.AllOrNothing

/-- The client and the network are as the model has them. -/
structure Intact (c : Client H) (w : World σ) : Prop where
  buffers : c.Buffers
  net : w.net.Sound H

/-- A slot that is taken stays as it is. -/
def Extends (slots slots' : List (MessageHandlers H)) : Prop :=
  List.Forall₂ (fun s s' => s.topicFilter = none ∨ s' = s) slots slots'

theorem Extends.refl (slots : List (MessageHandlers H)) : Extends slots slots :=
  List.forall₂_same.mpr fun _ _ => .inr rfl

theorem Extends.trans {slots₁ slots₂ slots₃ : List (MessageHandlers H)} (h : Extends slots₁ slots₂)
    (h' : Extends slots₂ slots₃) : Extends slots₁ slots₃ := by
  induction h generalizing slots₃ with
  | nil => exact h'
  | cons hs _ ih =>
      cases h' with
      | cons hs' hrest =>
          refine .cons ?_ (ih hrest)
          rcases hs with hs | rfl
          · exact .inl hs
          · exact hs'

/-- A packet that fits and has been taken in full or not at all. -/
def SentPacket.Proper (p : SentPacket) : Prop :=
  p.packet.length ≤ MAX_MQTT_PACKET_SIZE ∧ (p.accepted = 0 ∨ p.accepted = p.packet.length)

/-- What the client does from one state to another keeps buffers and slots. -/
structure Kept (c : Client H) (w : World σ) (c' : Client H) (w' : World σ) : Prop where
  intact : Intact c w → Intact c' w'
  sent : Intact c w → ∃ sent, w'.net.sent = w.net.sent ++ sent ∧ ∀ p ∈ sent, p.Proper
  slots : Extends c.messageHandlers c'.messageHandlers

theorem Kept.trans {c₁ c₂ c₃ : Client H} {w₁ w₂ w₃ : World σ} (h : Kept c₁ w₁ c₂ w₂)
    (h' : Kept c₂ w₂ c₃ w₃) : Kept c₁ w₁ c₃ w₃ := by
  refine ⟨fun hi => h'.intact (h.intact hi), fun hi => ?_, h.slots.trans h'.slots⟩
  obtain ⟨sent, hsent, hproper⟩ := h.sent hi
  obtain ⟨sent', hsent', hproper'⟩ := h'.sent (h.intact hi)
  refine ⟨sent ++ sent', by rw [hsent', hsent, List.append_assoc], fun p hp => ?_⟩
  rcases List.mem_append.mp hp with hp | hp
  · exact hproper p hp
  · exact hproper' p hp

/-- Where the network is left alone only the buffers and slots matter. -/
theorem Kept.of_quiet {c c' : Client H} {w w' : World σ} (hb : c.Buffers → c'.Buffers)
    (hnet : w'.net = w.net) (hslots : Extends c.messageHandlers c'.messageHandlers) :
    Kept c w c' w' :=
  ⟨fun hi => ⟨hb hi.buffers, hnet ▸ hi.net⟩, fun _ => ⟨[], by simp [hnet], by simp⟩, hslots⟩

theorem Kept.refl (c : Client H) (w : World σ) : Kept c w c w :=
  .of_quiet id rfl (Extends.refl _)

/-- A change that leaves buffers, timeout, slots and network alone. -/
theorem Kept.of_same {c c' : Client H} (w : World σ) (hsendbuf : c'.sendbuf = c.sendbuf)
    (hreadbuf : c'.readbuf = c.readbuf) (hpubbuf : c'.pubbuf = c.pubbuf)
    (hinflightLen : c'.inflightLen = c.inflightLen)
    (htimeout : c'.command_timeout_ms = c.command_timeout_ms)
    (hslots : c'.messageHandlers = c.messageHandlers) : Kept c w c' w := by
  refine .of_quiet (fun hb => ⟨?_, ?_, ?_, ?_, ?_⟩) rfl (hslots ▸ Extends.refl _)
  · rw [hsendbuf, hb.sendbuf]
  · rw [hreadbuf, hb.readbuf]
  · rw [hpubbuf, hb.pubbuf]
  · rw [hinflightLen]
    exact hb.inflightLen
  · rw [htimeout]
    exact hb.command_timeout_ms

/-! ### The steps of an operation -/

theorem overwrite_zero_length {buf data : List UInt8} (h : data.length ≤ buf.length) :
    (overwrite buf 0 data).length = buf.length := by
  rw [overwrite_zero, List.length_append, List.length_drop]
  omega

theorem kept_store {packet : List UInt8} (h : packet.length ≤ MAX_MQTT_PACKET_SIZE) (c : Client H)
    (w : World σ) : Kept c w (c.store packet) w := by
  refine .of_quiet (fun hb => ⟨?_, hb.readbuf, hb.pubbuf, hb.inflightLen, hb.command_timeout_ms⟩)
    rfl (Extends.refl _)
  rw [← hb.sendbuf]
  exact overwrite_zero_length (hb.sendbuf ▸ h)

theorem kept_sendPacket {length : ℕ} {c : Client H} {w : World σ}
    (hlength : Intact c w → length ≤ MAX_MQTT_PACKET_SIZE) (timer : Countdown) :
    Kept c w (c.sendPacket length timer w).client (c.sendPacket length timer w).world := by
  have hlater := Net.send_later (c.sendbuf.take length) length timer w.net
  have hreads := Net.send_reads (c.sendbuf.take length) length timer w.net
  have hsend := Net.send_sent (c.sendbuf.take length) length timer w.net
  unfold Client.sendPacket
  generalize w.net.send (c.sendbuf.take length) length timer = s at hlater hreads hsend ⊢
  obtain ⟨ok, net⟩ := s
  have hnet (hi : Intact c w) : net.Sound H :=
    ⟨by rw [hreads]; exact hi.net.reads, hlater.allOrNothing hi.net.writes⟩
  have hsent (hi : Intact c w) : ∃ sent, net.sent = w.net.sent ++ sent ∧ ∀ p ∈ sent, p.Proper := by
    refine ⟨_, hsend, fun p hp => ?_⟩
    split at hp
    · cases hp
    · obtain rfl := List.mem_singleton.mp hp
      have hlen : (c.sendbuf.take length).length = length := by
        rw [List.length_take, hi.buffers.sendbuf]
        exact Nat.min_eq_left (hlength hi)
      refine ⟨hlen.trans_le (hlength hi), ?_⟩
      rw [hlen]
      exact sendLoop_allOrNothing hi.net.writes length timer w.net.now
  cases ok with
  | true =>
      exact ⟨fun hi => ⟨⟨hi.buffers.sendbuf, hi.buffers.readbuf, hi.buffers.pubbuf,
        hi.buffers.inflightLen, hi.buffers.command_timeout_ms⟩, hnet hi⟩, hsent, Extends.refl _⟩
  | false => exact ⟨fun hi => ⟨hi.buffers, hnet hi⟩, hsent, Extends.refl _⟩

/-- A packet that fits is stored and sent. -/
theorem kept_stored {packet : List UInt8} (h : packet.length ≤ MAX_MQTT_PACKET_SIZE)
    (timer : Countdown) (c : Client H) (w : World σ) :
    Kept c w ((c.store packet).sendPacket packet.length timer w).client
      ((c.store packet).sendPacket packet.length timer w).world :=
  (kept_store h c w).trans (kept_sendPacket (fun _ => h) timer)

theorem kept_keepalive (c : Client H) (w : World σ) :
    Kept c w (c.keepalive w).1 (c.keepalive w).2 := by
  unfold Client.keepalive
  split
  · exact .refl c w
  · split
    · have hping : MQTTSerialize_pingreq MAX_MQTT_PACKET_SIZE = some pingreqPacket := rfl
      simp only [hping]
      have hkept := kept_stored (show pingreqPacket.length ≤ MAX_MQTT_PACKET_SIZE by decide)
        (.countdown_ms w.net.now 1000) c w
      split
      · exact hkept.trans (.of_same _ rfl rfl rfl rfl rfl rfl)
      · exact hkept
    · exact .refl c w

theorem Net.read_sent (len : ℕ) (timer : Countdown) (net : Net) :
    (net.read len timer).2.sent = net.sent := by
  unfold Net.read
  split <;> rfl

theorem decodePacket_sent (timer : Countdown) (k : ℕ) : ∀ (value multiplier : ℕ) (net : Net),
    (Client.decodePacket timer k value multiplier net).2.sent = net.sent := by
  induction k with
  | zero => exact fun value multiplier net => rfl
  | succ k ih =>
      intro value multiplier net
      have hread := Net.read_sent 1 timer net
      unfold Client.decodePacket
      generalize net.read 1 timer = s at hread ⊢
      split
      · dsimp only
        split
        · rw [ih]
          exact hread
        · exact hread
      · exact hread

theorem overwrite_length (buf data : List UInt8) {off : ℕ} (h : off ≤ buf.length) :
    (overwrite buf off data).length = max buf.length (off + data.length) := by
  rw [overwrite, List.length_append, List.length_append, List.length_take, List.length_drop]
  omega

/-- Nothing keeps `readPacket` from storing behind the end of the buffer. -/
theorem readPacket_readbuf_length (timer : Countdown) (c : Client H) (net : Net) :
    (c.readPacket timer net).2.1.readbuf.length =
      max c.readbuf.length (Client.storedBytes timer net) := by
  unfold Client.readPacket Client.storedBytes
  generalize net.read 1 timer = s
  obtain ⟨head, net₁⟩ := s
  match head with
  | none | some [] | some (_ :: _ :: _) => exact (max_eq_left (Nat.zero_le _)).symm
  | some [b] =>
      dsimp only
      generalize Client.decodePacket timer 4 0 1 net₁ = s
      obtain ⟨rem_len, net₂⟩ := s
      have hhead : (overwrite c.readbuf 0 (b :: MQTTPacket_encode rem_len)).length =
          max c.readbuf.length (1 + (MQTTPacket_encode rem_len).length) := by
        rw [overwrite_length _ _ (Nat.zero_le _), List.length_cons]
        omega
      have hrest (data : List UInt8) : (overwrite (overwrite c.readbuf 0
          (b :: MQTTPacket_encode rem_len)) (b :: MQTTPacket_encode rem_len).length data).length =
          max c.readbuf.length (1 + (MQTTPacket_encode rem_len).length + data.length) := by
        have hcons : (b :: MQTTPacket_encode rem_len).length =
          1 + (MQTTPacket_encode rem_len).length := by rw [List.length_cons, Nat.add_comm]
        rw [overwrite_length _ _ (by rw [hhead, hcons]; exact le_max_right _ _), hhead, hcons]
        omega
      dsimp only
      by_cases hrem : 0 < rem_len
      · simp only [if_pos hrem]
        generalize net₂.read rem_len timer = s
        obtain ⟨data, net₃⟩ := s
        cases data with
        | none => exact hhead
        | some data =>
            dsimp only
            split
            · exact hrest data
            · exact hrest data
      · simp only [if_neg hrem]
        exact hhead

theorem SoundReads.readPacket {net : Net} (h : SoundReads H net.reads) (c : Client H)
    (timer : Countdown) : c.ReadsSoundly timer net ∧
      SoundReads H (c.readPacket timer net).2.2.reads := by
  generalize hreads : net.reads = reads at h
  cases h with
  | nil =>
      have hnone : net.read 1 timer = (none,
          { net with now := max net.now (timer.start + timer.interval_end_ms) }) := by
        simp only [Net.read, hreads]
      refine ⟨⟨?_, ?_⟩, ?_⟩
      · simp [Client.storedBytes, hnone]
      · simp [Client.readPacket, hnone, FAILURE, PUBLISH]
      · simp only [Client.readPacket, hnone, hreads]
        exact .nil
  | packet hsound hrest => exact ⟨hsound c timer net hreads, hrest c timer net hreads⟩

/-- A stream of packets is sound. -/
theorem soundReads_stream (stream : List Arrival) :
    SoundReads H (stream.flatMap Arrival.reads) := by
  induction stream with
  | nil => exact .nil
  | cons a stream ih =>
      rw [List.flatMap_cons]
      refine .packet (fun c timer net h => ⟨?_, fun htype hrc => ?_⟩) fun c timer net h => ?_
      · have hlength := readPacket_readbuf_length timer { c with readbuf := [] } net
        rw [readPacket_arrival timer h] at hlength
        have hpacket :
            (a.incoming.packet ++ ([] : List UInt8).drop a.incoming.packet.length).length =
              max ([] : List UInt8).length (Client.storedBytes timer net) := hlength
        rw [List.drop_nil, List.append_nil, List.length_nil, Nat.zero_max,
          Incoming.packet_length] at hpacket
        exact hpacket ▸ a.incoming.body_length_le
      · rw [readPacket_arrival timer h] at htype ⊢
        cases ha : a.incoming with
        | publish p =>
            obtain ⟨tail, htail⟩ := (p.seenAs (c.readbuf.drop a.incoming.packet.length)).2.topic
            rw [← ha] at htail
            change (arrivedData (a.incoming.packet ++ _)).topicName.lenstring.data ≠ none
            rw [htail]
            exact Option.some_ne_none _
        | other header body hne fits =>
            rw [ha] at htype
            exact absurd (Int.ofNat.inj htype) hne
      · rw [readPacket_arrival timer h]
        exact ih

/-- Reading a packet changes the read buffer and a timer and sends nothing. -/
theorem readPacket_frame (timer : Countdown) (c : Client H) (net : Net) :
    (∃ readbuf last_received, (c.readPacket timer net).2.1 =
      { c with readbuf := readbuf, last_received := last_received }) ∧
      (c.readPacket timer net).2.2.sent = net.sent := by
  have hread := Net.read_sent 1 timer net
  unfold Client.readPacket
  generalize net.read 1 timer = s at hread ⊢
  split
  · rename_i b net₁
    have hdecode := decodePacket_sent timer 4 0 1 net₁
    generalize Client.decodePacket timer 4 0 1 net₁ = s at hdecode ⊢
    obtain ⟨rem_len, net₂⟩ := s
    have hsent : net₂.sent = net.sent := Eq.trans hdecode hread
    dsimp only
    by_cases hrem : 0 < rem_len
    · simp only [if_pos hrem]
      have hbody := Net.read_sent rem_len timer net₂
      generalize net₂.read rem_len timer = s at hbody ⊢
      obtain ⟨data, net₃⟩ := s
      have hsent' : net₃.sent = net.sent := Eq.trans hbody hsent
      cases data with
      | none => exact ⟨⟨_, _, rfl⟩, hsent'⟩
      | some data =>
          dsimp only
          split
          · exact ⟨⟨_, _, rfl⟩, hsent'⟩
          · exact ⟨⟨_, _, rfl⟩, hsent'⟩
    · simp only [if_neg hrem]
      exact ⟨⟨_, _, rfl⟩, hsent⟩
  · exact ⟨⟨_, _, rfl⟩, hread⟩

theorem acknowledge_length {qos id : ℕ} {packet : List UInt8}
    (h : Client.acknowledge qos id = some packet) : packet.length ≤ MAX_MQTT_PACKET_SIZE := by
  have hack (type : ℕ) (hs : MQTTSerialize_ack MAX_MQTT_PACKET_SIZE type 0 id = some packet) :
      packet.length ≤ MAX_MQTT_PACKET_SIZE := by
    simp only [MQTTSerialize_ack, MAX_MQTT_PACKET_SIZE, Option.some.injEq,
      show ¬ 100 < 4 by decide, if_false] at hs
    rw [← hs]
    exact show 4 ≤ 100 by decide
  unfold Client.acknowledge at h
  split at h
  · exact hack _ h
  · split at h
    · exact hack _ h
    · cases h

theorem kept_readPacket (timer : Countdown) (c : Client H) (w : World σ) (a : σ) :
    Kept c w (c.readPacket timer w.net).2.1 ⟨(c.readPacket timer w.net).2.2, a⟩ := by
  obtain ⟨⟨readbuf, last_received, hclient⟩, hsent⟩ := readPacket_frame timer c w.net
  obtain ⟨-, hlater, -⟩ := readPacket_spec timer c w.net
  have hlength := readPacket_readbuf_length timer c w.net
  refine ⟨fun hi => ⟨⟨?_, ?_, ?_, ?_, ?_⟩, ?_, ?_⟩, fun _ => ⟨[], ?_, by simp⟩, ?_⟩
  · rw [hclient]
    exact hi.buffers.sendbuf
  · rw [hlength, hi.buffers.readbuf]
    exact max_eq_left (hi.net.reads.readPacket c timer).1.fits
  · rw [hclient]
    exact hi.buffers.pubbuf
  · rw [hclient]
    exact hi.buffers.inflightLen
  · rw [hclient]
    exact hi.buffers.command_timeout_ms
  · exact (hi.net.reads.readPacket c timer).2
  · exact hlater.allOrNothing hi.net.writes
  · rw [List.append_nil]
    exact hsent
  · rw [hclient]
    exact Extends.refl _

theorem kept_cycle (timer : Countdown) (c : Client H) (w : World σ) :
    Kept c w (c.cycle call timer w).client (c.cycle call timer w).world := by
  have hread := kept_readPacket timer c w
  unfold Client.cycle
  generalize c.readPacket timer w.net = s at hread ⊢
  obtain ⟨t, c₁, net⟩ := s
  have hend (packet_type : ℤ) (c₂ : Client H) (w₂ : World σ) (h : Kept c w c₂ w₂) :
      Kept c w (Client.cycleEnd packet_type c₂ w₂).client
        (Client.cycleEnd packet_type c₂ w₂).world :=
    h.trans (kept_keepalive c₂ w₂)
  dsimp only at hread ⊢
  generalize (if t < 0 then (65535 : ℤ) else t) = packet_type
  by_cases hpub : packet_type = PUBLISH
  · simp only [if_pos hpub]
    generalize MQTTDeserialize_publish c₁.readbuf = f
    by_cases hrc : f.rc ≠ 1
    · simp only [if_pos hrc]
      exact hread _
    · simp only [if_neg hrc]
      by_cases hqos : f.message.qos = 0
      · simp only [if_pos hqos]
        exact hend _ _ _ (hread _)
      · simp only [if_neg hqos]
        cases hack : Client.acknowledge f.message.qos f.message.id with
        | none => exact hread _
        | some packet =>
            dsimp only
            have hstored := (hread _).trans (kept_stored (acknowledge_length hack) timer c₁
              ⟨net, (c₁.deliverMessage call f.topicName f.message w.app).2⟩)
            split
            · exact hstored
            · exact hend _ _ _ hstored
  · simp only [if_neg hpub]
    split
    · exact hend _ _ _ ((hread w.app).trans (.of_same _ rfl rfl rfl rfl rfl rfl))
    · exact hend _ _ _ (hread w.app)

end

/-! ### The sizes of packets -/

/-- A string that is given in one way only. -/
def MQTTString.Single (s : MQTTString) : Prop := s.cstring = none ∨ s.lenstring.len = 0

/-- Options of a version the client knows, with every string given in one way. -/
structure ProperOptions (options : MQTTPacket_connectData) : Prop where
  version : options.MQTTVersion = 3 ∨ options.MQTTVersion = 4
  clientID : options.clientID.Single
  willTopic : options.will.topicName.Single
  willMessage : options.will.message.Single
  username : options.username.Single
  password : options.password.Single

section
variable {H σ : Type} (call : H → MessageData → σ → σ)

/-- The options of `connect` are proper, and a timeout is one that a timer can tell. -/
def Operation.Proper : Operation H → Prop
  | connect options => ProperOptions options
  | yield timeout_ms => timeout_ms ≤ 2147483
  | _ => True

/-- An operation of the application, as a step of client and world. -/
def Operates (s : Client H × World σ) (op : Operation H) (t : Client H × World σ) : Prop :=
  op.run call s.1 s.2 = ⟨(op.run call s.1 s.2).rc, t.1, t.2⟩

variable (call : H → MessageData → σ → σ)

/-- What follows the read in a turn leaves the read buffer alone. -/
theorem cycle_readbuf (timer : Countdown) (c : Client H) (w : World σ) :
    (c.cycle call timer w).client.readbuf = (c.readPacket timer w.net).2.1.readbuf := by
  unfold Client.cycle
  generalize c.readPacket timer w.net = s
  obtain ⟨t, c₁, net⟩ := s
  have hend (packet_type : ℤ) (c₂ : Client H) (w₂ : World σ) :
      (Client.cycleEnd packet_type c₂ w₂).client.readbuf = c₂.readbuf :=
    (cycleEnd_spec packet_type c₂ w₂).2.2.1
  dsimp only
  generalize (if t < 0 then (65535 : ℤ) else t) = packet_type
  by_cases hpub : packet_type = PUBLISH
  · simp only [if_pos hpub]
    split
    · rfl
    · split
      · exact hend _ _ _
      · cases Client.acknowledge (MQTTDeserialize_publish c₁.readbuf).message.qos
            (MQTTDeserialize_publish c₁.readbuf).message.id with
        | none => rfl
        | some packet =>
            have hsend (w₂ : World σ) :
                ((c₁.store packet).sendPacket packet.length timer w₂).client.readbuf = c₁.readbuf :=
              (sendPacket_spec packet.length timer (c₁.store packet) w₂).2.1
            dsimp only
            split
            · exact hsend _
            · exact (hend _ _ _).trans (hsend _)
  · simp only [if_neg hpub]
    split
    · exact hend _ _ _
    · exact hend _ _ _

/-- A turn of the client, labelled with its timer. -/
def ClientTurn (s : Client H × World σ) (timer : Countdown) (t : Client H × World σ) : Prop :=
  t = ((s.1.cycle call timer s.2).client, (s.1.cycle call timer s.2).world)

theorem ClientTurn.readbuf_length {s t : Client H × World σ} {timer : Countdown}
    (h : ClientTurn call s timer t) :
    t.1.readbuf.length = max s.1.readbuf.length (Client.storedBytes timer s.2.net) := by
  rw [h, cycle_readbuf, readPacket_readbuf_length]

/-- A yield is a run of turns. -/
theorem yield_turns (timeout_ms : ℕ) (c : Client H) (w : World σ) :
    ∃ tr, Run (ClientTurn call) (c, w) tr
      ((c.yield call timeout_ms w).client, (c.yield call timeout_ms w).world) := by
  apply yieldLoop_invariant call (I := fun c' w' => ∃ tr, Run (ClientTurn call) (c, w) tr (c', w'))
  · exact fun _ _ ⟨_, hrun⟩ => ⟨_, hrun.append (.single rfl)⟩
  · exact ⟨[], .nil _⟩

/-- And so is waiting for a packet. -/
theorem waitfor_turns (packet_type : ℕ) (timer : Countdown) (c : Client H) (w : World σ) :
    ∃ tr, Run (ClientTurn call) (c, w) tr ((c.waitfor call packet_type timer w).client,
      (c.waitfor call packet_type timer w).world) := by
  apply waitforLoop_invariant call
    (I := fun c' w' => ∃ tr, Run (ClientTurn call) (c, w) tr (c', w'))
  · exact fun _ _ ⟨_, hrun⟩ => ⟨_, hrun.append (.single rfl)⟩
  · exact ⟨[], .nil _⟩

/-- Over any run of turns the read buffer keeps its size exactly if every packet that is read, its
header and length included, fits. -/
theorem readbuf_intact_iff {s t : Client H × World σ}
    {tr : List ((Client H × World σ) × Countdown)} (hrun : Run (ClientTurn call) s tr t)
    (hs : s.1.readbuf.length = MAX_MQTT_PACKET_SIZE) :
    t.1.readbuf.length = MAX_MQTT_PACKET_SIZE ↔
      ∀ p ∈ tr, Client.storedBytes p.2 p.1.2.net ≤ MAX_MQTT_PACKET_SIZE := by
  have hle (n : ℕ) := hrun.highWater_le_iff (f := fun s => s.1.readbuf.length)
    (g := fun s timer => Client.storedBytes timer s.2.net)
    (fun _ _ _ => ClientTurn.readbuf_length call) n
  have hge := ((hle t.1.readbuf.length).mp le_rfl).1
  rw [le_antisymm_iff, hle, and_iff_left (hs ▸ hge), and_iff_right hs.le]

end

/-! ### A long packet -/

/-- A PINGRESP comes in, then a PUBLISH of 122 bytes. -/
def longArrival : World ℕ :=
  ⟨⟨0, [], [⟨some [208], 1⟩, ⟨some [0], 1⟩, ⟨some [48], 1⟩, ⟨some [120], 1⟩,
    ⟨some (List.replicate 120 0), 1⟩], []⟩, 0⟩

def longTimer : Countdown := .countdown_ms 0 1000

/-- The state behind a turn. -/
def behindTurn (s : Client Unit × World ℕ) : Client Unit × World ℕ :=
  ((s.1.cycle countMessages longTimer s.2).client, (s.1.cycle countMessages longTimer s.2).world)

theorem readbuf_intact_iff_long :
    ((behindTurn (behindTurn (listener, longArrival))).1.readbuf.length = MAX_MQTT_PACKET_SIZE ↔
      ∀ p ∈ [((listener, longArrival), longTimer), (behindTurn (listener, longArrival), longTimer)],
        Client.storedBytes p.2 p.1.2.net ≤ MAX_MQTT_PACKET_SIZE) ∧
      Client.storedBytes longTimer longArrival.net = 2 ∧
      Client.storedBytes longTimer (behindTurn (listener, longArrival)).2.net = 122 :=
  ⟨readbuf_intact_iff countMessages
    (.cons (s := (listener, longArrival)) rfl
      (.single (s := behindTurn (listener, longArrival)) rfl))
    (by decide), by decide, by decide⟩

/-! ### A short session -/

/-- The state an operation leaves behind. -/
def Operation.after (op : Operation Unit) (s : Client Unit × World ℕ) : Client Unit × World ℕ :=
  ((op.run countMessages s.1 s.2).client, (op.run countMessages s.1 s.2).world)

def listening : Client Unit × World ℕ := (listener, twoArrivalsWorld)

theorem listening_intact : Intact listening.1 listening.2 where
  buffers := ⟨by decide, by decide, by decide, by decide, by decide⟩
  net := ⟨soundReads_stream twoArrivals, by simp [Net.AllOrNothing, listening, twoArrivalsWorld]⟩

end RemotusHardware
