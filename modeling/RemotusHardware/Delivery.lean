import RemotusHardware.Dispatch

/-! # Which outputs an incoming packet reaches

`MQTTDeserialize_publish` leaves a pointer into the read buffer as the topic of a message and
`deliverMessage` hands it to every slot that matches.  The outputs reached are those whose topic
begins the bytes from that pointer on: the topic of the message, then the packet identifier, the
payload and whatever older bytes are left in the buffer.  So they are the outputs configured on
the topic of the message exactly if no other configured topic begins these bytes.

That is so of a packet that fits the read buffer.  `readPacket` does not look how long the packet
is, and stores one that does not fit over the rest of the client (`receivePublish`). -/

namespace RemotusHardware

open CLib

/-! ### Outputs of a configuration -/

/-- The entries at index `rc` are those of an output. -/
structure IsOutput (G : Globals) (rc : ℕ) (topic : CString) (pin : PinName) : Prop where
  type : G.typesObjects[rc]? = some (some (.lit "dOut"))
  topic : G.topicsMQTT[rc]? = some (some topic)
  object : G.objectsSensors[rc]? = some (some (.DigitalOut pin))

theorem Sensor.object_dOut {s : Sensor} (h : s.kind = .dOut) :
    s.object = .DigitalOut s.object.pin := by
  have hc : s.object.cls = .DigitalOut := by rw [s.fits, h]; rfl
  cases ho : s.object <;> simp_all [SensorObject.cls, SensorObject.pin]

theorem Aligned.isOutput_iff {G : Globals} {ss : List Sensor} (h : Aligned G ss) {rc : ℕ}
    {topic : CString} {pin : PinName} : IsOutput G rc topic pin ↔
      ∃ s, ss[rc]? = some s ∧ s.kind = .dOut ∧ s.topic = topic ∧ s.object.pin = pin := by
  constructor
  · rintro ⟨htype, htopic, hobject⟩
    rw [h.typesObjects, List.getElem?_map, Option.map_eq_some_iff] at htype
    rw [h.topicsMQTT, List.getElem?_map, Option.map_eq_some_iff] at htopic
    rw [h.objectsSensors, List.getElem?_map, Option.map_eq_some_iff] at hobject
    obtain ⟨s, hs, hname⟩ := htype
    obtain ⟨s₁, hs₁, ht⟩ := htopic
    obtain ⟨s₂, hs₂, ho⟩ := hobject
    obtain rfl : s = s₁ := Option.some.inj (hs.symm.trans hs₁)
    obtain rfl : s = s₂ := Option.some.inj (hs.symm.trans hs₂)
    refine ⟨s, hs, SensorKind.name_injective (Option.some.inj hname), Option.some.inj ht, ?_⟩
    rw [Option.some.inj ho]
    rfl
  · rintro ⟨s, hs, hk, rfl, rfl⟩
    refine ⟨?_, ?_, ?_⟩
    · rw [h.typesObjects, List.getElem?_map, hs, Option.map_some, hk]; rfl
    · rw [h.topicsMQTT, List.getElem?_map, hs, Option.map_some]
    · rw [h.objectsSensors, List.getElem?_map, hs, Option.map_some, ← Sensor.object_dOut hk]

/-- The indices a message is taken to are those of the outputs whose topic begins `mem`. -/
theorem Aligned.index_reached {G : Globals} {ss : List Sensor} (h : Aligned G ss)
    {mem : List UInt8} {rc : ℕ} : rc ∈ (reached mem 0 ss).map (·.1) ↔
      ∃ t pin, IsOutput G rc t pin ∧ t.bytes <+: mem := by
  simp only [List.mem_map, Prod.exists, exists_and_right, exists_eq_right, mem_reached, zero_add,
    exists_eq_left', h.isOutput_iff]
  constructor
  · rintro ⟨s, hs, hk, hp⟩
    exact ⟨s.topic, ⟨s.object.pin, s, hs, hk, rfl, rfl⟩, hp⟩
  · rintro ⟨_, ⟨_, s, hs, hk, rfl, -⟩, hp⟩
    exact ⟨s, hs, hk, hp⟩

/-- And so are the pins written. -/
theorem Aligned.pin_reached {G : Globals} {ss : List Sensor} (h : Aligned G ss)
    {mem : List UInt8} {pin : PinName} : pin ∈ (reached mem 0 ss).map (·.2.object.pin) ↔
      ∃ rc t, IsOutput G rc t pin ∧ t.bytes <+: mem := by
  simp only [List.mem_map, Prod.exists, mem_reached, zero_add, exists_eq_left', h.isOutput_iff]
  constructor
  · rintro ⟨rc, s, ⟨hs, hk, hp⟩, rfl⟩
    exact ⟨rc, s.topic, ⟨s, hs, hk, rfl, rfl⟩, hp⟩
  · rintro ⟨rc, _, ⟨s, hs, hk, rfl, rfl⟩, hp⟩
    exact ⟨rc, s, ⟨hs, hk, hp⟩, rfl⟩

/-! ### Delivering a packet -/

/-- What exact dispatch asks of a delivery: the payload is taken to the outputs on the topic of
the message and to no others, their pins get the level it asks for, the pins of the other outputs
keep theirs, and one call of the handler would have left the same levels. -/
structure ExactDispatch (G : Globals) (md : MessageData) (topic : List UInt8)
    (before after : Outputs) : Prop where
  applied : ∀ rc, rc ∈ after.applied ↔ ∃ t pin, IsOutput G rc t pin ∧ t.bytes = topic
  written : ∀ rc t pin, IsOutput G rc t pin → t.bytes = topic →
    after.levels pin = (commandOf md.message.payload).getD (before.levels pin)
  unchanged : ∀ rc t pin, IsOutput G rc t pin →
    (∀ rc' t', IsOutput G rc' t' pin → t'.bytes ≠ topic) → after.levels pin = before.levels pin
  once : ∀ single, messageArrived G md before = .ok single → after.levels = single.levels

/-- The message of a PUBLISH packet at the start of the read buffer, as handlers see it. -/
def arrivedData (readbuf : List UInt8) : MessageData :=
  let f := MQTTDeserialize_publish readbuf
  ⟨f.message, f.topicName⟩

/-- A PUBLISH packet is read as a whole, with these older bytes behind it in the read buffer; what
does not fit is stored past its end. -/
def receivePublish (packet rest : List UInt8) : Except Stop MessageData :=
  if packet.length ≤ MAX_MQTT_PACKET_SIZE then .ok (arrivedData (packet ++ rest))
  else undefined .bufferOverflow

theorem receivePublish_ok_iff {packet rest : List UInt8} {md : MessageData} :
    receivePublish packet rest = .ok md ↔
      packet.length ≤ MAX_MQTT_PACKET_SIZE ∧ md = arrivedData (packet ++ rest) := by
  unfold receivePublish undefined
  split
  case isTrue h => simp [h, eq_comm]
  case isFalse h => simp [h]

section
variable {v : Value} {G : Globals} {dup qos retained packetid : ℕ}
  {topic payload rest : List UInt8}

theorem arrivedData_publishPacket (hdup : dup < 2) (hqos : qos ≤ 2) (hret : retained < 2)
    (hid : packetid < 65536) (htopic : topic.length < 65536) (rest : List UInt8)
    (hlen : publishLength qos topic payload < 128 ^ 4) :
    (arrivedData (publishPacket dup qos retained packetid topic payload ++ rest)).topicName =
        ⟨none, ⟨topic.length, some (topic ++ (idBytes qos packetid ++ payload ++ rest))⟩⟩ ∧
      (arrivedData (publishPacket dup qos retained packetid topic payload ++ rest)).message.payload
        = payload ++ rest := by
  rw [arrivedData, MQTTDeserialize_publish_publishPacket hdup (by omega) hret hid htopic hlen]
  exact ⟨rfl, rfl⟩

/-- Delivery to at least one handler comes to what one call of it does. -/
theorem deliverMessage_eq {ss : List Sensor} (h : Aligned G ss) {md : MessageData}
    {c : Client Handler} (hmatch : ∃ slot ∈ c.messageHandlers, receives md slot) (o : Outputs) :
    ∃ after, c.deliverMessage (Handler.call G) md.topicName md.message (.ok o) =
        (SUCCESS, .ok after) ∧
      after.levels = (o.after md.message.payload
        (reached (md.topicName.lenstring.data.getD []) 0 ss)).levels ∧
      ∀ rc, rc ∈ after.applied ↔ rc ∈ (o.after md.message.payload
        (reached (md.topicName.lenstring.data.getD []) 0 ss)).applied := by
  have hany : c.messageHandlers.any (receives md) = true := List.any_eq_true.mpr hmatch
  obtain ⟨n, hn⟩ : ∃ n, c.messageHandlers.countP (receives md) = n + 1 := by
    have := List.countP_pos_iff.mpr hmatch
    exact ⟨_, (Nat.succ_pred_eq_of_pos this).symm⟩
  obtain ⟨hlevels, happlied⟩ := after_iterate md.message.payload
    (reached (md.topicName.lenstring.data.getD []) 0 ss) n o
  refine ⟨_, ?_, hlevels, happlied⟩
  have hloop := deliverLoop_eq h md c.messageHandlers FAILURE o
  rw [hany, if_pos rfl, hn] at hloop
  simp only [Client.deliverMessage, hloop]
  cases c.defaultMessageHandler <;> simp [SUCCESS, FAILURE]

/-- The payload of a PUBLISH packet is taken to the outputs on its topic and to no others exactly
if the packet fits the read buffer and no other output has a topic that begins the bytes from the
topic of the message on. -/
theorem deliverMessage_exact_iff (hv : parse v = .ok G) (hdup : dup < 2) (hqos : qos ≤ 2)
    (hret : retained < 2) (hid : packetid < 65536) (htopic : topic.length < 65536)
    (hlen : publishLength qos topic payload < 128 ^ 4) {md : MessageData}
    (hmd : md = arrivedData (publishPacket dup qos retained packetid topic payload ++ rest))
    {c : Client Handler} (hmatch : ∃ slot ∈ c.messageHandlers, receives md slot)
    {before : Outputs} (hbefore : before.applied = []) :
    (receivePublish (publishPacket dup qos retained packetid topic payload) rest = .ok md ∧
      ∃ after, c.deliverMessage (Handler.call G) md.topicName md.message (.ok before) =
        (SUCCESS, .ok after) ∧ ExactDispatch G md topic before after) ↔
      (publishPacket dup qos retained packetid topic payload).length ≤ MAX_MQTT_PACKET_SIZE ∧
        ∀ rc t pin, IsOutput G rc t pin →
          t.bytes <+: topic ++ (idBytes qos packetid ++ payload ++ rest) → t.bytes = topic := by
  rw [receivePublish_ok_iff, and_iff_left hmd]
  apply and_congr_right'
  obtain ⟨-, -, ss, -, -, hG⟩ := parse_ok hv
  obtain ⟨after, hrun, hlevels, happlied⟩ := deliverMessage_eq hG hmatch before
  have hmem : md.topicName.lenstring.data.getD [] =
      topic ++ (idBytes qos packetid ++ payload ++ rest) := by
    rw [hmd, (arrivedData_publishPacket hdup hqos hret hid htopic rest hlen).1]
    rfl
  rw [hmem] at hlevels happlied
  set mem := topic ++ (idBytes qos packetid ++ payload ++ rest) with hmemdef
  have hself : topic <+: mem := List.prefix_append _ _
  have hreach (rc : ℕ) : rc ∈ after.applied ↔ ∃ t pin, IsOutput G rc t pin ∧ t.bytes <+: mem := by
    rw [happlied, Outputs.after, hbefore, List.nil_append, hG.index_reached]
  constructor
  · rintro ⟨after', hrun', hexact⟩ rc t pin hout hp
    obtain rfl : after = after' := by
      rw [hrun] at hrun'
      injection hrun' with _ h
      injection h
    obtain ⟨t', pin', hout', ht'⟩ := (hexact.applied rc).mp ((hreach rc).mpr ⟨t, pin, hout, hp⟩)
    obtain rfl : t' = t := by
      have := hout'.topic.symm.trans hout.topic
      simpa using this
    exact ht'
  · intro hcond
    refine ⟨after, hrun, ⟨fun rc => ?_, fun rc t pin hout ht => ?_, fun rc t pin hout hne => ?_,
      fun single hs => ?_⟩⟩
    · rw [hreach]
      constructor
      · rintro ⟨t, pin, hout, hp⟩
        exact ⟨t, pin, hout, hcond rc t pin hout hp⟩
      · rintro ⟨t, pin, hout, rfl⟩
        exact ⟨t, pin, hout, hself⟩
    · have hin : pin ∈ (reached mem 0 ss).map (·.2.object.pin) :=
        hG.pin_reached.mpr ⟨rc, t, hout, ht ▸ hself⟩
      rw [hlevels]
      exact if_pos hin
    · have hnotin : pin ∉ (reached mem 0 ss).map (·.2.object.pin) := by
        intro hin
        obtain ⟨rc', t', hout', hp'⟩ := hG.pin_reached.mp hin
        exact hne rc' t' hout' (hcond rc' t' pin hout' hp')
      rw [hlevels]
      exact if_neg hnotin
    · rw [messageArrived_eq hG, hmem] at hs
      rw [hlevels, Except.ok.inj hs]

/-- Outputs on `lamp` and `lamp2`, both subscribed. -/
def lampGlobals : Globals := globalsOf [outputSensor "lamp" .p20, outputSensor "lamp2" .p21]

def lampClient : Client Handler :=
  .connected [⟨some (.lit "lamp"), some .messageArrived⟩,
    ⟨some (.lit "lamp2"), some .messageArrived⟩,
    ⟨none, none⟩, ⟨none, none⟩, ⟨none, none⟩]

/-- The packet of a message of QoS 0 with payload 1. -/
def lampPacket (topic : String) : List UInt8 := publishPacket 0 0 0 0 (ascii topic) (ascii "1")

/-- What is left in the read buffer behind it. -/
def lampRest : List UInt8 := List.replicate 90 0

def lampData (topic : String) : MessageData := arrivedData (lampPacket topic ++ lampRest)

theorem deliverMessage_exact_iff_lamp :
    (receivePublish (lampPacket "lamp") lampRest = .ok (lampData "lamp") ∧
      ∃ after, lampClient.deliverMessage (Handler.call lampGlobals) (lampData "lamp").topicName
        (lampData "lamp").message (.ok ⟨fun _ => false, []⟩) = (SUCCESS, .ok after) ∧
        ExactDispatch lampGlobals (lampData "lamp") (ascii "lamp") ⟨fun _ => false, []⟩ after) ↔
      (lampPacket "lamp").length ≤ MAX_MQTT_PACKET_SIZE ∧
        ∀ rc t pin, IsOutput lampGlobals rc t pin →
          t.bytes <+: ascii "lamp" ++ (idBytes 0 0 ++ ascii "1" ++ lampRest) →
            t.bytes = ascii "lamp" :=
  deliverMessage_exact_iff (v := config [element .dOut "lamp" 20, element .dOut "lamp2" 21]) rfl
    (by decide) (by decide) (by decide) (by decide) (by decide) (by decide) rfl
    ⟨_, List.mem_cons_self, by decide⟩ rfl

/-- A message for `lamp2` is taken to the output on `lamp` as well. -/
theorem lamp2_reaches_lamp :
    parse (config [element .dOut "lamp" 20, element .dOut "lamp2" 21]) = .ok lampGlobals ∧
    receivePublish (lampPacket "lamp2") lampRest = .ok (lampData "lamp2") ∧
    ¬ ∃ after, lampClient.deliverMessage (Handler.call lampGlobals) (lampData "lamp2").topicName
        (lampData "lamp2").message (.ok ⟨fun _ => false, []⟩) = (SUCCESS, .ok after) ∧
        ExactDispatch lampGlobals (lampData "lamp2") (ascii "lamp2")
          ⟨fun _ => false, []⟩ after := by
  refine ⟨rfl, receivePublish_ok_iff.mpr ⟨by decide, rfl⟩, ?_⟩
  rintro ⟨after, hrun, hexact⟩
  have hafter : after.applied = [0, 1] := by
    injection hrun with _ h
    rw [← Except.ok.inj h]
    decide
  obtain ⟨t, pin, hout, ht⟩ := (hexact.applied 0).mp (by simp [hafter])
  obtain rfl : CString.lit "lamp" = t := by
    have := hout.topic
    simpa [lampGlobals, globalsOf, outputSensor] using this
  exact absurd ht (by decide)

end

end RemotusHardware
