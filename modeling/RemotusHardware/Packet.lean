import RemotusHardware.Base.CString
import RemotusHardware.Base.Wire

/-! # MQTT packets

The functions of `MQTTPacket/`.  A serializer gives the bytes it stores from `buf` on, or
`none` where it returns `MQTTPACKET_BUFFER_TOO_SHORT` and stores nothing; the number it
returns otherwise is the number of these bytes.  A deserializer reads from a `Cursor`: the
bytes from `curdata` on (they do not end with the packet, older bytes of the buffer follow)
and the distance `enddata - curdata`.

`publishPacket` is the format of a PUBLISH packet.  `MQTTSerialize_publish` produces it
(`MQTTSerialize_publish_eq`) and `MQTTDeserialize_publish` takes it apart again, whatever
bytes follow it in the buffer (`MQTTDeserialize_publish_publishPacket`). -/

namespace RemotusHardware

open CLib Wire

/-! ### Strings, lengths and headers -/

/-- A length-delimited string; `data` is `none` for a null or unset pointer. -/
structure MQTTLenString where
  len : ℕ
  data : Option (List UInt8)
deriving DecidableEq, Repr

structure MQTTString where
  cstring : Option CString
  lenstring : MQTTLenString
deriving DecidableEq, Repr

def MQTTString_initializer : MQTTString := ⟨none, ⟨0, none⟩⟩

/-- `{(char*)s, 0, 0}` -/
def MQTTString.ofCString (s : CString) : MQTTString := ⟨some s, ⟨0, none⟩⟩

def MQTTstrlen (mqttstring : MQTTString) : ℕ :=
  match mqttstring.cstring with
  | some s => strlen s
  | none => mqttstring.lenstring.len

/-- `MQTTPacket_encode`; an `int` has at most five groups. -/
def MQTTPacket_encode (length : ℕ) : List UInt8 := putGroups 5 length

/-- `MQTTPacket_decodeBuf`: the number of bytes counted and the value. -/
def MQTTPacket_decodeBuf (mem : List UInt8) : ℕ × ℕ := getGroups 4 0 0 1 mem

def MQTTPacket_len (rem_len : ℕ) : ℕ :=
  let rem_len := rem_len + 1
  if rem_len < 128 then rem_len + 1
  else if rem_len < 16384 then rem_len + 2
  else if rem_len < 2097151 then rem_len + 3
  else rem_len + 4

/-- `MQTTHeader`, put together from its bit fields. -/
def headerByte (type dup qos retain : ℕ) : UInt8 :=
  UInt8.ofNat (type % 16 * 16 + dup % 2 * 8 + qos % 4 * 2 + retain % 2)

def headerType (byte : UInt8) : ℕ := byte.toNat / 16
def headerDup (byte : UInt8) : ℕ := byte.toNat / 8 % 2
def headerQos (byte : UInt8) : ℕ := byte.toNat / 2 % 4
def headerRetain (byte : UInt8) : ℕ := byte.toNat % 2

def CONNECT : ℕ := 1
def CONNACK : ℕ := 2
def PUBLISH : ℕ := 3
def PUBACK : ℕ := 4
def PUBREC : ℕ := 5
def SUBSCRIBE : ℕ := 8
def SUBACK : ℕ := 9
def PINGREQ : ℕ := 12
def PINGRESP : ℕ := 13

/-! ### Writing -/

def writeCString (string : CString) : List UInt8 := putWord (strlen string) ++ string.bytes

def writeMQTTString (mqttstring : MQTTString) : List UInt8 :=
  if 0 < mqttstring.lenstring.len then
    putWord mqttstring.lenstring.len ++
      (mqttstring.lenstring.data.getD []).take mqttstring.lenstring.len
  else match mqttstring.cstring with
    | some s => writeCString s
    | none => putWord 0

def MQTTSerialize_publishLength (qos : ℕ) (topicName : MQTTString) (payloadlen : ℕ) : ℕ :=
  2 + MQTTstrlen topicName + payloadlen + if 0 < qos then 2 else 0

def MQTTSerialize_publish (buflen dup qos retained packetid : ℕ) (topicName : MQTTString)
    (payload : List UInt8) (payloadlen : ℕ) : Option (List UInt8) :=
  let rem_len := MQTTSerialize_publishLength qos topicName payloadlen
  if buflen < MQTTPacket_len rem_len then none
  else some (headerByte PUBLISH dup qos retained :: (MQTTPacket_encode rem_len ++
    writeMQTTString topicName ++ (if 0 < qos then putWord packetid else []) ++
    payload.take payloadlen))

def MQTTSerialize_ack (buflen packettype dup packetid : ℕ) : Option (List UInt8) :=
  if buflen < 4 then none
  else some (headerByte packettype dup 0 0 :: (MQTTPacket_encode 2 ++ putWord packetid))

def MQTTSerialize_zero (buflen packettype : ℕ) : Option (List UInt8) :=
  if buflen < 2 then none else some (headerByte packettype 0 0 0 :: MQTTPacket_encode 0)

def MQTTSerialize_pingreq (buflen : ℕ) : Option (List UInt8) := MQTTSerialize_zero buflen PINGREQ

def MQTTSerialize_subscribeLength (topicFilters : List MQTTString) : ℕ :=
  2 + (topicFilters.map fun t => 2 + MQTTstrlen t + 1).sum

/-- `MQTTSerialize_subscribe`; each filter comes with the QoS requested for it. -/
def MQTTSerialize_subscribe (buflen dup packetid : ℕ) (topicFilters : List (MQTTString × ℕ)) :
    Option (List UInt8) :=
  let rem_len := MQTTSerialize_subscribeLength (topicFilters.map (·.1))
  if buflen < MQTTPacket_len rem_len then none
  else some (headerByte SUBSCRIBE dup 1 0 :: (MQTTPacket_encode rem_len ++ putWord packetid ++
    topicFilters.flatMap fun t => writeMQTTString t.1 ++ [UInt8.ofNat t.2]))

/-! ### Reading -/

/-- `curdata`, with the distance to `enddata`. -/
structure Cursor where
  mem : List UInt8
  left : ℤ

/-- Moving `curdata` forward. -/
def Cursor.advance (c : Cursor) (n : ℕ) : Cursor := ⟨c.mem.drop n, c.left - n⟩

def readChar (c : Cursor) : UInt8 × Cursor := (c.mem.headD 0, c.advance 1)

def readInt (c : Cursor) : ℕ × Cursor := (getWord c.mem, c.advance 2)

/-- `readMQTTLenString`: whether it succeeded, the string, where `curdata` is left. -/
def readMQTTLenString (mqttstring : MQTTString) (c : Cursor) : Bool × MQTTString × Cursor :=
  if 1 < c.left then
    let (len, c) := readInt c
    if (len : ℤ) ≤ c.left then (true, ⟨none, ⟨len, some c.mem⟩⟩, c.advance len)
    else (false, ⟨none, ⟨len, mqttstring.lenstring.data⟩⟩, c)
  else (false, ⟨none, mqttstring.lenstring⟩, c)

/-- What `MQTTDeserialize_publish` returns and stores through its arguments. -/
structure PublishFields where
  rc : ℤ
  dup : ℕ
  qos : ℕ
  retained : ℕ
  packetid : Option ℕ
  topicName : MQTTString
  payload : Option (List UInt8)
  payloadlen : ℤ

/-- On the early exit `rc` still holds the number of length bytes. -/
def MQTTDeserialize_publish (buf : List UInt8) : PublishFields :=
  let header := buf.headD 0
  if headerType header ≠ PUBLISH then ⟨0, 0, 0, 0, none, MQTTString_initializer, none, 0⟩
  else
    let dup := headerDup header
    let qos := headerQos header
    let retained := headerRetain header
    let (n, mylen) := MQTTPacket_decodeBuf buf.tail
    let c : Cursor := ⟨buf.tail.drop n, mylen⟩
    let (ok, topicName, c) := readMQTTLenString MQTTString_initializer c
    if !ok || decide (c.left < 0) then ⟨n, dup, qos, retained, none, topicName, none, 0⟩
    else
      let (packetid, c) := if 0 < qos then ((some (readInt c).1), (readInt c).2) else (none, c)
      ⟨1, dup, qos, retained, packetid, topicName, some c.mem, c.left⟩

/-- What `MQTTDeserialize_suback` returns and stores through its arguments. -/
structure SubackFields where
  rc : ℤ
  packetid : ℕ
  grantedQoSs : List ℕ

/-- The loop over the granted QoS, `left` bytes before `enddata`. -/
def readGranted (maxcount : ℕ) : ℕ → List UInt8 → List ℕ → Bool × List ℕ
  | 0, _, granted => (true, granted)
  | left + 1, mem, granted =>
      if maxcount < granted.length then (false, granted)
      else readGranted maxcount left mem.tail (granted ++ [(mem.headD 0).toNat])

def MQTTDeserialize_suback (maxcount : ℕ) (buf : List UInt8) : SubackFields :=
  if headerType (buf.headD 0) ≠ SUBACK then ⟨0, 0, []⟩
  else
    let (n, mylen) := MQTTPacket_decodeBuf buf.tail
    let mem := buf.tail.drop n
    if mylen < 2 then ⟨n, 0, []⟩
    else
      let (ok, granted) := readGranted maxcount (mylen - 2) (mem.drop 2) []
      ⟨if ok then 1 else -1, getWord mem, granted⟩

/-- `MQTTDeserialize_ack`: its return value and the packet identifier, if it is stored. -/
def MQTTDeserialize_ack (buf : List UInt8) : ℤ × Option ℕ :=
  let (n, mylen) := MQTTPacket_decodeBuf buf.tail
  if mylen < 2 then (n, none) else (1, some (getWord (buf.tail.drop n)))

/-- `MQTTDeserialize_connack`: its return value and the connack return code. -/
def MQTTDeserialize_connack (buf : List UInt8) : ℤ × ℕ :=
  if headerType (buf.headD 0) ≠ CONNACK then (0, 255)
  else
    let (n, mylen) := MQTTPacket_decodeBuf buf.tail
    let mem := buf.tail.drop n
    if mylen < 2 then (n, 255) else (1, (mem.tail.headD 0).toNat)

/-- `MQTTPacket_equals`. -/
def MQTTPacket_equals (a : MQTTString) (b : CString) : Bool :=
  let (aptr, alen) : List UInt8 × ℕ := match a.cstring with
    | some s => (s.bytes, strlen s)
    | none => (a.lenstring.data.getD [], a.lenstring.len)
  let blen := strlen b
  decide (alen = blen) && decide (strncmp aptr b.bytes alen = 0)

/-! ### Headers and strings read back -/

theorem headerType_headerByte {type : ℕ} (h : type < 16) (dup qos retain : ℕ) :
    headerType (headerByte type dup qos retain) = type := by
  simp [headerType, headerByte]
  omega

theorem headerDup_headerByte (type : ℕ) {dup : ℕ} (h : dup < 2) (qos retain : ℕ) :
    headerDup (headerByte type dup qos retain) = dup := by
  simp [headerDup, headerByte]
  omega

theorem headerQos_headerByte (type dup : ℕ) {qos : ℕ} (h : qos < 4) (retain : ℕ) :
    headerQos (headerByte type dup qos retain) = qos := by
  simp [headerQos, headerByte]
  omega

theorem headerRetain_headerByte (type dup qos : ℕ) {retain : ℕ} (h : retain < 2) :
    headerRetain (headerByte type dup qos retain) = retain := by
  simp [headerRetain, headerByte]
  omega

theorem decodeBuf_encode_append {n : ℕ} (h : n < 128 ^ 4) (rest : List UInt8) :
    MQTTPacket_decodeBuf (MQTTPacket_encode n ++ rest) = ((MQTTPacket_encode n).length, n) := by
  rw [MQTTPacket_decodeBuf, MQTTPacket_encode, getGroups_putGroups 5 4 n 0 0 1 rest h (by norm_num)
    (by norm_num)]
  simp

theorem writeMQTTString_ofCString (s : CString) :
    writeMQTTString (.ofCString s) = putWord (strlen s) ++ s.bytes := rfl

theorem MQTTstrlen_ofCString (s : CString) : MQTTstrlen (.ofCString s) = strlen s := rfl

/-- A string written in front of the bytes `rest` is read back, and `curdata` left at `rest`. -/
theorem readMQTTLenString_append {data : List UInt8} (h : data.length < 65536) (rest : List UInt8)
    {left : ℤ} (hleft : (data.length : ℤ) + 2 ≤ left) (old : MQTTString) :
    readMQTTLenString old ⟨putWord data.length ++ data ++ rest, left⟩ =
      (true, ⟨none, ⟨data.length, some (data ++ rest)⟩⟩, ⟨rest, left - 2 - data.length⟩) := by
  have h1 : 1 < left := by omega
  have h2 : (data.length : ℤ) ≤ left - 2 := by omega
  have hw : getWord (putWord data.length ++ (data ++ rest)) = data.length :=
    getWord_putWord_append h _
  simp [readMQTTLenString, readInt, Cursor.advance, h1, h2, List.append_assoc, hw,
    drop_putWord_append]

/-! ### The format of a PUBLISH packet -/

/-- The packet identifier, which a PUBLISH of QoS 0 leaves out. -/
def idBytes (qos packetid : ℕ) : List UInt8 := if 0 < qos then putWord packetid else []

/-- The remaining length of a PUBLISH packet. -/
def publishLength (qos : ℕ) (topic payload : List UInt8) : ℕ :=
  2 + topic.length + payload.length + if 0 < qos then 2 else 0

/-- A PUBLISH packet. -/
def publishPacket (dup qos retained packetid : ℕ) (topic payload : List UInt8) : List UInt8 :=
  headerByte PUBLISH dup qos retained :: (MQTTPacket_encode (publishLength qos topic payload) ++
    (putWord topic.length ++ topic ++ (idBytes qos packetid ++ payload)))

theorem publishLength_lt (dup qos retained packetid : ℕ) (topic payload : List UInt8) :
    publishLength qos topic payload <
      (publishPacket dup qos retained packetid topic payload).length := by
  by_cases hq : 0 < qos
  · simp [publishPacket, publishLength, idBytes, hq]
    omega
  · simp [publishPacket, publishLength, idBytes, hq]
    omega

theorem MQTTSerialize_publish_eq {buflen dup qos retained packetid : ℕ} {topic : CString}
    {payload : List UInt8} :
    MQTTSerialize_publish buflen dup qos retained packetid (.ofCString topic) payload
        payload.length =
      if buflen < MQTTPacket_len (publishLength qos topic.bytes payload) then none
      else some (publishPacket dup qos retained packetid topic.bytes payload) := by
  have hlen : MQTTSerialize_publishLength qos (.ofCString topic) payload.length =
      publishLength qos topic.bytes payload := rfl
  simp only [MQTTSerialize_publish, hlen, List.take_length, writeMQTTString_ofCString,
    publishPacket, idBytes, strlen, List.append_assoc]

/-- A PUBLISH packet with any bytes behind it is taken apart into what it was made of.  The
pointers to topic and payload see everything that follows in the buffer. -/
theorem MQTTDeserialize_publish_publishPacket {dup qos retained packetid : ℕ}
    {topic payload : List UInt8} (hdup : dup < 2) (hqos : qos < 4) (hret : retained < 2)
    (hid : packetid < 65536) (htopic : topic.length < 65536)
    (hlen : publishLength qos topic payload < 128 ^ 4) (rest : List UInt8) :
    MQTTDeserialize_publish (publishPacket dup qos retained packetid topic payload ++ rest) =
      { rc := 1, dup := dup, qos := qos, retained := retained
        packetid := if 0 < qos then some packetid else none
        topicName :=
          ⟨none, ⟨topic.length, some (topic ++ (idBytes qos packetid ++ payload ++ rest))⟩⟩
        payload := some (payload ++ rest)
        payloadlen := payload.length } := by
  have hdec : MQTTPacket_decodeBuf (MQTTPacket_encode (publishLength qos topic payload) ++
      (putWord topic.length ++ topic ++ (idBytes qos packetid ++ payload) ++ rest)) =
      ((MQTTPacket_encode (publishLength qos topic payload)).length,
        publishLength qos topic payload) := decodeBuf_encode_append hlen _
  have hread := readMQTTLenString_append htopic (idBytes qos packetid ++ payload ++ rest)
    (show (topic.length : ℤ) + 2 ≤ publishLength qos topic payload by unfold publishLength; omega)
    MQTTString_initializer
  simp only [List.append_assoc] at hdec hread
  simp only [MQTTDeserialize_publish, publishPacket, List.cons_append, List.headD_cons,
    headerType_headerByte (show PUBLISH < 16 by decide), headerDup_headerByte _ hdup,
    headerQos_headerByte _ _ hqos, headerRetain_headerByte _ _ _ hret, List.tail_cons,
    List.append_assoc, hdec, List.drop_left, hread, ne_eq, not_true_eq_false, if_false,
    Bool.not_true, Bool.false_or, decide_eq_true_eq]
  have hleft : ¬ ((publishLength qos topic payload : ℤ) - 2 - topic.length < 0) := by
    unfold publishLength; omega
  rw [if_neg hleft]
  by_cases hq : 0 < qos
  · have hw : getWord (putWord packetid ++ (payload ++ rest)) = packetid :=
      getWord_putWord_append hid _
    simp only [idBytes, hq, if_true, readInt, Cursor.advance, hw, drop_putWord_append]
    congr 1
    simp only [publishLength, hq, if_true]
    push_cast
    omega
  · simp only [idBytes, hq, if_false, List.nil_append]
    congr 1
    simp only [publishLength, hq, if_false]
    push_cast
    omega

end RemotusHardware
