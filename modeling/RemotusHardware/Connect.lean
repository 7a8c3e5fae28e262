import RemotusHardware.Base.Decimal
import RemotusHardware.Tables
import RemotusHardware.Publishing
import RemotusHardware.Cycle

/-! # Connecting

`main` asks for a TCP connection to the configured server and port and then sends a CONNECT
packet.  The packet is what `MQTTSerialize_connect` makes of the options; read back by any reader
that knows the name of the protocol it gives, it yields the options
(`deserializeConnect_connectPacket`).  `MQTTDeserialize_connect` does not know it: the two files
spell the name of version 3 differently, and so every packet of that version is turned down
(`MQTTDeserialize_connect_rejects`).  And the options of `main` hold a user and a password of
their own, whatever is configured (`main_credentials`).  So no configuration is connected as it
says (`connection_never_faithful`). -/

namespace RemotusHardware

open CLib Wire

/-! ### The options -/

structure MQTTPacket_willOptions where
  topicName : MQTTString
  message : MQTTString
  retained : ℕ
  qos : ℕ
deriving DecidableEq

structure MQTTPacket_connectData where
  MQTTVersion : ℕ
  clientID : MQTTString
  keepAliveInterval : ℕ
  cleansession : ℕ
  willFlag : ℕ
  will : MQTTPacket_willOptions
  username : MQTTString
  password : MQTTString
deriving DecidableEq

def MQTTPacket_connectData_initializer : MQTTPacket_connectData where
  MQTTVersion := 4
  clientID := MQTTString_initializer
  keepAliveInterval := 60
  cleansession := 1
  willFlag := 0
  will := ⟨MQTTString_initializer, MQTTString_initializer, 0, 0⟩
  username := MQTTString_initializer
  password := MQTTString_initializer

/-- `s.cstring || s.lenstring.data` -/
def MQTTString.isSet (s : MQTTString) : Bool := s.cstring.isSome || s.lenstring.data.isSome

/-- The byte `MQTTConnectFlags.all`, put together from its bit fields. -/
def connectFlags (cleansession will willQoS willRetain password username : ℕ) : UInt8 :=
  UInt8.ofNat (username % 2 * 128 + password % 2 * 64 + willRetain % 2 * 32 + willQoS % 4 * 8 +
    will % 2 * 4 + cleansession % 2 * 2)

def flagCleansession (flags : UInt8) : ℕ := flags.toNat / 2 % 2
def flagWill (flags : UInt8) : ℕ := flags.toNat / 4 % 2
def flagWillQoS (flags : UInt8) : ℕ := flags.toNat / 8 % 4
def flagWillRetain (flags : UInt8) : ℕ := flags.toNat / 32 % 2
def flagPassword (flags : UInt8) : ℕ := flags.toNat / 64 % 2
def flagUsername (flags : UInt8) : ℕ := flags.toNat / 128 % 2

/-! ### Writing -/

section
variable (options : MQTTPacket_connectData)

def MQTTSerialize_connectLength : ℕ :=
  (if options.MQTTVersion = 3 then 12 else if options.MQTTVersion = 4 then 10 else 0) +
    (MQTTstrlen options.clientID + 2) +
    (if options.willFlag ≠ 0 then
      MQTTstrlen options.will.topicName + 2 + MQTTstrlen options.will.message + 2 else 0) +
    (if options.username.isSet then MQTTstrlen options.username + 2 else 0) +
    (if options.password.isSet then MQTTstrlen options.password + 2 else 0)

/-- The flags of a CONNECT packet with these options. -/
def optionFlags : UInt8 :=
  connectFlags options.cleansession (if options.willFlag ≠ 0 then 1 else 0)
    (if options.willFlag ≠ 0 then options.will.qos else 0)
    (if options.willFlag ≠ 0 then options.will.retained else 0)
    options.password.isSet.toNat options.username.isSet.toNat

/-- A CONNECT packet from its flags on. -/
def writeOptions : List UInt8 :=
  optionFlags options :: (putWord options.keepAliveInterval ++
    (writeMQTTString options.clientID ++
    ((if options.willFlag ≠ 0 then
      writeMQTTString options.will.topicName ++ writeMQTTString options.will.message else []) ++
    ((if options.username.isSet then writeMQTTString options.username else []) ++
    (if options.password.isSet then writeMQTTString options.password else [])))))

def MQTTSerialize_connect (buflen : ℕ) : Option (List UInt8) :=
  let len := MQTTSerialize_connectLength options
  if buflen < MQTTPacket_len len then none
  else some (headerByte CONNECT 0 0 0 :: (MQTTPacket_encode len ++
    ((if options.MQTTVersion = 4 then writeCString (.lit "MQTT") ++ [4]
      else writeCString (.lit "MQIsdp") ++ [3]) ++ writeOptions options)))

end

/-! ### Reading -/

/-- `memcmp(a, b, n) == 0` -/
def memcmpEq (a b : List UInt8) (n : ℕ) : Bool := a.take n = b.take n

def MQTTPacket_checkVersion (protocol : MQTTString) (version : ℕ) : Bool :=
  let data := protocol.lenstring.data.getD []
  if version = 3 ∧ memcmpEq data (ascii "MQIdsp") (min 6 protocol.lenstring.len) then true
  else if version = 4 ∧ memcmpEq data (ascii "MQTT") (min 4 protocol.lenstring.len) then true
  else false

/-- The will of a CONNECT packet: whether it could be read, the options, where `curdata` is. -/
def readWill (flags : UInt8) (data : MQTTPacket_connectData) (c : Cursor) :
    Bool × MQTTPacket_connectData × Cursor :=
  if flagWill flags = 0 then (true, data, c)
  else
    let (ok, topicName, c) := readMQTTLenString data.will.topicName c
    let will : MQTTPacket_willOptions :=
      ⟨topicName, data.will.message, flagWillRetain flags, flagWillQoS flags⟩
    if ok then
      let (ok, message, c) := readMQTTLenString will.message c
      (ok, { data with willFlag := 1, will := { will with message := message } }, c)
    else (false, { data with willFlag := 1, will := will }, c)

/-- User name and password, to the end of the packet. -/
def readCredentials (flags : UInt8) (data : MQTTPacket_connectData) (c : Cursor) :
    ℤ × MQTTPacket_connectData :=
  if flagUsername flags = 0 then (if flagPassword flags = 0 then 1 else 0, data)
  else if c.left < 3 then (0, data)
  else
    let (ok, username, c) := readMQTTLenString data.username c
    let data := { data with username := username }
    if !ok then (0, data)
    else if flagPassword flags = 0 then (1, data)
    else if c.left < 3 then (0, data)
    else
      let (ok, password, _) := readMQTTLenString data.password c
      (if ok then 1 else 0, { data with password := password })

/-- A CONNECT packet from its flags on. -/
def readOptions (data : MQTTPacket_connectData) (c : Cursor) : ℤ × MQTTPacket_connectData :=
  let (flags, c) := readChar c
  let (keepAliveInterval, c) := readInt c
  let (ok, clientID, c) := readMQTTLenString data.clientID c
  let data := { data with
    cleansession := flagCleansession flags
    keepAliveInterval := keepAliveInterval
    clientID := clientID }
  if !ok then (0, data)
  else
    let (ok, data, c) := readWill flags data c
    if !ok then (0, data) else readCredentials flags data c

/-- `MQTTDeserialize_connect`, with a test of the protocol and its version. -/
def deserializeConnect (checkVersion : MQTTString → ℕ → Bool) (data : MQTTPacket_connectData)
    (buf : List UInt8) (len : ℕ) : ℤ × MQTTPacket_connectData :=
  if headerType (buf.headD 0) ≠ CONNECT then (0, data)
  else
    let n := (MQTTPacket_decodeBuf buf.tail).1
    let (ok, Protocol, c) := readMQTTLenString MQTTString_initializer
      ⟨buf.tail.drop n, (len : ℤ) - 1 - n⟩
    if !ok || decide (c.left < 0) then (0, data)
    else
      let (version, c) := readChar c
      if checkVersion Protocol version.toNat then readOptions data c else (0, data)

def MQTTDeserialize_connect : MQTTPacket_connectData → List UInt8 → ℕ →
    ℤ × MQTTPacket_connectData :=
  deserializeConnect MQTTPacket_checkVersion

/-! ### A packet of version 3 is turned down -/

theorem lt_MQTTPacket_len (n : ℕ) : n < MQTTPacket_len n := by
  unfold MQTTPacket_len
  dsimp only
  split
  case isTrue => omega
  case isFalse =>
    split
    case isTrue => omega
    case isFalse => split <;> omega

/-- A string that does not fit in front of `enddata` is not read. -/
theorem readMQTTLenString_short {data : List UInt8} (h : data.length < 65536) (rest : List UInt8)
    {left : ℤ} (hleft : ¬ (data.length : ℤ) + 2 ≤ left) (old : MQTTString) :
    (readMQTTLenString old ⟨putWord data.length ++ (data ++ rest), left⟩).1 = false := by
  have hw : getWord (putWord data.length ++ (data ++ rest)) = data.length :=
    getWord_putWord_append h _
  unfold readMQTTLenString
  by_cases h1 : 1 < left
  · have h2 : ¬ (data.length : ℤ) ≤ left - 2 := by omega
    simp [h1, readInt, hw, Cursor.advance, h2]
  · simp [h1]

/-- The shape of a CONNECT packet of version 3. -/
theorem MQTTSerialize_connect_eq {options : MQTTPacket_connectData} {buflen : ℕ}
    {packet : List UInt8} (h : MQTTSerialize_connect options buflen = some packet)
    (hversion : options.MQTTVersion ≠ 4) :
    MQTTSerialize_connectLength options < buflen ∧ packet = headerByte CONNECT 0 0 0 ::
      (MQTTPacket_encode (MQTTSerialize_connectLength options) ++
        (putWord 6 ++ (ascii "MQIsdp" ++ (3 :: writeOptions options)))) := by
  unfold MQTTSerialize_connect at h
  dsimp only at h
  by_cases hlen : buflen < MQTTPacket_len (MQTTSerialize_connectLength options)
  · rw [if_pos hlen] at h
    cases h
  · rw [if_neg hlen, if_neg hversion] at h
    refine ⟨lt_of_lt_of_le (lt_MQTTPacket_len _) (Nat.not_lt.mp hlen), ?_⟩
    rw [← Option.some.inj h]
    rfl

/-- What is read of such a packet. -/
theorem deserializeConnect_eq (checkVersion : MQTTString → ℕ → Bool) {n : ℕ} (hn : n < 128 ^ 4)
    (rest : List UInt8) (data : MQTTPacket_connectData) (len : ℕ) :
    deserializeConnect checkVersion data (headerByte CONNECT 0 0 0 :: (MQTTPacket_encode n ++
        (putWord 6 ++ (ascii "MQIsdp" ++ (3 :: rest))))) len =
      if (MQTTPacket_encode n).length + 9 ≤ len ∧
          checkVersion ⟨none, ⟨6, some (ascii "MQIsdp" ++ 3 :: rest)⟩⟩ 3 then
        readOptions data ⟨rest, (len : ℤ) - 10 - (MQTTPacket_encode n).length⟩
      else (0, data) := by
  have hdec := decodeBuf_encode_append hn (putWord 6 ++ (ascii "MQIsdp" ++ (3 :: rest)))
  have hname : (ascii "MQIsdp").length = 6 := rfl
  unfold deserializeConnect
  rw [List.headD_cons, headerType_headerByte (by decide), if_neg (by simp), List.tail_cons, hdec]
  dsimp only
  rw [List.drop_left]
  by_cases hlen : (MQTTPacket_encode n).length + 9 ≤ len
  · have hfits : ((ascii "MQIsdp").length : ℤ) + 2 ≤
        (len : ℤ) - 1 - (MQTTPacket_encode n).length := by
      rw [hname]
      omega
    have hread := readMQTTLenString_append (by decide) (3 :: rest) hfits MQTTString_initializer
    rw [List.append_assoc, hname] at hread
    have hleft : ¬ ((len : ℤ) - 1 - (MQTTPacket_encode n).length - 2 - 6 < 0) := by omega
    have hrest : (len : ℤ) - 1 - (MQTTPacket_encode n).length - 2 - 6 - 1 =
        (len : ℤ) - 10 - (MQTTPacket_encode n).length := by omega
    simp [hread, hleft, hlen, readChar, Cursor.advance, hrest]
  · have hshort : ¬ ((ascii "MQIsdp").length : ℤ) + 2 ≤
        (len : ℤ) - 1 - (MQTTPacket_encode n).length := by
      rw [hname]
      omega
    have hread := readMQTTLenString_short (by decide) (3 :: rest) hshort MQTTString_initializer
    rw [hname] at hread
    simp [hread, hlen]

/-- The name that `MQTTSerialize_connect` writes for version 3 is not the one that is looked
for. -/
theorem checkVersion_MQIsdp (rest : List UInt8) :
    MQTTPacket_checkVersion ⟨none, ⟨6, some (ascii "MQIsdp" ++ rest)⟩⟩ 3 = false := by
  have htake : (ascii "MQIsdp" ++ rest).take 6 = ascii "MQIsdp" := rfl
  have hne : ascii "MQIsdp" ≠ (ascii "MQIdsp").take 6 := by decide
  simp [MQTTPacket_checkVersion, memcmpEq, htake, hne]

/-- No CONNECT packet of version 3 that `MQTTSerialize_connect` writes is accepted by
`MQTTDeserialize_connect`. -/
theorem MQTTDeserialize_connect_rejects {options : MQTTPacket_connectData} {buflen : ℕ}
    (hbuflen : buflen ≤ 128 ^ 4) {packet : List UInt8}
    (h : MQTTSerialize_connect options buflen = some packet) (hversion : options.MQTTVersion ≠ 4)
    (data : MQTTPacket_connectData) (len : ℕ) :
    MQTTDeserialize_connect data packet len = (0, data) := by
  obtain ⟨hlen, rfl⟩ := MQTTSerialize_connect_eq h hversion
  unfold MQTTDeserialize_connect
  rw [deserializeConnect_eq _ (lt_of_lt_of_le hlen hbuflen), checkVersion_MQIsdp]
  exact if_neg (by simp)

/-! ### What a reader that knows the name gets -/

/-- The text of a string that has been read. -/
def MQTTString.text (s : MQTTString) : List UInt8 :=
  (s.lenstring.data.getD []).take s.lenstring.len

/-- Options of version 3 with a client, a user and a password. -/
def loginOptions (clientID username password : CString) : MQTTPacket_connectData :=
  { MQTTPacket_connectData_initializer with
    MQTTVersion := 3
    clientID := .ofCString clientID
    username := .ofCString username
    password := .ofCString password }

section
variable (clientID username password : CString)

theorem loginOptions_length :
    MQTTSerialize_connectLength (loginOptions clientID username password) =
      18 + strlen clientID + strlen username + strlen password := by
  have hlen : MQTTSerialize_connectLength (loginOptions clientID username password) =
      12 + (strlen clientID + 2) + 0 + (strlen username + 2) + (strlen password + 2) := rfl
  omega

theorem writeOptions_loginOptions :
    writeOptions (loginOptions clientID username password) =
      connectFlags 1 0 0 0 1 1 :: (putWord 60 ++ (putWord (strlen clientID) ++ (clientID.bytes ++
        (putWord (strlen username) ++ (username.bytes ++
          (putWord (strlen password) ++ password.bytes)))))) := by
  simp [writeOptions, optionFlags, loginOptions, MQTTPacket_connectData_initializer,
    MQTTString.isSet, MQTTString.ofCString, writeMQTTString, writeCString]

/-- A string is read back with any bytes behind, and its text is the string. -/
theorem readMQTTLenString_cstring {s : CString} (hs : strlen s < 65536) (rest : List UInt8)
    (left : ℤ) (hleft : (strlen s : ℤ) + 2 ≤ left) (old : MQTTString) :
    ∃ t, readMQTTLenString old ⟨putWord (strlen s) ++ (s.bytes ++ rest), left⟩ =
        (true, t, ⟨rest, left - 2 - strlen s⟩) ∧ t.text = s.bytes := by
  have hread := readMQTTLenString_append hs rest hleft old
  rw [List.append_assoc] at hread
  exact ⟨_, hread, List.take_left⟩

/-- What a reader gets of such options: the strings they hold. -/
structure LoggedIn (data : MQTTPacket_connectData) : Prop where
  clientID : data.clientID.text = clientID.bytes
  username : data.username.text = username.bytes
  password : data.password.text = password.bytes
  keepAliveInterval : data.keepAliveInterval = 60
  cleansession : data.cleansession = 1

variable {clientID username password}

theorem readOptions_loginOptions (hclientID : strlen clientID < 65536)
    (husername : strlen username < 65536) (hpassword : strlen password < 65536)
    (hne : 0 < strlen password) (data : MQTTPacket_connectData) :
    ∃ data', readOptions data ⟨writeOptions (loginOptions clientID username password),
        9 + strlen clientID + strlen username + strlen password⟩ = (1, data') ∧
      LoggedIn clientID username password data' := by
  rw [writeOptions_loginOptions]
  generalize hi : (strlen clientID : ℤ) = i
  generalize hu : (strlen username : ℤ) = u
  generalize hp : (strlen password : ℤ) = p
  obtain ⟨id, hid, hidtext⟩ := readMQTTLenString_cstring hclientID
    (putWord (strlen username) ++ (username.bytes ++ (putWord (strlen password) ++ password.bytes)))
    (6 + i + u + p) (by omega) data.clientID
  obtain ⟨user, huser, husertext⟩ := readMQTTLenString_cstring husername
    (putWord (strlen password) ++ password.bytes) (4 + u + p) (by omega) data.username
  obtain ⟨pass, hpass, hpasstext⟩ := readMQTTLenString_cstring hpassword [] (2 + p) (by omega)
    data.password
  rw [hi, show 6 + i + u + p - 2 - i = 4 + u + p by omega] at hid
  rw [hu, show 4 + u + p - 2 - u = 2 + p by omega] at huser
  rw [List.append_nil] at hpass
  refine ⟨{ data with
    cleansession := 1
    keepAliveInterval := 60
    clientID := id
    username := user
    password := pass }, ?_, hidtext, husertext, hpasstext, rfl, rfl⟩
  have hbegin : 9 + i + u + p - 1 - 2 = 6 + i + u + p := by omega
  have huserleft : ¬ 4 + u + p < 3 := by omega
  have hpassleft : ¬ 2 + p < 3 := by omega
  simp only [readOptions, readChar, readInt, Cursor.advance, List.headD_cons, List.drop_succ_cons,
    List.drop_zero, getWord_putWord_append (show 60 < 65536 by decide), drop_putWord_append,
    Nat.cast_one, Nat.cast_ofNat, hbegin, hid]
  have hwill : flagWill (connectFlags 1 0 0 0 1 1) = 0 := by decide
  have huserflag : flagUsername (connectFlags 1 0 0 0 1 1) = 1 := by decide
  have hpassflag : flagPassword (connectFlags 1 0 0 0 1 1) = 1 := by decide
  have hclean : flagCleansession (connectFlags 1 0 0 0 1 1) = 1 := by decide
  simp [readWill, hwill, readCredentials, huserflag, hpassflag, hclean, huserleft, hpassleft, huser,
    hpass]

theorem writeOptions_loginOptions_length (clientID username password : CString) :
    (writeOptions (loginOptions clientID username password)).length =
      9 + strlen clientID + strlen username + strlen password := by
  rw [writeOptions_loginOptions]
  simp only [List.length_cons, List.length_append, putWord_length, strlen]
  omega

/-- A packet with a client, a user and a password is read back by a reader that knows the name of
the protocol in it. -/
theorem deserializeConnect_connectPacket {checkVersion : MQTTString → ℕ → Bool}
    (hcheck : ∀ rest, checkVersion ⟨none, ⟨6, some (ascii "MQIsdp" ++ rest)⟩⟩ 3 = true)
    {buflen : ℕ} (hbuflen : buflen ≤ 65536) {packet : List UInt8}
    (h : MQTTSerialize_connect (loginOptions clientID username password) buflen = some packet)
    (hne : 0 < strlen password) (data : MQTTPacket_connectData) :
    ∃ data', deserializeConnect checkVersion data packet packet.length = (1, data') ∧
      LoggedIn clientID username password data' := by
  obtain ⟨hlen, rfl⟩ := MQTTSerialize_connect_eq h (show (3 : ℕ) ≠ 4 by decide)
  have hfits := loginOptions_length clientID username password
  have hrest := writeOptions_loginOptions_length clientID username password
  have hname : (ascii "MQIsdp").length = 6 := rfl
  have hclientID : strlen clientID < 65536 := by omega
  have husername : strlen username < 65536 := by omega
  have hpassword : strlen password < 65536 := by omega
  obtain ⟨data', hread, hlogged⟩ := readOptions_loginOptions hclientID husername hpassword hne data
  refine ⟨data', ?_, hlogged⟩
  generalize writeOptions (loginOptions clientID username password) = rest at hrest hread ⊢
  rw [deserializeConnect_eq _ (by omega)]
  simp only [List.length_cons, List.length_append, putWord_length, hname, hcheck, and_true]
  rw [if_pos (by omega), ← hread]
  congr 2
  omega

end

/-! ### The client -/

section
variable {H σ : Type} (call : H → MessageData → σ → σ)

/-- `connect`; a message that was not acknowledged is sent again, and its return code taken. -/
def Client.connect (options : MQTTPacket_connectData) (c : Client H) (w : World σ) : Result H σ :=
  let connect_timer := Countdown.countdown_ms w.net.now c.command_timeout_ms
  if c.isconnected then ⟨FAILURE, c, w⟩
  else
    let c := { c with
      keepAliveInterval := options.keepAliveInterval
      cleansession := options.cleansession ≠ 0 }
    match MQTTSerialize_connect options MAX_MQTT_PACKET_SIZE with
    | none => ⟨FAILURE, c, w⟩
    | some packet =>
        let r := (c.store packet).sendPacket packet.length connect_timer w
        if r.rc ≠ SUCCESS then r
        else
          let last_received :=
            if 0 < r.client.keepAliveInterval then
              Countdown.countdown r.world.net.now r.client.keepAliveInterval
            else r.client.last_received
          let r := Client.waitfor call CONNACK connect_timer
            { r.client with last_received := last_received } r.world
          let rc : ℤ :=
            if r.rc = CONNACK then
              let (ok, connack_rc) := MQTTDeserialize_connack r.client.readbuf
              if ok = 1 then connack_rc else FAILURE
            else FAILURE
          let r :=
            if 0 < r.client.inflightMsgid then
              Client.publishPart call r.client.inflightLen connect_timer r.client.inflightQoS
                { r.client with sendbuf := overwrite r.client.sendbuf 0 r.client.pubbuf } r.world
            else { r with rc := rc }
          if r.rc = SUCCESS then { r with client := { r.client with isconnected := true } } else r

theorem waitforLoop_later (packet_type : ℕ) (timer : Countdown) : ∀ (k : ℕ) (r : Result H σ),
    r.world.net.Later (Client.waitforLoop call packet_type timer k r).world.net
  | 0, r => Net.Later.refl _
  | k + 1, r => by
      obtain ⟨-, hlater, -⟩ := cycle_spec call timer r.client r.world
      unfold Client.waitforLoop
      split
      · exact Net.Later.refl _
      · dsimp only
        split
        · exact hlater
        · exact hlater.trans (waitforLoop_later packet_type timer k _)

theorem waitfor_later (packet_type : ℕ) (timer : Countdown) (c : Client H) (w : World σ) :
    w.net.Later (c.waitfor call packet_type timer w).world.net :=
  waitforLoop_later call packet_type timer _ ⟨FAILURE, c, w⟩

theorem publishPart_later (length : ℕ) (timer : Countdown) (qos : ℕ) (c : Client H) (w : World σ) :
    w.net.Later (c.publishPart call length timer qos w).world.net := by
  obtain ⟨-, -, hsend, -⟩ := sendPacket_spec length timer c w
  unfold Client.publishPart
  generalize c.sendPacket length timer w = r at hsend ⊢
  have hwait := hsend.trans (waitfor_later call PUBACK timer r.client r.world)
  dsimp only
  generalize Client.waitfor call PUBACK timer r.client r.world = r' at hwait ⊢
  by_cases hack : r.rc = SUCCESS ∧ qos = 1
  · simp only [if_pos hack]
    by_cases hrc : r'.rc = PUBACK
    · simp only [if_pos hrc]
      split_ifs <;> exact hwait
    · simp only [if_neg hrc]
      split_ifs <;> exact hwait
  · simp only [if_neg hack]
    split_ifs <;> exact hsend

/-- `connect` sends its packet before anything else, and nothing else if that fails. -/
theorem connect_handed {options : MQTTPacket_connectData} {packet : List UInt8}
    (h : MQTTSerialize_connect options MAX_MQTT_PACKET_SIZE = some packet) {c : Client H}
    (hc : c.isconnected = false) (w : World σ) :
    let net := w.net.send packet packet.length (.countdown_ms w.net.now c.command_timeout_ms)
    net.2.sent <+: (c.connect call options w).world.net.sent ∧
      (net.1 = false → (c.connect call options w).world.net.sent = net.2.sent) := by
  obtain ⟨hworld, hsuccess⟩ := sendPacket_store packet
    (.countdown_ms w.net.now c.command_timeout_ms)
    { c with
      keepAliveInterval := options.keepAliveInterval
      cleansession := options.cleansession ≠ 0 } w
  intro net
  unfold Client.connect
  rw [if_neg (by simp [hc])]
  dsimp only
  rw [h]
  dsimp only
  generalize Client.sendPacket packet.length _ _ w = r at hworld hsuccess ⊢
  have hnet : r.world.net = net.2 := by rw [hworld]
  have hrc' : r.rc = if net.1 then SUCCESS else FAILURE := hsuccess
  by_cases hrc : r.rc ≠ SUCCESS
  · rw [if_pos hrc, hnet]
    exact ⟨List.prefix_refl _, fun _ => rfl⟩
  · have hok : ¬ net.1 = false := fun hfalse => hrc (by rw [hrc', hfalse]; decide)
    refine ⟨?_, fun hfalse => absurd hfalse hok⟩
    rw [if_neg hrc, ← hnet]
    generalize ({ r.client with last_received := _ } : Client H) = c'
    have hwait :=
      waitfor_later call CONNACK (.countdown_ms w.net.now c.command_timeout_ms) c' r.world
    generalize c'.waitfor call CONNACK (.countdown_ms w.net.now c.command_timeout_ms) r.world = r'
      at hwait ⊢
    by_cases hinflight : 0 < r'.client.inflightMsgid
    · simp only [if_pos hinflight]
      have hagain := hwait.trans (publishPart_later call r'.client.inflightLen
        (.countdown_ms w.net.now c.command_timeout_ms) r'.client.inflightQoS
        { r'.client with sendbuf := overwrite r'.client.sendbuf 0 r'.client.pubbuf } r'.world)
      split_ifs <;> exact hagain.sent
    · simp only [if_neg hinflight]
      split_ifs <;> exact hwait.sent

/-- So it is the first one handed to the network, if there is time for it. -/
theorem connect_sends {options : MQTTPacket_connectData} {packet : List UInt8}
    (h : MQTTSerialize_connect options MAX_MQTT_PACKET_SIZE = some packet) {c : Client H}
    (hc : c.isconnected = false) (htime : 0 < c.command_timeout_ms) (w : World σ) :
    ∃ n rest, (c.connect call options w).world.net.sent = w.net.sent ++ ⟨packet, n⟩ :: rest := by
  have hstart :
      (Countdown.countdown_ms w.net.now c.command_timeout_ms).expired w.net.now = false := by
    simp only [Countdown.expired, Countdown.countdown_ms, Nat.sub_self, decide_eq_false_iff_not]
    omega
  obtain ⟨⟨rest, hrest⟩, -⟩ := connect_handed call h hc w
  rw [Net.send_sent, hstart, if_neg Bool.false_ne_true] at hrest
  exact ⟨_, rest, by rw [← hrest, List.append_assoc, List.singleton_append]⟩

theorem MQTTSerialize_connect_ne_nil {options : MQTTPacket_connectData} {buflen : ℕ}
    {packet : List UInt8} (h : MQTTSerialize_connect options buflen = some packet) :
    packet ≠ [] := by
  unfold MQTTSerialize_connect at h
  dsimp only at h
  split at h
  · cases h
  · rw [← Option.some.inj h]
    exact List.cons_ne_nil _ _

/-- Without time nothing is. -/
theorem connect_expired {options : MQTTPacket_connectData} {packet : List UInt8}
    (h : MQTTSerialize_connect options MAX_MQTT_PACKET_SIZE = some packet) {c : Client H}
    (hc : c.isconnected = false) (htime : c.command_timeout_ms = 0) (w : World σ) :
    (c.connect call options w).world.net.sent = w.net.sent := by
  have hstart :
      (Countdown.countdown_ms w.net.now c.command_timeout_ms).expired w.net.now = true := by
    simp [Countdown.expired, Countdown.countdown_ms, htime]
  have hlength := List.length_pos_iff.mpr (MQTTSerialize_connect_ne_nil h)
  obtain ⟨-, hfails⟩ := connect_handed call h hc w
  rw [hfails, Net.send_sent, hstart, if_pos rfl, List.append_nil]
  rw [Net.send, sendLoop_expired hstart]
  exact decide_eq_false (by omega)

end

/-! ### What `main` asks for -/

/-- `%3u` of `sscanf`: white space and a number of three characters at most.  Its lowest byte is
what stays of it in `address`, where the next number is stored one byte further on. -/
def scan3u (text : List UInt8) : Option (UInt8 × List UInt8) :=
  let text := text.dropWhile isSpace
  let (negative, digits) := sign (text.take 3)
  let number := digits.takeWhile isDigit
  if number = [] then none
  else some (UInt8.ofNat (signed negative (digitValue number) % 256).toNat,
    text.drop ((text.take 3).length - digits.length + number.length))

/-- A point of the format. -/
def scanPoint : List UInt8 → Option (List UInt8)
  | [] => none
  | b :: text => if b = 46 then some text else none

/-- `sscanf(host, "%3u.%3u.%3u.%3u", ..)`, if it returns 4; what follows the numbers does not
matter. -/
def scanAddress (host : CString) : Option (List UInt8) := do
  let (a₀, text) ← scan3u host.bytes
  let (a₁, text) ← scan3u (← scanPoint text)
  let (a₂, text) ← scan3u (← scanPoint text)
  let (a₃, _) ← scan3u (← scanPoint text)
  some [a₀, a₁, a₂, a₃]

/-- A TCP endpoint: the string it is asked for by, the address read from it and the port.  Without
an address DNS is asked for the string. -/
structure Endpoint where
  host : CString
  s_addr : Option (List UInt8)
  sin_port : ℕ
deriving DecidableEq

/-- `Endpoint::set_address`; `htons` takes 16 bits of the port. -/
def set_address (host : CString) (port : ℤ) : Endpoint :=
  ⟨host, scanAddress host, (port % 65536).toNat⟩

theorem scan3u_decimal (b : UInt8) {rest : List UInt8}
    (hrest : ∀ c ∈ rest.head?, isDigit c = false) :
    scan3u (decimal b.toNat ++ rest) = some (b, rest) := by
  have hlen : (decimal b.toNat).length ≤ 3 :=
    decimal_length_le (by decide) (by have := b.toNat_lt; omega)
  have hdigits : ∀ d ∈ decimal b.toNat, isDigit d = true := fun d => isDigit_of_mem_decimal
  cases hd : decimal b.toNat with
  | nil => exact absurd hd (decimal_ne_nil _)
  | cons d ds =>
      rw [hd] at hlen hdigits
      have hspace : (d :: ds ++ rest).dropWhile isSpace = d :: ds ++ rest := by
        simp [isSpace_of_isDigit (hdigits d List.mem_cons_self)]
      have htake : (d :: ds ++ rest).take 3 = d :: ds ++ rest.take (3 - (d :: ds).length) := by
        rw [List.take_append, List.take_of_length_le hlen]
      have hsign : sign (d :: ds ++ rest.take (3 - (d :: ds).length)) =
          (false, d :: ds ++ rest.take (3 - (d :: ds).length)) :=
        sign_cons_of_isDigit (hdigits d List.mem_cons_self) _
      have hnumber : (d :: ds ++ rest.take (3 - (d :: ds).length)).takeWhile isDigit = d :: ds := by
        rw [takeWhile_isDigit_append hdigits]
        cases rest with
        | nil => simp
        | cons c rest =>
            have hc := hrest c rfl
            cases 3 - (d :: ds).length <;> simp [hc]
      have hvalue : digitValue (d :: ds) = b.toNat := by rw [← hd, digitValue_decimal]
      unfold scan3u
      dsimp only
      rw [hspace, htake, hsign]
      dsimp only
      rw [hnumber, if_neg (List.cons_ne_nil _ _), hvalue, Nat.sub_self, Nat.zero_add,
        List.drop_left]
      have hbyte : ((b.toNat : ℤ) % 256).toNat = b.toNat := by
        have := b.toNat_lt
        omega
      simp [signed, hbyte]

/-- The address in a dotted one is its four numbers. -/
theorem scanAddress_dotted (a₀ a₁ a₂ a₃ : UInt8) {host : CString}
    (h : host.bytes = decimal a₀.toNat ++ 46 :: (decimal a₁.toNat ++ 46 :: (decimal a₂.toNat ++
      46 :: decimal a₃.toNat))) : scanAddress host = some [a₀, a₁, a₂, a₃] := by
  have hpoint (text : List UInt8) : ∀ c ∈ (46 :: text).head?, isDigit c = false := by
    simp [isDigit]
  have hlast : scan3u (decimal a₃.toNat) = some (a₃, []) := by
    have h := scan3u_decimal a₃ (show ∀ c ∈ [].head?, isDigit c = false by simp)
    rwa [List.append_nil] at h
  unfold scanAddress
  rw [h]
  simp [scan3u_decimal _ (hpoint _), scanPoint, hlast]

theorem set_address_port_iff (host : CString) (port : ℤ) :
    ((set_address host port).sin_port : ℤ) = port ↔ 0 ≤ port ∧ port < 65536 := by
  unfold set_address
  dsimp only
  omega

/-- The options of `main`. -/
def mainData : MQTTPacket_connectData :=
  loginOptions (.lit "mbed-sample") (.lit "testuser") (.lit "testpassword")

/-- The CONNECT packet of `main`. -/
def mainPacket : List UInt8 := (MQTTSerialize_connect mainData MAX_MQTT_PACKET_SIZE).getD []

theorem mainPacket_eq :
    MQTTSerialize_connect mainData MAX_MQTT_PACKET_SIZE = some mainPacket := by decide +kernel

/-- The connection is the configured one: the endpoint asked for is the configured server and
port, and the first of the packets sent is decoded as a CONNECT of the configured user with the
configured password. -/
structure ConnectionFidelity
    (decode : MQTTPacket_connectData → List UInt8 → ℕ → ℤ × MQTTPacket_connectData) (v : Value)
    (endpoint : Endpoint) (packets : List SentPacket) : Prop where
  server : v.field "server" = .string endpoint.host.bytes
  port : v.field "port" = .number (.finite endpoint.sin_port)
  credentials : ∃ p rest data, packets = p :: rest ∧
    decode MQTTPacket_connectData_initializer p.packet p.packet.length = (1, data) ∧
    v.field "user" = .string data.username.text ∧ v.field "pass" = .string data.password.text

section
variable {H σ : Type} (call : H → MessageData → σ → σ)

/-- The first packet that `main` sends, if it sends one, is its CONNECT packet. -/
theorem main_sends {c : Client H} (hc : c.isconnected = false) (w : World σ)
    {packets : List SentPacket}
    (h : (c.connect call mainData w).world.net.sent = w.net.sent ++ packets) :
    ∀ p ∈ packets.head?, p.packet = mainPacket := by
  rcases Nat.eq_zero_or_pos c.command_timeout_ms with htime | htime
  · rw [connect_expired call mainPacket_eq hc htime] at h
    simp [List.self_eq_append_right.mp h]
  · obtain ⟨n, rest, hsent⟩ := connect_sends call mainPacket_eq hc htime w
    rw [hsent] at h
    simp [← List.append_cancel_left h]

theorem trunc_natCast (n : ℕ) : trunc n = n := by
  simp [trunc]

/-- With a reader that knows the name of the protocol the connection is the configured one exactly
if the configured user and password are the ones written in the program and the port is a 16-bit
number. -/
theorem connection_known_name_iff {v : Value} {G : Globals} (hv : parse v = .ok G)
    (hserver : ∀ s, v.field "server" = .string s → (0 : UInt8) ∉ s)
    {checkVersion : MQTTString → ℕ → Bool}
    (hcheck : ∀ rest, checkVersion ⟨none, ⟨6, some (ascii "MQIsdp" ++ rest)⟩⟩ 3 = true)
    {c : Client H} (hc : c.isconnected = false) (htime : 0 < c.command_timeout_ms) (w : World σ) :
    (∃ packets, (c.connect call mainData w).world.net.sent = w.net.sent ++ packets ∧
        ConnectionFidelity (deserializeConnect checkVersion) v (set_address G.server G.port)
          packets) ↔
      (∃ port : ℕ, port < 65536 ∧ v.field "port" = .number (.finite port)) ∧
        v.field "user" = .string (ascii "testuser") ∧
        v.field "pass" = .string (ascii "testpassword") := by
  obtain ⟨⟨⟨server, hs, hG⟩, ⟨x, hx, hport⟩, -, -⟩, -⟩ := parse_ok hv
  obtain ⟨data, hread, hlogged⟩ := deserializeConnect_connectPacket hcheck
    (show MAX_MQTT_PACKET_SIZE ≤ 65536 by decide) mainPacket_eq (by decide)
    MQTTPacket_connectData_initializer
  have huser : data.username.text = ascii "testuser" := hlogged.username
  have hpass : data.password.text = ascii "testpassword" := hlogged.password
  constructor
  · rintro ⟨packets, hsent, hfid⟩
    obtain ⟨p, rest, data', rfl, hread', huser', hpass'⟩ := hfid.credentials
    rw [main_sends call hc w hsent p rfl] at hread'
    obtain rfl : data = data' := (Prod.mk.inj (hread.symm.trans hread')).2
    refine ⟨⟨_, ?_, hfid.port⟩, ?_, ?_⟩
    · unfold set_address
      dsimp only
      omega
    · rw [huser', huser]
    · rw [hpass', hpass]
  · rintro ⟨⟨port, hlt, hp⟩, hu, hpw⟩
    obtain ⟨n, rest, hsent⟩ := connect_sends call mainPacket_eq hc htime w
    refine ⟨_, hsent, ?_, ?_, _, _, data, rfl, hread, ?_, ?_⟩
    · change v.field "server" = .string G.server.bytes
      rw [hs, hG, CString.ofMem_bytes (hserver server hs)]
    · have hx' : x = .finite port := Value.field_number_unique hx hp
      have hfits : FitsInt (port : ℤ) := by
        constructor <;> omega
      have hG' : G.port = port := by
        rw [hx', Double.toInt, trunc_natCast, if_pos hfits] at hport
        exact (Except.ok.inj hport).symm
      have hsin : (set_address G.server G.port).sin_port = port := by
        unfold set_address
        dsimp only
        omega
      rw [hsin, hp]
    · rw [hu, huser]
    · rw [hpw, hpass]

/-- `main` connects no configuration as it says, accepted or not. -/
theorem connection_never_faithful (v : Value) (G : Globals) {c : Client H}
    (hc : c.isconnected = false) (w : World σ) :
    ¬ ∃ packets, (c.connect call mainData w).world.net.sent = w.net.sent ++ packets ∧
      ConnectionFidelity MQTTDeserialize_connect v (set_address G.server G.port) packets := by
  rintro ⟨packets, hsent, hfid⟩
  obtain ⟨p, rest, data, rfl, hread, -, -⟩ := hfid.credentials
  rw [main_sends call hc w hsent p rfl,
    MQTTDeserialize_connect_rejects (by decide) mainPacket_eq (by decide)] at hread
  cases hread

end

/-- A client that has not connected. -/
def newClient : Client Unit := { Client.connected [] with isconnected := false }

theorem connection_never_faithful_lamp :
    ¬ ∃ packets, (newClient.connect (fun _ _ a => a) mainData idleWorld).world.net.sent =
        idleWorld.net.sent ++ packets ∧
      ConnectionFidelity MQTTDeserialize_connect (config [element .dOut "lamp" 20])
        (set_address (globalsOf [outputSensor "lamp" .p20]).server
          (globalsOf [outputSensor "lamp" .p20]).port) packets :=
  connection_never_faithful _ _ _ rfl idleWorld

/-- The user `farm` with the password `secret` is not the one connected. -/
theorem farm_not_connected :
    parse (config [element .dOut "lamp" 20]) = .ok (globalsOf [outputSensor "lamp" .p20]) ∧
      ¬ ∃ packets, (newClient.connect (fun _ _ a => a) mainData idleWorld).world.net.sent =
          idleWorld.net.sent ++ packets ∧
        ConnectionFidelity MQTTDeserialize_connect (config [element .dOut "lamp" 20])
          (set_address (.lit "192.168.1.10") 1883) packets := by
  refine ⟨rfl, ?_⟩
  rintro ⟨packets, hsent, hfid⟩
  obtain ⟨p, rest, data, rfl, hread, -, -⟩ := hfid.credentials
  rw [main_sends _ rfl idleWorld hsent p rfl] at hread
  have hrc : (MQTTDeserialize_connect MQTTPacket_connectData_initializer mainPacket
      mainPacket.length).1 = 0 := by decide +kernel
  rw [hread] at hrc
  cases hrc

end RemotusHardware
