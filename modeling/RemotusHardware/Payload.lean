import RemotusHardware.Base.Decimal
import RemotusHardware.Delivery

/-! # What a payload means and what the handler makes of it

The payload of a message is a pointer into the read buffer and a length.  `messageArrived` hands
the pointer to `atoi`, which knows nothing of the length: it reads on into whatever older packets
have left in the buffer, and returns 0 where there is no number at all.

`commandMeant` is what a payload says by itself.  The handler does that, whatever stands behind
the packet in two runs, exactly if the payload is `Clear` in front of both (`payload_clear_iff`).
A run has to get that far: the packet fits the read buffer, and the number an `int`, as C does not
say what `atoi` makes of another. -/

namespace RemotusHardware

open CLib

/-! ### What a payload says -/

/-- A payload without the NUL it may end with. -/
def withoutNul (payload : List UInt8) : List UInt8 :=
  if payload.getLast? = some 0 then payload.dropLast else payload

/-- The level an integer asks for. -/
def levelOf (z : ℤ) : Option Bool :=
  if z = 1 then some true else if z = 0 then some false else none

/-- The level a payload asks for by itself. -/
def commandMeant (payload : List UInt8) : Option Bool :=
  (readInteger (withoutNul payload)).bind levelOf

/-- The number a text begins with, behind white space and a sign, is neither 0 nor 1; there is
one. -/
def OtherNumber (mem : List UInt8) : Prop :=
  2 ≤ digitValue (numeral mem).2 ∨ (numeral mem).1 = true ∧ digitValue (numeral mem).2 = 1

/-- A payload that is understood in front of these bytes: text for 1 ends in a NUL or has no digit
behind it, text for 0 ends in a NUL or has no digit but zeros behind it, and what is not a number
begins, together with these bytes, with a number other than 0 and 1. -/
structure Clear (payload rest : List UInt8) : Prop where
  one : readInteger (withoutNul payload) = some 1 →
    payload.getLast? = some 0 ∨ rest.takeWhile isDigit = []
  zero : readInteger (withoutNul payload) = some 0 →
    payload.getLast? = some 0 ∨ ∀ d ∈ rest.takeWhile isDigit, d = 48
  other : readInteger (withoutNul payload) = none → OtherNumber (payload ++ rest)

/-! ### What `atoi` makes of it -/

/-- The bounds of `int` are no matter. -/
theorem commandOf_eq (mem : List UInt8) :
    commandOf mem = levelOf (signed (numeral mem).1 (digitValue (numeral mem).2)) := by
  unfold commandOf levelOf
  rw [atoi_eq]
  split_ifs <;> first | rfl | omega

theorem levelOf_eq_none {z : ℤ} : levelOf z = none ↔ z ≠ 1 ∧ z ≠ 0 := by
  unfold levelOf
  split_ifs <;> simp [*]

theorem levelOf_eq_some {z : ℤ} {b : Bool} : levelOf z = some b ↔ z = b.toNat := by
  unfold levelOf
  split_ifs <;> cases b <;> simp [*]

theorem commandOf_eq_none_iff {mem : List UInt8} : commandOf mem = none ↔ OtherNumber mem := by
  rw [commandOf_eq, levelOf_eq_none, OtherNumber, signed]
  cases (numeral mem).1 <;> simp <;> omega

/-- More digits behind a number leave what it asks for as it is if there are none, or if it is 0
and so are they, or if it asks for nothing. -/
theorem levelOf_append_iff (negative : Bool) {ds es : List UInt8}
    (hes : ∀ d ∈ es, isDigit d = true) :
    levelOf (signed negative (digitValue (ds ++ es))) = levelOf (signed negative (digitValue ds)) ↔
      (signed negative (digitValue ds) = 1 → es = []) ∧
        (signed negative (digitValue ds) = 0 → ∀ d ∈ es, d = 48) := by
  by_cases hnil : es = []
  · subst hnil
    simp
  · have hpos := List.length_pos_iff.mpr hnil
    have hpow : 10 ≤ 10 ^ es.length := by
      calc 10 = 10 ^ 1 := rfl
        _ ≤ 10 ^ es.length := Nat.pow_le_pow_right (by norm_num) hpos
    rw [digitValue_append, ← digitValue_eq_zero_iff hes]
    generalize 10 ^ es.length = p at hpow
    generalize digitValue ds = n
    generalize digitValue es = e
    simp only [hnil, imp_false]
    obtain rfl | rfl | hn : n = 0 ∨ n = 1 ∨ 2 ≤ n := by omega
    · have h0 : levelOf (signed negative 0) = some false := by cases negative <;> rfl
      rw [h0, levelOf_eq_some]
      cases negative <;> simp [signed]
    · cases negative with
      | false =>
          have h1 : levelOf (signed false 1) = some true := rfl
          rw [h1, levelOf_eq_some]
          simp [signed]
          omega
      | true =>
          have h1 : levelOf (signed true 1) = none := rfl
          rw [h1, levelOf_eq_none]
          simp [signed]
          omega
    · have hbig : 2 ≤ n * p + e := by nlinarith
      have hother (m : ℕ) (hm : 2 ≤ m) : levelOf (signed negative m) = none := by
        rw [levelOf_eq_none, signed]
        cases negative <;> simp <;> omega
      have hne : signed negative n ≠ 1 ∧ signed negative n ≠ 0 := levelOf_eq_none.mp (hother n hn)
      simp [hother _ hbig, hother n hn, hne]

/-- What is read of a payload that is an integer. -/
theorem numeral_payload {payload : List UInt8} {z : ℤ}
    (hz : readInteger (withoutNul payload) = some z) (rest : List UInt8) :
    ∃ negative ds, z = signed negative (digitValue ds) ∧ (∀ d ∈ ds, isDigit d = true) ∧
      numeral (payload ++ rest) = (negative,
        if payload.getLast? = some 0 then ds else ds ++ rest.takeWhile isDigit) := by
  simp only [readInteger] at hz
  split at hz
  case isFalse => cases hz
  rename_i hds
  have hall : ∀ d ∈ (sign (withoutNul payload)).2, isDigit d = true := List.all_eq_true.mp hds.2
  refine ⟨_, _, (Option.some.inj hz).symm, hall, ?_⟩
  by_cases hlast : payload.getLast? = some 0
  · have hsplit : payload = withoutNul payload ++ [0] := by
      rw [withoutNul, if_pos hlast]
      exact (List.dropLast_append_getLast? 0 hlast).symm
    have hmem : payload ++ rest = withoutNul payload ++ (0 :: rest) := by
      nth_rewrite 1 [hsplit]
      simp
    have hstop : (0 :: rest : List UInt8).takeWhile isDigit = [] := rfl
    rw [if_pos hlast, hmem, numeral_append hds.1 hall, hstop, List.append_nil]
  · have hself : withoutNul payload = payload := if_neg hlast
    rw [if_neg hlast]
    rw [hself] at hds hall ⊢
    exact numeral_append hds.1 hall rest

/-- The handler does what a payload says exactly if it is clear in front of what follows it. -/
theorem commandOf_eq_meant_iff (payload rest : List UInt8) :
    commandOf (payload ++ rest) = commandMeant payload ↔ Clear payload rest := by
  cases hz : readInteger (withoutNul payload) with
  | none =>
      have hmeant : commandMeant payload = none := by rw [commandMeant, hz, Option.bind_none]
      rw [hmeant, commandOf_eq_none_iff]
      exact ⟨fun h => ⟨by simp [hz], by simp [hz], fun _ => h⟩, fun h => h.other hz⟩
  | some z =>
      obtain ⟨negative, ds, rfl, hds, hnum⟩ := numeral_payload hz rest
      rw [commandMeant, hz, Option.bind_some, commandOf_eq, hnum]
      by_cases hlast : payload.getLast? = some 0
      · rw [if_pos hlast]
        refine ⟨fun _ => ⟨fun _ => .inl hlast, fun _ => .inl hlast, ?_⟩, fun _ => rfl⟩
        intro hnone
        rw [hz] at hnone
        cases hnone
      · rw [if_neg hlast, levelOf_append_iff negative fun d hd => List.mem_takeWhile_imp hd]
        constructor
        · rintro ⟨h1, h0⟩
          refine ⟨fun h => .inr (h1 ?_), fun h => .inr (h0 ?_), fun h => ?_⟩
          · exact Option.some.inj (hz.symm.trans h)
          · exact Option.some.inj (hz.symm.trans h)
          · rw [hz] at h
            cases h
        · intro h
          refine ⟨fun h1 => ?_, fun h0 => ?_⟩
          · exact (h.one (by rw [hz, h1])).resolve_left hlast
          · exact (h.zero (by rw [hz, h0])).resolve_left hlast

/-! ### Two runs of the handler -/

/-- The number a text begins with fits an `int`. -/
def ReadsInt (mem : List UInt8) : Prop :=
  FitsInt (signed (numeral mem).1 (digitValue (numeral mem).2))

instance (mem : List UInt8) : Decidable (ReadsInt mem) := inferInstanceAs (Decidable (FitsInt _))

/-- A packet is read, with these older bytes behind it in the read buffer, and handed to the
handler, and nothing undefined is done on the way. -/
structure Handled (G : Globals) (packet rest : List UInt8) (before after : Outputs) : Prop where
  received : receivePublish packet rest = .ok (arrivedData (packet ++ rest))
  readsInt : ReadsInt (arrivedData (packet ++ rest)).message.payload
  arrived : messageArrived G (arrivedData (packet ++ rest)) before = .ok after

/-- What two runs of the handler are to leave of a pin: the same level, 1 if the payload is text
for 1, 0 if it is text for 0 and the level before if it is neither. -/
structure Understood (payload : List UInt8) (before after₁ after₂ : Bool) : Prop where
  same : after₁ = after₂
  one : readInteger (withoutNul payload) = some 1 → after₁ = true
  zero : readInteger (withoutNul payload) = some 0 → after₁ = false
  other : readInteger (withoutNul payload) ≠ some 1 → readInteger (withoutNul payload) ≠ some 0 →
    after₁ = before

theorem commandMeant_eq_some {payload : List UInt8} {b : Bool} :
    commandMeant payload = some b ↔ readInteger (withoutNul payload) = some (b.toNat : ℤ) := by
  rw [commandMeant, Option.bind_eq_some_iff]
  constructor
  · rintro ⟨z, hz, hb⟩
    rw [hz, levelOf_eq_some.mp hb]
  · intro h
    exact ⟨_, h, levelOf_eq_some.mpr rfl⟩

/-- Either run is to leave what the payload says, and the level before if it says nothing. -/
theorem understood_iff_getD {payload : List UInt8} {before after₁ after₂ : Bool} :
    Understood payload before after₁ after₂ ↔
      after₁ = (commandMeant payload).getD before ∧
        after₂ = (commandMeant payload).getD before := by
  have hone : commandMeant payload = some true ↔ readInteger (withoutNul payload) = some 1 :=
    commandMeant_eq_some
  have hzero : commandMeant payload = some false ↔ readInteger (withoutNul payload) = some 0 :=
    commandMeant_eq_some
  cases hm : commandMeant payload with
  | none =>
      have h1 : readInteger (withoutNul payload) ≠ some 1 := by simp [← hone, hm]
      have h0 : readInteger (withoutNul payload) ≠ some 0 := by simp [← hzero, hm]
      constructor
      · intro h
        exact ⟨h.other h1 h0, h.same ▸ h.other h1 h0⟩
      · rintro ⟨rfl, rfl⟩
        exact ⟨rfl, fun h => absurd h h1, fun h => absurd h h0, fun _ _ => rfl⟩
  | some b =>
      have hread : readInteger (withoutNul payload) = some (b.toNat : ℤ) :=
        commandMeant_eq_some.mp hm
      constructor
      · intro h
        have hafter : after₁ = b := by
          cases b with
          | true => exact h.one hread
          | false => exact h.zero hread
        exact ⟨hafter, h.same ▸ hafter⟩
      · rintro ⟨h₁, h₂⟩
        rw [Option.getD_some] at h₁ h₂
        rw [h₁, h₂]
        cases b with
        | true => exact ⟨rfl, fun _ => rfl, by simp [hread], by simp [hread]⟩
        | false => exact ⟨rfl, by simp [hread], fun _ => rfl, by simp [hread]⟩

theorem getD_unique {c d : Option Bool} (h : ∀ b, c.getD b = d.getD b) : c = d := by
  revert c d
  decide

/-- Said of all levels before at once, this is what the payload says by itself. -/
theorem understood_iff {payload : List UInt8} {command₁ command₂ : Option Bool} :
    (∀ before, Understood payload before (command₁.getD before) (command₂.getD before)) ↔
      command₁ = commandMeant payload ∧ command₂ = commandMeant payload := by
  simp only [understood_iff_getD]
  constructor
  · intro h
    exact ⟨getD_unique fun b => (h b).1, getD_unique fun b => (h b).2⟩
  · rintro ⟨rfl, rfl⟩ before
    exact ⟨rfl, rfl⟩

/-- Text for 1 in front of a digit left by an older packet. -/
example : commandMeant (ascii "1") = some true ∧ commandOf (ascii "1" ++ ascii "7") = none := by
  decide

section
variable {v : Value} {G : Globals} {rc : ℕ} {topic : CString} {pin : PinName}
  {dup qos retained packetid : ℕ} {payload rest₁ rest₂ : List UInt8}

/-- A message on the topic of an output leaves its pin at what the handler reads. -/
theorem messageArrived_pin {ss : List Sensor} (hG : Aligned G ss) (hout : IsOutput G rc topic pin)
    {md : MessageData} {tail : List UInt8}
    (hdata : md.topicName.lenstring.data = some (topic.bytes ++ tail)) (before : Outputs) :
    ∃ after, messageArrived G md before = .ok after ∧
      after.levels pin = (commandOf md.message.payload).getD (before.levels pin) := by
  refine ⟨_, messageArrived_eq hG before, ?_⟩
  rw [hdata, Option.getD_some]
  exact if_pos (hG.pin_reached.mpr ⟨rc, topic, hout, List.prefix_append _ _⟩)

/-- The handler takes a message for what its payload says, whatever two runs have left behind the
packet, exactly if the packet fits the read buffer and in front of both the payload is clear and
the number an `int`. -/
theorem payload_clear_iff (hv : parse v = .ok G) (hout : IsOutput G rc topic pin) (hdup : dup < 2)
    (hqos : qos ≤ 2) (hret : retained < 2) (hid : packetid < 65536) (htopic : strlen topic < 65536)
    (hlen : publishLength qos topic.bytes payload < 128 ^ 4) :
    (∀ before, ∃ after₁ after₂,
      Handled G (publishPacket dup qos retained packetid topic.bytes payload) rest₁ before after₁ ∧
      Handled G (publishPacket dup qos retained packetid topic.bytes payload) rest₂ before after₂ ∧
      Understood payload (before.levels pin) (after₁.levels pin) (after₂.levels pin)) ↔
      (publishPacket dup qos retained packetid topic.bytes payload).length ≤ MAX_MQTT_PACKET_SIZE ∧
        (ReadsInt (payload ++ rest₁) ∧ Clear payload rest₁) ∧
        (ReadsInt (payload ++ rest₂) ∧ Clear payload rest₂) := by
  obtain ⟨-, -, ss, -, -, hG⟩ := parse_ok hv
  generalize hpacket : publishPacket dup qos retained packetid topic.bytes payload = packet
  have hdata (rest : List UInt8) :=
    arrivedData_publishPacket hdup hqos hret hid htopic rest hlen
  rw [hpacket] at hdata
  have hrun (rest : List UInt8) (before : Outputs) : ∃ after,
      messageArrived G (arrivedData (packet ++ rest)) before = .ok after ∧
      after.levels pin = (commandOf (payload ++ rest)).getD (before.levels pin) := by
    have h := messageArrived_pin hG hout (by rw [(hdata rest).1]) before
    rwa [(hdata rest).2] at h
  rw [← commandOf_eq_meant_iff, ← commandOf_eq_meant_iff]
  constructor
  · intro h
    obtain ⟨_, _, h₁, h₂, -⟩ := h ⟨fun _ => false, []⟩
    have hint₁ := h₁.readsInt
    have hint₂ := h₂.readsInt
    rw [(hdata _).2] at hint₁ hint₂
    suffices hcommands : commandOf (payload ++ rest₁) = commandMeant payload ∧
        commandOf (payload ++ rest₂) = commandMeant payload from
      ⟨(receivePublish_ok_iff.mp h₁.received).1, ⟨hint₁, hcommands.1⟩, ⟨hint₂, hcommands.2⟩⟩
    rw [← understood_iff]
    intro level
    obtain ⟨after₁, after₂, h₁, h₂, hunderstood⟩ := h ⟨fun _ => level, []⟩
    obtain ⟨after₁', h₁', hl₁⟩ := hrun rest₁ ⟨fun _ => level, []⟩
    obtain ⟨after₂', h₂', hl₂⟩ := hrun rest₂ ⟨fun _ => level, []⟩
    obtain rfl : after₁ = after₁' := Except.ok.inj (h₁.arrived.symm.trans h₁')
    obtain rfl : after₂ = after₂' := Except.ok.inj (h₂.arrived.symm.trans h₂')
    rwa [hl₁, hl₂] at hunderstood
  · rintro ⟨hfits, ⟨hint₁, hcommand₁⟩, ⟨hint₂, hcommand₂⟩⟩ before
    obtain ⟨after₁, h₁, hl₁⟩ := hrun rest₁ before
    obtain ⟨after₂, h₂, hl₂⟩ := hrun rest₂ before
    refine ⟨after₁, after₂, ⟨receivePublish_ok_iff.mpr ⟨hfits, rfl⟩, ?_, h₁⟩,
      ⟨receivePublish_ok_iff.mpr ⟨hfits, rfl⟩, ?_, h₂⟩, ?_⟩
    · rwa [(hdata rest₁).2]
    · rwa [(hdata rest₂).2]
    · rw [hl₁, hl₂]
      exact understood_iff.mpr ⟨hcommand₁, hcommand₂⟩ (before.levels pin)

end

/-- One output, on `lamp`. -/
def lampAlone : Globals := globalsOf [outputSensor "lamp" .p20]

theorem isOutput_lampAlone : IsOutput lampAlone 0 (.lit "lamp") .p20 := ⟨rfl, rfl, rfl⟩

theorem payload_clear_iff_terminated :
    (∀ before, ∃ after₁ after₂,
      Handled lampAlone (publishPacket 0 0 0 0 (CString.lit "lamp").bytes [49, 0]) [55] before
        after₁ ∧
      Handled lampAlone (publishPacket 0 0 0 0 (CString.lit "lamp").bytes [49, 0]) [] before
        after₂ ∧
      Understood [49, 0] (before.levels .p20) (after₁.levels .p20) (after₂.levels .p20)) ↔
      (publishPacket 0 0 0 0 (CString.lit "lamp").bytes [49, 0]).length ≤ MAX_MQTT_PACKET_SIZE ∧
        (ReadsInt ([49, 0] ++ [55]) ∧ Clear [49, 0] [55]) ∧
        (ReadsInt ([49, 0] ++ []) ∧ Clear [49, 0] []) :=
  payload_clear_iff (v := config [element .dOut "lamp" 20]) rfl isOutput_lampAlone (by decide)
    (by decide) (by decide) (by decide) (by decide) (by decide)

/-- A payload that is no number switches an output off. -/
theorem word_switches_off :
    parse (config [element .dOut "lamp" 20]) = .ok lampAlone ∧
    readInteger (withoutNul (ascii "on")) = none ∧
    (publishPacket 0 0 0 0 (CString.lit "lamp").bytes (ascii "on")).length ≤
      MAX_MQTT_PACKET_SIZE ∧
    ¬ ∀ before, ∃ after₁ after₂,
      Handled lampAlone (publishPacket 0 0 0 0 (CString.lit "lamp").bytes (ascii "on")) [] before
        after₁ ∧
      Handled lampAlone (publishPacket 0 0 0 0 (CString.lit "lamp").bytes (ascii "on")) [] before
        after₂ ∧
      Understood (ascii "on") (before.levels .p20) (after₁.levels .p20) (after₂.levels .p20) := by
  have hnone : readInteger (withoutNul (ascii "on")) = none := by decide
  refine ⟨rfl, hnone, by decide, ?_⟩
  intro h
  obtain ⟨after₁, after₂, h₁, -, hunderstood⟩ := h ⟨fun _ => true, []⟩
  have hoff : after₁.levels .p20 = false := by
    rw [← Except.ok.inj h₁.arrived]
    rfl
  have hstays := hunderstood.other (by simp [hnone]) (by simp [hnone])
  rw [hoff] at hstays
  cases hstays

end RemotusHardware
