import RemotusHardware.Update

/-! # Incoming messages

`messageArrived` of `main.cpp`, the only handler the program attaches: a loop over the tables
that takes the payload to every `dOut` sensor whose topic `strncmp` finds at the pointer
`lenstring.data`.  The comparison is as long as the configured topic, not as the one of the
message, so that what it decides is `<+:` on the bytes from the topic on to the end of the read
buffer.

On the tables of a list of sensors no cast goes wrong (`messageArrived_eq`): a call takes the
command of the payload to the pins of the sensors in `reached`.  Every call for one message does
the same, so delivering it to one handler or to several ends alike (`deliverLoop_eq`). -/

namespace RemotusHardware

open CLib

/-! ### The handler -/

/-- What a handler changes: the levels of the output pins.  `applied` lists the indices to which
it has taken a payload. -/
structure Outputs where
  levels : Levels
  applied : List ℕ

/-- The two `if`s on `atoi((char*)message.payload)`. -/
def applyPayload (payload : List UInt8) (pin : PinName) (g : Levels) : Levels :=
  let g := if atoi payload = 1 then g.write pin true else g
  if atoi payload = 0 then g.write pin false else g

section
variable (G : Globals) (md : MessageData)

/-- The body of the loop of `messageArrived`. -/
def arrivedAt (rc : ℕ) (o : Outputs) : Except Stop Outputs := do
  if strcmp (← deref G.typesObjects rc) (.lit "dOut") = 0 then do
    let topic ← deref G.topicsMQTT rc
    if strncmp (md.topicName.lenstring.data.getD []) topic.bytes (strlen topic) = 0 then do
      let pinDigital ← (← deref G.objectsSensors rc).cast .DigitalOut
      pure ⟨applyPayload md.message.payload pinDigital.pin o.levels, o.applied ++ [rc]⟩
    else pure o
  else pure o

/-- The loop, `k` turns before its end. -/
def arrivedFrom : ℕ → ℕ → Outputs → Except Stop Outputs
  | 0, _, o => pure o
  | k + 1, rc, o => do arrivedFrom k (rc + 1) (← arrivedAt G md rc o)

def messageArrived (o : Outputs) : Except Stop Outputs := arrivedFrom G md G.numSensors 0 o

end

/-- The functions the program attaches as handlers. -/
inductive Handler where
  | messageArrived
deriving DecidableEq, Repr

/-- A call of a handler; one that has stopped is not called again. -/
def Handler.call (G : Globals) : Handler → MessageData → Except Stop Outputs → Except Stop Outputs
  | .messageArrived, md, o => do RemotusHardware.messageArrived G md (← o)

/-! ### What a call does -/

/-- The level a payload asks for. -/
def commandOf (payload : List UInt8) : Option Bool :=
  if atoi payload = 1 then some true else if atoi payload = 0 then some false else none

theorem applyPayload_eq (payload : List UInt8) (pin : PinName) (g : Levels) :
    applyPayload payload pin g = match commandOf payload with
      | some b => g.write pin b
      | none => g := by
  by_cases h1 : atoi payload = 1
  · simp [applyPayload, commandOf, h1]
  · by_cases h0 : atoi payload = 0 <;> simp [applyPayload, commandOf, h0, h1]

/-- Writing a command to a list of pins. -/
def Levels.writeAll (g : Levels) (pins : List PinName) (command : Option Bool) : Levels :=
  fun q => if q ∈ pins then command.getD (g q) else g q

@[simp] theorem Levels.writeAll_nil (g : Levels) (command : Option Bool) :
    g.writeAll [] command = g := by
  funext q
  simp [Levels.writeAll]

theorem Levels.writeAll_cons (g : Levels) (pin : PinName) (pins : List PinName)
    (payload : List UInt8) :
    (applyPayload payload pin g).writeAll pins (commandOf payload) =
      g.writeAll (pin :: pins) (commandOf payload) := by
  funext q
  rw [applyPayload_eq]
  cases commandOf payload with
  | none => simp [Levels.writeAll]
  | some b => by_cases hq : q = pin <;> simp [Levels.writeAll, Levels.write, hq]

theorem Levels.writeAll_writeAll (g : Levels) (pins : List PinName) (command : Option Bool) :
    (g.writeAll pins command).writeAll pins command = g.writeAll pins command := by
  funext q
  cases command <;> by_cases hq : q ∈ pins <;> simp [Levels.writeAll, hq]

/-- The sensors a message reaches, with their indices: those of kind `dOut` whose topic stands
at the pointer to the topic of the message. -/
def reached (mem : List UInt8) : ℕ → List Sensor → List (ℕ × Sensor)
  | _, [] => []
  | i, s :: ss =>
      if s.kind = .dOut ∧ s.topic.bytes <+: mem then (i, s) :: reached mem (i + 1) ss
      else reached mem (i + 1) ss

theorem mem_reached {mem : List UInt8} {j : ℕ} {s : Sensor} : ∀ (i : ℕ) (ss : List Sensor),
    (j, s) ∈ reached mem i ss ↔
      ∃ k, j = i + k ∧ ss[k]? = some s ∧ s.kind = .dOut ∧ s.topic.bytes <+: mem
  | _, [] => by simp [reached]
  | i, t :: ss => by
      have hstep : (j, s) ∈ reached mem i (t :: ss) ↔
          (j = i ∧ s = t ∧ t.kind = .dOut ∧ t.topic.bytes <+: mem) ∨
            (j, s) ∈ reached mem (i + 1) ss := by
        by_cases h : t.kind = .dOut ∧ t.topic.bytes <+: mem
        · simp [reached, h]
        · simp only [reached, if_neg h]
          exact ⟨.inr, fun h' => h'.elim (fun h'' => absurd h''.2.2 h) id⟩
      rw [hstep, mem_reached (i + 1) ss]
      constructor
      · rintro (⟨rfl, rfl, h⟩ | ⟨k, rfl, hk, h⟩)
        · exact ⟨0, rfl, rfl, h⟩
        · exact ⟨k + 1, by omega, by simpa using hk, h⟩
      · rintro ⟨k, rfl, hk, h⟩
        cases k with
        | zero =>
            obtain rfl : t = s := by simpa using hk
            exact .inl ⟨rfl, rfl, h⟩
        | succ k => exact .inr ⟨k, by omega, by simpa using hk, h⟩

/-- A call has taken the payload to the sensors reached. -/
def Outputs.after (o : Outputs) (payload : List UInt8) (hits : List (ℕ × Sensor)) : Outputs where
  levels := o.levels.writeAll (hits.map (·.2.object.pin)) (commandOf payload)
  applied := o.applied ++ hits.map (·.1)

section
variable {G : Globals} {md : MessageData}

/-- A turn of the loop reaches the sensor at its index or passes over it. -/
theorem arrivedAt_eq {rc : ℕ} {s : Sensor} (h : EntryOf G rc s) (o : Outputs) :
    arrivedAt G md rc o =
      .ok (if s.kind = .dOut ∧ s.topic.bytes <+: md.topicName.lenstring.data.getD [] then
          ⟨applyPayload md.message.payload s.object.pin o.levels, o.applied ++ [rc]⟩
        else o) := by
  have hd := strcmp_kind (k := s.kind) (j := .dOut) "dOut" rfl
  simp only [arrivedAt, h.type, ok_bind, hd, h.topic, strncmp_length_eq_zero_iff]
  by_cases hk : s.kind = .dOut
  · have hcast : s.object.cast .DigitalOut = .ok s.object :=
      SensorObject.cast_eq_ok.mpr ⟨by rw [s.fits, hk]; rfl, rfl⟩
    by_cases ht : s.topic.bytes <+: md.topicName.lenstring.data.getD [] <;>
      simp [hk, ht, h.object, hcast, pure, Except.pure]
  · simp [hk, pure, Except.pure]

theorem arrivedFrom_eq : ∀ (ss : List Sensor) (i : ℕ) (o : Outputs),
    (∀ j s, ss[j]? = some s → EntryOf G (i + j) s) →
    arrivedFrom G md ss.length i o =
      .ok (o.after md.message.payload (reached (md.topicName.lenstring.data.getD []) i ss))
  | [], _, o, _ => by simp [arrivedFrom, reached, Outputs.after, pure, Except.pure]
  | s :: ss, i, o, h => by
      obtain ⟨h0, hs⟩ := entries_cons h
      simp only [List.length_cons, arrivedFrom, arrivedAt_eq h0, ok_bind,
        arrivedFrom_eq ss (i + 1) _ hs, reached]
      split
      · simp [Outputs.after, Levels.writeAll_cons]
      · rfl

/-- On the tables of `ss` the handler comes to its end and has reached the sensors of
`reached`. -/
theorem messageArrived_eq {ss : List Sensor} (h : Aligned G ss) (o : Outputs) :
    messageArrived G md o =
      .ok (o.after md.message.payload (reached (md.topicName.lenstring.data.getD []) 0 ss)) := by
  rw [messageArrived, h.numSensors]
  exact arrivedFrom_eq ss 0 o fun j s hj => by simpa using h.entry hj

/-! ### Delivery to several handlers -/

/-- The slots that are given a message. -/
def receives (md : MessageData) (slot : MessageHandlers Handler) : Bool :=
  Client.handles slot md.topicName && slot.fp.isSome

theorem Handler.call_ok (h : Handler) (o : Outputs) :
    h.call G md (.ok o) = RemotusHardware.messageArrived G md o := by
  cases h; rfl

/-- A loop over the slots calls the handler once for each slot that receives the message. -/
theorem deliverLoop_eq {ss : List Sensor} (h : Aligned G ss) (md : MessageData) :
    ∀ (slots : List (MessageHandlers Handler)) (rc : ℤ) (o : Outputs),
    Client.deliverLoop (Handler.call G) md slots (rc, .ok o) =
      (if slots.any (receives md) then SUCCESS else rc,
        .ok ((fun o => o.after md.message.payload
          (reached (md.topicName.lenstring.data.getD []) 0 ss))^[slots.countP (receives md)] o))
  | [], _, _ => rfl
  | slot :: slots, rc, o => by
      cases hh : Client.handles slot md.topicName with
      | false =>
          have hr : receives md slot = false := by simp [receives, hh]
          simp [Client.deliverLoop, hh, hr, deliverLoop_eq h md slots]
      | true =>
          cases hf : slot.fp with
          | none =>
              have hr : receives md slot = false := by simp [receives, hf]
              simp [Client.deliverLoop, hh, hf, hr, deliverLoop_eq h md slots]
          | some g =>
              have hr : receives md slot = true := by simp [receives, hh, hf]
              simp [Client.deliverLoop, hh, hf, hr, Handler.call_ok, messageArrived_eq h,
                deliverLoop_eq h md slots, Function.iterate_succ]

/-- Calling the handler again changes no level and reaches no other sensor. -/
theorem after_iterate (payload : List UInt8) (hits : List (ℕ × Sensor)) : ∀ (n : ℕ) (o : Outputs),
    ((fun o : Outputs => o.after payload hits)^[n + 1] o).levels = (o.after payload hits).levels ∧
    ∀ rc, rc ∈ ((fun o : Outputs => o.after payload hits)^[n + 1] o).applied ↔
      rc ∈ (o.after payload hits).applied
  | 0, _ => ⟨rfl, fun _ => Iff.rfl⟩
  | n + 1, o => by
      obtain ⟨hl, ha⟩ := after_iterate payload hits n (o.after payload hits)
      refine ⟨?_, fun rc => ?_⟩
      · rw [Function.iterate_succ, Function.comp, hl]
        simp [Outputs.after, Levels.writeAll_writeAll]
      · rw [Function.iterate_succ, Function.comp, ha]
        simp only [Outputs.after, List.mem_append]
        tauto

end

/-! ### The tables and the functions that read them -/

/-- The entries at index `i` are those of the element `e`: its sensor name and its topic, up to
their first NUL, and the object constructed for it. -/
structure Stored (G : Globals) (i : ℕ) (e : Value) : Prop where
  type : ∃ sensor, e.field "sensor" = .string sensor ∧
    G.typesObjects[i]? = some (some (.ofMem sensor))
  topic : ∃ topic, e.field "topic" = .string topic ∧ G.topicsMQTT[i]? = some (some (.ofMem topic))
  object : ∃ sensor x p o, e.field "sensor" = .string sensor ∧ e.field "pin" = .number x ∧
    x.toInt = .ok p ∧ construct (.ofMem sensor) p e = .ok o ∧ G.objectsSensors[i]? = some (some o)

theorem forall₂_getElem? {α β : Type} {R : α → β → Prop} :
    ∀ {xs : List α} {ys : List β}, List.Forall₂ R xs ys → ∀ {i : ℕ} {x : α}, xs[i]? = some x →
      ∃ y, ys[i]? = some y ∧ R x y
  | _, _, .cons h hs, i, x, hi => by
      cases i with
      | zero =>
          obtain rfl := Option.some.inj hi
          exact ⟨_, rfl, h⟩
      | succ i => exact forall₂_getElem? hs hi

theorem Aligned.stored {G : Globals} {ss : List Sensor} (h : Aligned G ss) {i : ℕ} {s : Sensor}
    {e : Value} (hi : ss[i]? = some s) (hd : Describes e s) : Stored G i e := by
  obtain ⟨sensor, hs, hname⟩ := hd.kind
  obtain ⟨topic, ht, htopic⟩ := hd.topic
  obtain ⟨x, p, hx, hp, ho⟩ := hd.object
  refine ⟨⟨sensor, hs, ?_⟩, ⟨topic, ht, ?_⟩, ⟨sensor, x, p, s.object, hs, hx, hp, ?_, ?_⟩⟩
  · simp [h.typesObjects, hi, hname]
  · simp [h.topicsMQTT, hi, htopic]
  · rw [← hname, ho]
  · simp [h.objectsSensors, hi]

/-- After `parse` has returned, the tables hold the elements of `configSensors` in their places,
a round comes to its end with one message sent on each topic of the table, in its order, and so
does a call of the handler: no `void*` is cast to another class than its object's, however the
devices answer, whatever `send` does and whichever message arrives. -/
theorem parse_tables_dispatch {v : Value} {G : Globals} (h : parse v = .ok G) :
    ∃ list, v.field "configSensors" = .array list ∧ G.numSensors = list.length ∧
      (∀ i e, list[i]? = some e → Stored G i e) ∧
      (∀ (F : Type) (u : FloatUnit F) (r : Readings F) (temperatura humedad : F),
        ∃ texts temperatura' humedad', texts.map (fun m => some m.1) = G.topicsMQTT ∧
          ∀ (σ : Type) (send : CString → Message → σ → σ) (a : σ),
            updateSensorData u G r send ⟨temperatura, humedad, a⟩ =
              .ok ⟨temperatura', humedad', sendAll send texts a⟩) ∧
      (∀ md o, ∃ o', messageArrived G md o = .ok o') := by
  obtain ⟨-, list, sensors, hlist, hd, hG⟩ := parse_ok h
  refine ⟨list, hlist, by rw [hG.numSensors, hd.length_eq], ?_, ?_, ?_⟩
  · intro i e hi
    obtain ⟨s, hs, hes⟩ := forall₂_getElem? hd hi
    exact hG.stored hs hes
  · intro F u r temperatura humedad
    refine ⟨roundTexts u r 0 sensors (temperatura, humedad),
      (roundGlobals r 0 sensors (temperatura, humedad)).1,
      (roundGlobals r 0 sensors (temperatura, humedad)).2, ?_, fun σ send a =>
      updateSensorData_eq hG ⟨temperatura, humedad, a⟩⟩
    have htopics :=
      congrArg (List.map some) (roundTexts_topics u r 0 sensors (temperatura, humedad))
    rw [List.map_map, List.map_map] at htopics
    rw [hG.topicsMQTT]
    exact htopics
  · exact fun md o => ⟨_, messageArrived_eq hG o⟩

theorem parse_tables_dispatch_farm :
    ∃ list, farmConfig.field "configSensors" = .array list ∧
      (globalsOf farmSensors).numSensors = list.length ∧
      (∀ i e, list[i]? = some e → Stored (globalsOf farmSensors) i e) ∧
      (∀ (F : Type) (u : FloatUnit F) (r : Readings F) (temperatura humedad : F),
        ∃ texts temperatura' humedad',
          texts.map (fun m => some m.1) = (globalsOf farmSensors).topicsMQTT ∧
          ∀ (σ : Type) (send : CString → Message → σ → σ) (a : σ),
            updateSensorData u (globalsOf farmSensors) r send ⟨temperatura, humedad, a⟩ =
              .ok ⟨temperatura', humedad', sendAll send texts a⟩) ∧
      (∀ md o, ∃ o', messageArrived (globalsOf farmSensors) md o = .ok o') :=
  parse_tables_dispatch parse_farmConfig

end RemotusHardware
