import RemotusHardware.Operations

/-! # Pings and their answers

`keepalive` sends a PINGREQ when the client has neither sent nor received a packet for an interval,
unless one is outstanding already.  The books balance over any run of turns while the client's
memory is intact (`pings_ledger`): the pings that have gone out are those that were answered and
the one that may still be open.

Nothing else is done about an open ping.  On a network from which nothing comes any more every
`yield` succeeds, the client stays connected and sends one ping at most (`silence_unnoticed`). -/

namespace RemotusHardware

open CLib Wire Transition

/-! ### The books -/

/-- A PINGREQ of which the network has taken something. -/
def SentPacket.isPing (p : SentPacket) : Bool :=
  decide (p.packet = pingreqPacket) && decide (p.accepted ≠ 0)

def Net.pings (net : Net) : ℕ := net.sent.countP SentPacket.isPing

section
variable {H σ : Type}

theorem sendPacket_ping_outstanding (length : ℕ) (timer : Countdown) (c : Client H) (w : World σ) :
    (c.sendPacket length timer w).client.ping_outstanding = c.ping_outstanding := by
  unfold Client.sendPacket
  dsimp only
  split
  · rfl
  · rfl

/-- No other packet is a ping. -/
theorem sendPacket_pings {packet : List UInt8} (hpacket : packet ≠ []) (h : packet ≠ pingreqPacket)
    (timer : Countdown) (c : Client H) (w : World σ) :
    ((c.store packet).sendPacket packet.length timer w).world.net.pings = w.net.pings := by
  obtain ⟨handed, hsent, hone, -⟩ := sendPacket_handed hpacket timer c w
  have hnone : handed.countP SentPacket.isPing = 0 := by
    rcases hone with rfl | ⟨accepted, rfl⟩
    · rfl
    · simp [SentPacket.isPing, h]
  rw [Net.pings, hsent, List.countP_append, hnone, Nat.add_zero, Net.pings]

/-- A ping is sent if anything of it goes out, where no write is taken in part. -/
theorem sendPacket_ping (timer : Countdown) (c : Client H) {w : World σ}
    (hnet : w.net.AllOrNothing) :
    ((c.store pingreqPacket).sendPacket pingreqPacket.length timer w).world.net.pings =
      w.net.pings + (decide (((c.store pingreqPacket).sendPacket pingreqPacket.length timer w).rc =
        SUCCESS)).toNat := by
  obtain ⟨hworld, hrc⟩ := sendPacket_store pingreqPacket timer c w
  have hsent := Net.send_sent pingreqPacket pingreqPacket.length timer w.net
  have hall := sendLoop_allOrNothing hnet pingreqPacket.length timer w.net.now
  have hlen : pingreqPacket.length = 2 := rfl
  rw [hlen] at hall
  rw [hrc, hworld, Net.pings, hsent, List.countP_append, Net.pings, Net.send]
  congr 1
  cases hexp : timer.expired w.net.now with
  | true => simp [sendLoop_expired hexp, hlen, SUCCESS, FAILURE]
  | false =>
      rcases hall with hall | hall
      · simp [hall, hlen, SentPacket.isPing, SUCCESS, FAILURE]
      · simp [hall, hlen, SentPacket.isPing, SUCCESS]

/-- `keepalive` sends a ping if and only if it sets the flag. -/
theorem keepalive_pings (c : Client H) {w : World σ} (hnet : w.net.AllOrNothing) :
    (c.keepalive w).2.net.pings + c.ping_outstanding.toNat =
      w.net.pings + (c.keepalive w).1.ping_outstanding.toNat := by
  unfold Client.keepalive
  split
  · rfl
  · split
    · rename_i hdue
      have hopen : c.ping_outstanding = false := by
        simp only [Bool.and_eq_true, Bool.not_eq_true'] at hdue
        exact hdue.2
      have hping : MQTTSerialize_pingreq MAX_MQTT_PACKET_SIZE = some pingreqPacket := rfl
      have hsent := sendPacket_ping (.countdown_ms w.net.now 1000) c hnet
      simp only [hping]
      split
      · rename_i hsuccess
        rw [decide_eq_true hsuccess] at hsent
        rw [hsent, hopen]
        rfl
      · rename_i hfailure
        rw [decide_eq_false hfailure] at hsent
        rw [hsent, sendPacket_ping_outstanding]
        rfl
    · rfl

/-- The books of a turn: pings sent against pings answered, and the one that is open. -/
def Balanced (c : Client H) (w : World σ) (r : Result H σ) : Prop :=
  r.world.net.pings + c.ping_outstanding.toNat =
    w.net.pings + r.client.ping_outstanding.toNat +
      (decide (r.rc = PINGRESP) && c.ping_outstanding).toNat

theorem balanced_of_ne {c : Client H} {w : World σ} {r : Result H σ} (hrc : r.rc ≠ PINGRESP)
    (h : r.world.net.pings + c.ping_outstanding.toNat =
      w.net.pings + r.client.ping_outstanding.toNat) : Balanced c w r := by
  rw [Balanced, decide_eq_false hrc]
  exact h

theorem balanced_cycleEnd {packet_type : ℤ} (hne : packet_type ≠ PINGRESP) {c c' : Client H}
    {w w' : World σ} (hflag : c'.ping_outstanding = c.ping_outstanding)
    (hpings : w'.net.pings = w.net.pings) (hnet : w'.net.AllOrNothing) :
    Balanced c w (Client.cycleEnd packet_type c' w') := by
  apply balanced_of_ne (show (Client.cycleEnd packet_type c' w').rc ≠ PINGRESP from hne)
  rw [← hflag, ← hpings]
  exact keepalive_pings c' hnet

variable (call : H → MessageData → σ → σ)

/-- The flag is put down before `keepalive` looks at it. -/
theorem balanced_cycle (timer : Countdown) (c : Client H) {w : World σ}
    (hnet : w.net.AllOrNothing) : Balanced c w (c.cycle call timer w) := by
  obtain ⟨⟨readbuf, last_received, hclient⟩, hsent⟩ := readPacket_frame timer c w.net
  have hread := ((readPacket_spec timer c w.net).2.1).allOrNothing hnet
  unfold Client.cycle
  generalize c.readPacket timer w.net = s at hclient hsent hread ⊢
  obtain ⟨t, c₁, net⟩ := s
  have hflag : c₁.ping_outstanding = c.ping_outstanding := congrArg (·.ping_outstanding) hclient
  have hpings : net.pings = w.net.pings := congrArg (List.countP SentPacket.isPing) hsent
  have hnone (a : σ) : net.pings + c.ping_outstanding.toNat =
      w.net.pings + c₁.ping_outstanding.toNat := by rw [hflag, hpings]
  dsimp only
  generalize (if t < 0 then (65535 : ℤ) else t) = packet_type
  by_cases hpub : packet_type = PUBLISH
  · have hne : packet_type ≠ PINGRESP := by
      rw [hpub]
      decide
    simp only [if_pos hpub]
    generalize MQTTDeserialize_publish c₁.readbuf = f
    by_cases hrc : f.rc ≠ 1
    · simp only [if_pos hrc]
      exact balanced_of_ne hne (hnone w.app)
    · simp only [if_neg hrc]
      by_cases hqos : f.message.qos = 0
      · simp only [if_pos hqos]
        exact balanced_cycleEnd hne hflag hpings hread
      · simp only [if_neg hqos]
        cases hack : Client.acknowledge f.message.qos f.message.id with
        | none => exact balanced_of_ne (show FAILURE ≠ PINGRESP by decide) (hnone w.app)
        | some packet =>
            dsimp only
            have hsend := sendPacket_pings (acknowledge_some hack).1 (acknowledge_some hack).2 timer
              c₁ ⟨net, (c₁.deliverMessage call f.topicName f.message w.app).2⟩
            have hflag₂ := sendPacket_ping_outstanding packet.length timer (c₁.store packet)
              ⟨net, (c₁.deliverMessage call f.topicName f.message w.app).2⟩
            have hthen := (sendPacket_spec packet.length timer (c₁.store packet)
              ⟨net, (c₁.deliverMessage call f.topicName f.message w.app).2⟩).2.2.1.allOrNothing
                hread
            split
            · rename_i hfailure
              apply balanced_of_ne
              · rw [hfailure]
                decide
              · rw [hsend, hflag₂]
                exact hnone w.app
            · exact balanced_cycleEnd hne (hflag₂.trans hflag) (hsend.trans hpings) hthen
  · simp only [if_neg hpub]
    by_cases hresp : packet_type = PINGRESP
    · simp only [if_pos hresp]
      have hkeep := keepalive_pings { c₁ with ping_outstanding := false } (w := ⟨net, w.app⟩) hread
      have hrc (c₂ : Client H) (w₂ : World σ) :
          decide ((Client.cycleEnd packet_type c₂ w₂).rc = PINGRESP) = true := decide_eq_true hresp
      rw [Balanced, hrc, Bool.true_and, ← hpings]
      exact congrArg (· + _) hkeep
    · simp only [if_neg hresp]
      exact balanced_cycleEnd hresp hflag hpings hread

/-- The turn reads a PINGRESP that is waited for. -/
def answersPing (s : Client H × World σ) (timer : Countdown) : Bool :=
  decide ((s.1.cycle call timer s.2).rc = PINGRESP) && s.1.ping_outstanding

/-- Over any run of turns of a client whose memory is intact, the pings that have gone out are those
that have been answered and the one that is open; there is never a second one. -/
theorem pings_ledger {s t : Client H × World σ} {tr : List ((Client H × World σ) × Countdown)}
    (hrun : Run (ClientTurn call) s tr t) (hs : Intact s.1 s.2) :
    t.2.net.pings + s.1.ping_outstanding.toNat =
      s.2.net.pings + t.1.ping_outstanding.toNat +
        (tr.map fun p => (answersPing call p.1 p.2).toNat).sum := by
  have hintact (s : Client H × World σ) (timer : Countdown) (t : Client H × World σ)
      (hs : Intact s.1 s.2) (h : ClientTurn call s timer t) : Intact t.1 t.2 := by
    rw [h]
    exact (kept_cycle call timer s.1 s.2).intact hs
  have hstep (s : Client H × World σ) (timer : Countdown) (t : Client H × World σ)
      (h : Intact s.1 s.2 ∧ ClientTurn call s timer t) :
      t.2.net.pings + s.1.ping_outstanding.toNat =
        s.2.net.pings + t.1.ping_outstanding.toNat + (answersPing call s timer).toNat := by
    obtain ⟨hs, rfl⟩ := h
    exact balanced_cycle call timer s.1 hs.net.writes
  exact (hrun.strengthen hintact hs).ledger hstep

/-! ### Silence -/

/-- One call of `yield`, with a timeout that a timer can tell. -/
def Yields (s : Client H × World σ) (timeout_ms : ℕ) (t : Client H × World σ) : Prop :=
  timeout_ms ≤ 2147483 ∧ Operates call s (.yield timeout_ms) t

/-- In silence a turn comes down to `keepalive`, when the time is up. -/
theorem cycle_silent (timer : Countdown) (c : Client H) {w : World σ} (h : w.net.reads = []) :
    c.cycle call timer w = Client.cycleEnd 65535 c
      { w with
        net := { w.net with now := max w.net.now (timer.start + timer.interval_end_ms) } } := by
  have hread : c.readPacket timer w.net = (FAILURE, c,
      { w.net with now := max w.net.now (timer.start + timer.interval_end_ms) }) := by
    rw [Client.readPacket, show w.net.read 1 timer = (none,
      { w.net with now := max w.net.now (timer.start + timer.interval_end_ms) }) by
        simp only [Net.read, h]]
  simp only [Client.cycle, hread]
  rfl

/-- What a client has done in silence. -/
structure Silent (c : Client H) (w : World σ) (c' : Client H) (w' : World σ) : Prop where
  atWork : c.AtWork c'
  app : w'.app = w.app
  reads : w'.net.reads = []
  writes : w'.net.writes <:+ w.net.writes
  sent : ∃ pings, w'.net.sent = w.net.sent ++ pings ∧ ∀ p ∈ pings, p.packet = pingreqPacket
  balance : w.net.AllOrNothing →
    w'.net.pings + c.ping_outstanding.toNat = w.net.pings + c'.ping_outstanding.toNat

theorem Silent.trans {c₁ c₂ c₃ : Client H} {w₁ w₂ w₃ : World σ} (h : Silent c₁ w₁ c₂ w₂)
    (h' : Silent c₂ w₂ c₃ w₃) : Silent c₁ w₁ c₃ w₃ := by
  obtain ⟨pings, hsent, hpings⟩ := h.sent
  obtain ⟨pings', hsent', hpings'⟩ := h'.sent
  refine ⟨h.atWork.trans h'.atWork, h'.app.trans h.app, h'.reads, h'.writes.trans h.writes,
    ⟨pings ++ pings', ?_, ?_⟩, ?_⟩
  · rw [hsent', hsent, List.append_assoc]
  · exact List.forall_mem_append.mpr ⟨hpings, hpings'⟩
  · intro hnet
    have hbalance := h.balance hnet
    have hbalance' := h'.balance fun o ho => hnet o (h.writes.subset ho)
    omega

theorem silent_cycle (timer : Countdown) (c : Client H) {w : World σ} (h : w.net.reads = []) :
    Silent c w (c.cycle call timer w).client (c.cycle call timer w).world := by
  have hbalance (hnet : w.net.AllOrNothing) := balanced_cycle call timer c hnet
  rw [cycle_silent call timer c h] at hbalance ⊢
  obtain ⟨pings, hwrote, hpings⟩ := keepalive_wrote c
    { w with net := { w.net with now := max w.net.now (timer.start + timer.interval_end_ms) } }
  exact ⟨hwrote.atWork, hwrote.app, hwrote.reads.trans h, hwrote.writes,
    ⟨pings, hwrote.sent, hpings⟩, hbalance⟩

theorem silent_refl (c : Client H) {w : World σ} (h : w.net.reads = []) : Silent c w c w :=
  ⟨.refl c, rfl, h, List.suffix_refl _, ⟨[], by simp⟩, fun _ => rfl⟩

/-- In silence a yield is one turn, if it is given any time. -/
theorem yield_silent {timeout_ms : ℕ} (ht : 0 < timeout_ms) (c : Client H) {w : World σ}
    (h : w.net.reads = []) :
    c.yield call timeout_ms w =
      ⟨SUCCESS, (c.cycle call (.countdown_ms w.net.now timeout_ms) w).client,
        (c.cycle call (.countdown_ms w.net.now timeout_ms) w).world⟩ := by
  have hnow : (Countdown.countdown_ms w.net.now timeout_ms).expired w.net.now = false := by
    simp only [Countdown.expired, Countdown.countdown_ms, Nat.sub_self, decide_eq_false_iff_not]
    omega
  have hprogress := (cycle_spec call (.countdown_ms w.net.now timeout_ms) c w).2.2
  have hthen : (Countdown.countdown_ms w.net.now timeout_ms).expired
      (c.cycle call (.countdown_ms w.net.now timeout_ms) w).world.net.now = true :=
    hprogress.resolve_left (by rw [h]; exact Nat.not_lt_zero _)
  have hrc := (cycle_idle call (.countdown_ms w.net.now timeout_ms) c h).2.2.1
  rw [Client.yield, h, List.length_nil, Nat.zero_add, Client.yieldLoop, hnow,
    if_neg Bool.false_ne_true]
  dsimp only
  rw [if_neg hrc, Client.yieldLoop, hthen, if_pos rfl]

theorem yield_zero (c : Client H) (w : World σ) : c.yield call 0 w = ⟨SUCCESS, c, w⟩ := by
  rw [Client.yield, Client.yieldLoop, if_pos (by simp [Countdown.expired, Countdown.countdown_ms])]

theorem silent_yield (timeout_ms : ℕ) (c : Client H) {w : World σ} (h : w.net.reads = []) :
    (c.yield call timeout_ms w).rc = SUCCESS ∧
      Silent c w (c.yield call timeout_ms w).client (c.yield call timeout_ms w).world := by
  rcases Nat.eq_zero_or_pos timeout_ms with rfl | ht
  · rw [yield_zero]
    exact ⟨rfl, silent_refl c h⟩
  · rw [yield_silent call ht c h]
    exact ⟨rfl, silent_cycle call _ c h⟩

/-- A packet has gone out and one has come in within the interval, or a ping is open. -/
def Client.Watched (c : Client H) (now : ℕ) : Prop :=
  c.keepAliveInterval = 0 ∨ c.ping_outstanding = true ∨
    (c.last_sent.expired now = false ∧ c.last_received.expired now = false)

/-- The timers of `keepalive`, if they are looked at, have not come round at a time. -/
def Client.Punctual (c : Client H) (now : ℕ) : Prop :=
  c.keepAliveInterval = 0 ∨ c.ping_outstanding = true ∨
    (now ≤ c.last_sent.start + 2147483 ∧ now ≤ c.last_received.start + 2147483)

instance (c : Client H) (now : ℕ) : Decidable (c.Punctual now) :=
  inferInstanceAs (Decidable (_ ∨ _ ∨ _))

/-- What `keepalive` is for: it does what it should if the network takes the ping. -/
theorem keepalive_watched (c : Client H) {w : World σ} (hfull : w.net.Full) :
    (c.keepalive w).1.Watched (c.keepalive w).2.net.now := by
  unfold Client.keepalive
  split
  · rename_i hzero
    exact .inl hzero
  · split
    · have hping : MQTTSerialize_pingreq MAX_MQTT_PACKET_SIZE = some pingreqPacket := rfl
      have htime : (Countdown.countdown_ms w.net.now 1000).expired w.net.now = false := by
        simp [Countdown.expired, Countdown.countdown_ms]
      have hsuccess := sendPacket_success (show pingreqPacket ≠ [] by decide) (c := c) hfull htime
      simp only [hping]
      rw [if_pos hsuccess]
      exact .inr (.inl rfl)
    · rename_i hdue
      cases hopen : c.ping_outstanding with
      | true => exact .inr (.inl hopen)
      | false =>
          rw [hopen, Bool.not_false, Bool.and_true, Bool.or_eq_true, not_or] at hdue
          exact .inr (.inr
            ⟨Bool.eq_false_of_not_eq_true hdue.1, Bool.eq_false_of_not_eq_true hdue.2⟩)

theorem yield_watched {timeout_ms : ℕ} (ht : 0 < timeout_ms) (c : Client H) {w : World σ}
    (h : w.net.reads = []) (hfull : w.net.Full) :
    (c.yield call timeout_ms w).client.Watched (c.yield call timeout_ms w).world.net.now := by
  rw [yield_silent call ht c h, cycle_silent call _ c h]
  exact keepalive_watched c hfull

/-- On a network from which nothing comes, over any number of yields and whatever becomes of what
is written: every `yield` succeeds, the client stays what it was, and the pings it has sent are one
at most, where no write is taken in part.  It did look, in any yield that is given time: if the
network takes what is written, a ping is open in the end unless a packet has gone out and one has
come in within the interval. -/
theorem silence_unnoticed {s t : Client H × World σ} {tr : List ((Client H × World σ) × ℕ)}
    (hrun : Run (Yields call) s tr t) (hs : s.2.net.reads = []) :
    (∀ p ∈ tr, (p.1.1.yield call p.2 p.1.2).rc = SUCCESS) ∧ Silent s.1 s.2 t.1 t.2 ∧
      (s.2.net.Full → tr ≠ [] →
        (∀ p ∈ tr, 0 < p.2 ∧ p.1.1.Punctual (p.1.2.net.now + p.2)) → t.1.Watched t.2.net.now) := by
  induction hrun with
  | nil s => exact ⟨by simp, silent_refl s.1 hs, fun _ hne => absurd rfl hne⟩
  | @cons s t u timeout_ms tr hstep hrest ih =>
      have hyield : s.1.yield call timeout_ms s.2 =
        ⟨(s.1.yield call timeout_ms s.2).rc, t.1, t.2⟩ := hstep.2
      obtain ⟨hrc, hsilent⟩ := silent_yield call timeout_ms s.1 hs
      rw [hyield] at hsilent
      obtain ⟨hall, hsilent', hwatched⟩ := ih hsilent.reads
      refine ⟨List.forall_mem_cons.mpr ⟨hrc, hall⟩, hsilent.trans hsilent', ?_⟩
      intro hfull _ hpunctual
      obtain ⟨hfirst, hlater⟩ := List.forall_mem_cons.mp hpunctual
      cases hrest with
      | nil =>
          have hlast := yield_watched call hfirst.1 s.1 hs hfull
          rw [hyield] at hlast
          exact hlast
      | cons h hrest =>
          exact hwatched (fun o ho => hfull o (hsilent.writes.subset ho)) (List.cons_ne_nil _ _)
            hlater

end

/-! ### Three silent minutes -/

def silence : Client Unit × World ℕ := (listener, ⟨⟨0, [], [], []⟩, 0⟩)

def afterMinute (s : Client Unit × World ℕ) : Client Unit × World ℕ :=
  ((s.1.yield countMessages 60000 s.2).client, (s.1.yield countMessages 60000 s.2).world)

theorem yields_minute (s : Client Unit × World ℕ) : Yields countMessages s 60000 (afterMinute s) :=
  ⟨by decide, rfl⟩

theorem silence_unnoticed_threeMinutes :
    (silence.1.yield countMessages 60000 silence.2).rc = SUCCESS ∧
      Silent silence.1 silence.2 (afterMinute (afterMinute (afterMinute silence))).1
        (afterMinute (afterMinute (afterMinute silence))).2 ∧
      (afterMinute (afterMinute (afterMinute silence))).1.Watched 180000 ∧
      (afterMinute (afterMinute (afterMinute silence))).2.net.sent = [⟨pingreqPacket, 2⟩] :=
  have h := silence_unnoticed countMessages (.cons (yields_minute silence)
    (.cons (yields_minute _) (.single (yields_minute _)))) rfl
  ⟨h.1 _ List.mem_cons_self, h.2.1,
    h.2.2 (by simp [Net.Full, silence]) (List.cons_ne_nil _ _) (by decide), by decide⟩

/-- The state behind a turn of a second. -/
def afterTurn (s : Client Unit × World ℕ) : Client Unit × World ℕ :=
  ((s.1.cycle countMessages (.countdown_ms s.2.net.now 1000) s.2).client,
    (s.1.cycle countMessages (.countdown_ms s.2.net.now 1000) s.2).world)

theorem turns_after (s : Client Unit × World ℕ) :
    ClientTurn countMessages s (.countdown_ms s.2.net.now 1000) (afterTurn s) := rfl

/-- A ping is open when a PINGRESP comes in. -/
def pinged : Client Unit × World ℕ := ({ listener with ping_outstanding := true }, twoArrivalsWorld)

theorem pinged_intact : Intact pinged.1 pinged.2 where
  buffers := ⟨by decide, by decide, by decide, by decide, by decide⟩
  net := listening_intact.net

theorem pings_ledger_pinged :
    (afterTurn (afterTurn pinged)).2.net.pings + 1 =
        (afterTurn (afterTurn pinged)).1.ping_outstanding.toNat + 1 ∧
      (afterTurn pinged).1.ping_outstanding = false :=
  ⟨(pings_ledger countMessages (.cons (turns_after pinged) (.single (turns_after _)))
    pinged_intact).trans (by decide), by decide⟩

end RemotusHardware
