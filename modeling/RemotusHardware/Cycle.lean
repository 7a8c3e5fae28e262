import RemotusHardware.Client

/-! # What a turn of the client keeps

The network only moves forward: time passes, what the network is going to do is used up and what
has been written stays written (`Net.Later`).  A client at work changes its buffers, timers and
the ping flag; it never disconnects, subscribes or changes its settings by itself (`Keeps`).  Both
hold of sending a packet, of reading one, of `keepalive` and so of `cycle`.

Every cycle either uses up one of the reads to come or waits until its timer has expired
(`cycle_progress`).  So the loops of `waitfor` and `yield` end by themselves, and the number of
turns they are given here is never what ends them (`waitforLoop_fuel`, `yieldLoop_fuel`). -/

namespace RemotusHardware

open CLib

/-! ### The network moves forward -/

structure Net.Later (net net' : Net) : Prop where
  now : net.now ≤ net'.now
  reads : net'.reads <:+ net.reads
  writes : net'.writes <:+ net.writes
  sent : net.sent <+: net'.sent

theorem Net.Later.refl (net : Net) : net.Later net :=
  ⟨le_rfl, List.suffix_refl _, List.suffix_refl _, List.prefix_refl _⟩

theorem Net.Later.trans {n₁ n₂ n₃ : Net} (h : n₁.Later n₂) (h' : n₂.Later n₃) : n₁.Later n₃ :=
  ⟨h.now.trans h'.now, h'.reads.trans h.reads, h'.writes.trans h.writes, h.sent.trans h'.sent⟩

theorem sendLoop_later (length : ℕ) (timer : Countdown) :
    ∀ (writes : List WriteOutcome) (now sent : ℕ),
      now ≤ (sendLoop length timer writes now sent).2.1 ∧
        (sendLoop length timer writes now sent).1 <:+ writes
  | [], _, _ => ⟨le_rfl, List.suffix_refl _⟩
  | w :: ws, now, sent => by
      unfold sendLoop
      split
      · split
        · exact ⟨Nat.le_add_right _ _, List.suffix_cons _ _⟩
        · obtain ⟨h₁, h₂⟩ := sendLoop_later length timer ws (now + w.elapsed) (sent + _)
          exact ⟨(Nat.le_add_right _ _).trans h₁, h₂.trans (List.suffix_cons _ _)⟩
      · exact ⟨le_rfl, List.suffix_refl _⟩

/-- What is handed to the network goes to the end of the record. -/
theorem Net.send_sent (packet : List UInt8) (length : ℕ) (timer : Countdown) (net : Net) :
    (net.send packet length timer).2.sent = net.sent ++
      if timer.expired net.now then []
      else [⟨packet, (sendLoop length timer net.writes net.now 0).2.2⟩] := by
  unfold Net.send
  dsimp only
  split
  · rw [List.append_nil]
  · rfl

theorem sendLoop_expired {timer : Countdown} {now : ℕ} (h : timer.expired now = true)
    (length : ℕ) (writes : List WriteOutcome) (sent : ℕ) :
    sendLoop length timer writes now sent = (writes, now, sent) := by
  cases writes <;> simp [sendLoop, h]

/-- The network takes a write in full or not at all. -/
def Net.AllOrNothing (net : Net) : Prop :=
  ∀ o ∈ net.writes, o.accepted = .full ∨ o.accepted = .error

theorem Net.Later.allOrNothing {net net' : Net} (h : net.Later net') (hnet : net.AllOrNothing) :
    net'.AllOrNothing := fun o ho => hnet o (h.writes.subset ho)

theorem sendLoop_allOrNothing {writes : List WriteOutcome}
    (h : ∀ o ∈ writes, o.accepted = .full ∨ o.accepted = .error) (length : ℕ) (timer : Countdown)
    (now : ℕ) : (sendLoop length timer writes now 0).2.2 = 0 ∨
      (sendLoop length timer writes now 0).2.2 = length := by
  cases writes with
  | nil =>
      simp only [sendLoop, Nat.zero_add]
      split
      · exact .inr rfl
      · exact .inl rfl
  | cons o os =>
      unfold sendLoop
      split
      · rcases h o List.mem_cons_self with ho | ho
        · rw [ho]
          dsimp only [Accepted.count]
          right
          cases os <;> simp [sendLoop]
        · rw [ho]
          exact .inl rfl
      · exact .inl rfl

theorem Net.send_later (packet : List UInt8) (length : ℕ) (timer : Countdown) (net : Net) :
    net.Later (net.send packet length timer).2 := by
  obtain ⟨h₁, h₂⟩ := sendLoop_later length timer net.writes net.now 0
  refine ⟨h₁, List.suffix_refl _, h₂, ?_⟩
  rw [Net.send_sent]
  exact List.prefix_append _ _

theorem Net.send_reads (packet : List UInt8) (length : ℕ) (timer : Countdown) (net : Net) :
    (net.send packet length timer).2.reads = net.reads := rfl

theorem Net.read_later (len : ℕ) (timer : Countdown) (net : Net) :
    net.Later (net.read len timer).2 := by
  unfold Net.read
  split
  · exact ⟨le_max_left _ _, List.suffix_refl _, List.suffix_refl _, List.prefix_refl _⟩
  · rename_i o os h
    exact ⟨Nat.le_add_right _ _, by rw [h]; exact List.suffix_cons _ _, List.suffix_refl _,
      List.prefix_refl _⟩

/-- A read uses up an outcome, or the time of its timer. -/
theorem Net.read_progress (len : ℕ) (timer : Countdown) (net : Net) :
    (net.read len timer).2.reads.length < net.reads.length ∨
      timer.expired (net.read len timer).2.now = true := by
  unfold Net.read
  split
  · right
    simp only [Countdown.expired, decide_eq_true_eq]
    omega
  · rename_i o os h
    left
    rw [h]
    exact Nat.lt_succ_self _

theorem Countdown.expired_mono {timer : Countdown} {now now' : ℕ} (h : now ≤ now')
    (he : timer.expired now = true) : timer.expired now' = true := by
  simp only [Countdown.expired, decide_eq_true_eq] at he ⊢
  omega

theorem Net.Later.progress {net net₁ net₂ : Net} {timer : Countdown} (h : net₁.Later net₂)
    (hp : net₁.reads.length < net.reads.length ∨ timer.expired net₁.now = true) :
    net₂.reads.length < net.reads.length ∨ timer.expired net₂.now = true := by
  rcases hp with hp | hp
  · exact .inl (lt_of_le_of_lt h.reads.length_le hp)
  · exact .inr (Countdown.expired_mono h.now hp)

/-! ### The client keeps what it is -/

section
variable {H σ : Type}

/-- The second client is the first one, at work for a while. -/
structure Client.Keeps (c c' : Client H) : Prop where
  isconnected : c'.isconnected = c.isconnected
  messageHandlers : c'.messageHandlers = c.messageHandlers
  command_timeout_ms : c'.command_timeout_ms = c.command_timeout_ms

theorem Client.Keeps.refl (c : Client H) : c.Keeps c := ⟨rfl, rfl, rfl⟩

theorem Client.Keeps.trans {c₁ c₂ c₃ : Client H} (h : c₁.Keeps c₂) (h' : c₂.Keeps c₃) :
    c₁.Keeps c₃ :=
  ⟨h'.isconnected.trans h.isconnected, h'.messageHandlers.trans h.messageHandlers,
    h'.command_timeout_ms.trans h.command_timeout_ms⟩

theorem store_keeps (c : Client H) (packet : List UInt8) : c.Keeps (c.store packet) :=
  ⟨rfl, rfl, rfl⟩

theorem sendPacket_spec (length : ℕ) (timer : Countdown) (c : Client H) (w : World σ) :
    c.Keeps (c.sendPacket length timer w).client ∧
      (c.sendPacket length timer w).client.readbuf = c.readbuf ∧
      w.net.Later (c.sendPacket length timer w).world.net ∧
      (c.sendPacket length timer w).world.net.reads = w.net.reads := by
  have hlater := Net.send_later (c.sendbuf.take length) length timer w.net
  have hreads := Net.send_reads (c.sendbuf.take length) length timer w.net
  unfold Client.sendPacket
  generalize w.net.send (c.sendbuf.take length) length timer = s at hlater hreads ⊢
  obtain ⟨ok, net⟩ := s
  cases ok with
  | true => exact ⟨⟨rfl, rfl, rfl⟩, rfl, hlater, hreads⟩
  | false => exact ⟨Client.Keeps.refl c, rfl, hlater, hreads⟩

/-- A packet at the start of `sendbuf` is the one that is handed to the network. -/
theorem sendPacket_store (packet : List UInt8) (timer : Countdown) (c : Client H) (w : World σ) :
    ((c.store packet).sendPacket packet.length timer w).world =
        { w with net := (w.net.send packet packet.length timer).2 } ∧
      ((c.store packet).sendPacket packet.length timer w).rc =
        if (w.net.send packet packet.length timer).1 then SUCCESS else FAILURE := by
  have hstored : (c.store packet).sendbuf.take packet.length = packet :=
    overwrite_zero_take c.sendbuf packet
  rw [Client.sendPacket, hstored]
  generalize w.net.send packet packet.length timer = s
  obtain ⟨ok, net⟩ := s
  cases ok <;> exact ⟨rfl, rfl⟩

/-- It is handed over once, or not at all, and sent exactly if just its bytes are taken. -/
theorem sendPacket_handed {packet : List UInt8} (hpacket : packet ≠ []) (timer : Countdown)
    (c : Client H) (w : World σ) :
    ∃ handed, ((c.store packet).sendPacket packet.length timer w).world.net.sent =
        w.net.sent ++ handed ∧
      (handed = [] ∨ ∃ accepted, handed = [⟨packet, accepted⟩]) ∧
      (((c.store packet).sendPacket packet.length timer w).rc = SUCCESS ↔
        handed = [⟨packet, packet.length⟩]) := by
  have hpos := List.length_pos_iff.mpr hpacket
  obtain ⟨hworld, hrc⟩ := sendPacket_store packet timer c w
  refine ⟨_, by rw [hworld]; exact Net.send_sent packet packet.length timer w.net, ?_⟩
  rw [hrc, Net.send]
  cases hexp : timer.expired w.net.now with
  | true =>
      have hne : 0 ≠ packet.length := hpos.ne
      rw [sendLoop_expired hexp]
      simp [hne, SUCCESS, FAILURE]
  | false =>
      generalize sendLoop packet.length timer w.net.writes w.net.now 0 = s
      by_cases hall : s.2.2 = packet.length
      · simp [hall]
      · simp [hall, SUCCESS, FAILURE]

theorem keepalive_spec (c : Client H) (w : World σ) :
    c.Keeps (c.keepalive w).1 ∧ (c.keepalive w).1.readbuf = c.readbuf ∧
      w.net.Later (c.keepalive w).2.net ∧ (c.keepalive w).2.net.reads = w.net.reads := by
  unfold Client.keepalive
  split
  · exact ⟨Client.Keeps.refl c, rfl, Net.Later.refl _, rfl⟩
  · split
    · split
      · exact ⟨Client.Keeps.refl c, rfl, Net.Later.refl _, rfl⟩
      · rename_i packet _
        obtain ⟨hk, hb, hl, hr⟩ := sendPacket_spec packet.length (.countdown_ms w.net.now 1000)
          (c.store packet) w
        have hk := (store_keeps c packet).trans hk
        dsimp only
        split
        · exact ⟨⟨hk.isconnected, hk.messageHandlers, hk.command_timeout_ms⟩, hb, hl, hr⟩
        · exact ⟨hk, hb, hl, hr⟩
    · exact ⟨Client.Keeps.refl c, rfl, Net.Later.refl _, rfl⟩

theorem cycleEnd_spec (packet_type : ℤ) (c : Client H) (w : World σ) :
    (Client.cycleEnd packet_type c w).rc = packet_type ∧
      c.Keeps (Client.cycleEnd packet_type c w).client ∧
      (Client.cycleEnd packet_type c w).client.readbuf = c.readbuf ∧
      w.net.Later (Client.cycleEnd packet_type c w).world.net :=
  ⟨rfl, (keepalive_spec c w).1, (keepalive_spec c w).2.1, (keepalive_spec c w).2.2.1⟩

theorem decodePacket_later (timer : Countdown) : ∀ (k value multiplier : ℕ) (net : Net),
    net.Later (Client.decodePacket timer k value multiplier net).2
  | 0, _, _, net => Net.Later.refl net
  | k + 1, value, multiplier, net => by
      have hread := Net.read_later 1 timer net
      unfold Client.decodePacket
      generalize net.read 1 timer = s at hread ⊢
      obtain ⟨data, net₁⟩ := s
      split
      · rename_i c net₂ h
        obtain ⟨-, rfl⟩ := Prod.mk.inj h
        dsimp only
        split
        · exact hread.trans (decodePacket_later timer k _ _ _)
        · exact hread
      · rename_i net₂ _ h
        obtain ⟨-, rfl⟩ := Prod.mk.inj h
        exact hread

theorem readPacket_spec (timer : Countdown) (c : Client H) (net : Net) :
    c.Keeps (c.readPacket timer net).2.1 ∧ net.Later (c.readPacket timer net).2.2 ∧
      ((c.readPacket timer net).2.2.reads.length < net.reads.length ∨
        timer.expired (c.readPacket timer net).2.2.now = true) := by
  have hread := Net.read_later 1 timer net
  have hprogress := Net.read_progress 1 timer net
  unfold Client.readPacket
  generalize net.read 1 timer = s at hread hprogress ⊢
  obtain ⟨data, net₁⟩ := s
  split
  · rename_i b net₂ h
    obtain ⟨-, rfl⟩ := Prod.mk.inj h
    have hdecode := decodePacket_later timer 4 0 1 net₁
    generalize Client.decodePacket timer 4 0 1 net₁ = s at hdecode ⊢
    obtain ⟨rem_len, net₂⟩ := s
    have hlater : net₁.Later net₂ := hdecode
    dsimp only
    by_cases hrem : 0 < rem_len
    · simp only [if_pos hrem]
      have hbody := Net.read_later rem_len timer net₂
      generalize net₂.read rem_len timer = s at hbody ⊢
      obtain ⟨data, net₃⟩ := s
      have hlater := hlater.trans hbody
      cases data with
      | none => exact ⟨⟨rfl, rfl, rfl⟩, hread.trans hlater, hlater.progress hprogress⟩
      | some data =>
          dsimp only
          split
          · exact ⟨⟨rfl, rfl, rfl⟩, hread.trans hlater, hlater.progress hprogress⟩
          · exact ⟨⟨rfl, rfl, rfl⟩, hread.trans hlater, hlater.progress hprogress⟩
    · simp only [if_neg hrem]
      exact ⟨⟨rfl, rfl, rfl⟩, hread.trans hlater, hlater.progress hprogress⟩
  · rename_i net₂ _ h
    obtain ⟨-, rfl⟩ := Prod.mk.inj h
    exact ⟨Client.Keeps.refl c, hread, hprogress⟩

variable (call : H → MessageData → σ → σ)

/-- A cycle keeps the client what it is, and gets somewhere. -/
theorem cycle_spec (timer : Countdown) (c : Client H) (w : World σ) :
    c.Keeps (c.cycle call timer w).client ∧ w.net.Later (c.cycle call timer w).world.net ∧
      ((c.cycle call timer w).world.net.reads.length < w.net.reads.length ∨
        timer.expired (c.cycle call timer w).world.net.now = true) := by
  obtain ⟨hk, hl, hp⟩ := readPacket_spec timer c w.net
  unfold Client.cycle
  generalize c.readPacket timer w.net = s at hk hl hp ⊢
  obtain ⟨t, c₁, net⟩ := s
  have hend (packet_type : ℤ) {c₂ : Client H} (w₂ : World σ) (hk₂ : c₁.Keeps c₂)
      (hl₂ : net.Later w₂.net) :
      c.Keeps (Client.cycleEnd packet_type c₂ w₂).client ∧
        w.net.Later (Client.cycleEnd packet_type c₂ w₂).world.net ∧
        ((Client.cycleEnd packet_type c₂ w₂).world.net.reads.length < w.net.reads.length ∨
          timer.expired (Client.cycleEnd packet_type c₂ w₂).world.net.now = true) := by
    obtain ⟨-, hk₃, -, hl₃⟩ := cycleEnd_spec packet_type c₂ w₂
    have hl₄ := hl₂.trans hl₃
    exact ⟨hk.trans (hk₂.trans hk₃), hl.trans hl₄, hl₄.progress hp⟩
  dsimp only
  generalize (if t < 0 then (65535 : ℤ) else t) = packet_type
  by_cases hpub : packet_type = PUBLISH
  · simp only [if_pos hpub]
    generalize MQTTDeserialize_publish c₁.readbuf = f
    by_cases hrc : f.rc ≠ 1
    · simp only [if_pos hrc]
      exact ⟨hk, hl, hp⟩
    · simp only [if_neg hrc]
      by_cases hqos : f.message.qos = 0
      · simp only [if_pos hqos]
        exact hend _ _ (Client.Keeps.refl c₁) (Net.Later.refl net)
      · simp only [if_neg hqos]
        cases Client.acknowledge f.message.qos f.message.id with
        | none => exact ⟨hk, hl, hp⟩
        | some packet =>
            dsimp only
            obtain ⟨hk₂, -, hl₂, -⟩ := sendPacket_spec packet.length timer (c₁.store packet)
              { net := net, app := (c₁.deliverMessage call f.topicName f.message w.app).2 }
            have hk₂ := (store_keeps c₁ packet).trans hk₂
            split
            · exact ⟨hk.trans hk₂, hl.trans hl₂, hl₂.progress hp⟩
            · exact hend _ _ hk₂ hl₂
  · simp only [if_neg hpub]
    split
    · exact hend _ _ ⟨rfl, rfl, rfl⟩ (Net.Later.refl net)
    · exact hend _ _ (Client.Keeps.refl c₁) (Net.Later.refl net)

theorem cycle_progress {timer : Countdown} {c : Client H} {w : World σ}
    (h : timer.expired (c.cycle call timer w).world.net.now = false) :
    (c.cycle call timer w).world.net.reads.length < w.net.reads.length :=
  (cycle_spec call timer c w).2.2.resolve_right (by simp [h])

/-! ### The loops end by themselves -/

theorem waitforLoop_fuel (packet_type : ℕ) (timer : Countdown) : ∀ (j k : ℕ) (r : Result H σ),
    r.world.net.reads.length + 2 ≤ j → r.world.net.reads.length + 2 ≤ k →
      Client.waitforLoop call packet_type timer j r = Client.waitforLoop call packet_type timer k r
  | 0, _, _, hj, _ => by omega
  | _, 0, _, _, hk => by omega
  | j + 1, k + 1, r, hj, hk => by
      unfold Client.waitforLoop
      split
      · rfl
      · dsimp only
        split
        · rfl
        · cases hexp : timer.expired (r.client.cycle call timer r.world).world.net.now with
          | true =>
              have hlast (n : ℕ) : Client.waitforLoop call packet_type timer n
                  (r.client.cycle call timer r.world) = r.client.cycle call timer r.world := by
                cases n with
                | zero => rfl
                | succ n => rw [Client.waitforLoop, hexp, if_pos rfl]
              rw [hlast, hlast]
          | false =>
              have := cycle_progress call hexp
              exact waitforLoop_fuel packet_type timer j k _ (by omega) (by omega)

theorem yieldLoop_fuel (timer : Countdown) : ∀ (j k : ℕ) (c : Client H) (w : World σ),
    w.net.reads.length + 2 ≤ j → w.net.reads.length + 2 ≤ k →
      Client.yieldLoop call timer j c w = Client.yieldLoop call timer k c w
  | 0, _, _, _, hj, _ => by omega
  | _, 0, _, _, _, hk => by omega
  | j + 1, k + 1, c, w, hj, hk => by
      unfold Client.yieldLoop
      split
      · rfl
      · dsimp only
        split
        · rfl
        · cases hexp : timer.expired (c.cycle call timer w).world.net.now with
          | true =>
              have hlast (n : ℕ) : Client.yieldLoop call timer n (c.cycle call timer w).client
                  (c.cycle call timer w).world =
                  ⟨SUCCESS, (c.cycle call timer w).client, (c.cycle call timer w).world⟩ := by
                cases n with
                | zero => rfl
                | succ n => rw [Client.yieldLoop, hexp, if_pos rfl]
              rw [hlast, hlast]
          | false =>
              have := cycle_progress call hexp
              exact yieldLoop_fuel timer j k _ _ (by omega) (by omega)

end

end RemotusHardware
