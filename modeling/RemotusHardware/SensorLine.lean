import RemotusHardware.Base.Transition
import RemotusHardware.Thermometer

/-! # The line of a temperature sensor

`readData` of the class `DHT` in time.  A pin has a level at every microsecond, the program waits
and samples; a read takes no time.  What it samples is what the untimed program of
`Thermometer.lean` reads (`readDataAt_readData`).

A device answers with a low and a high pulse and sends forty bits; a bit is a low phase and a high
one, which is longer than 40 microseconds for a 1.  Within wide limits its timing does not matter:
the answer is taken for the first bit, the last bit is never sampled, and so a frame with a valid
checksum is received exactly if its checksum is even (`readDataAt_answers`).  The readings are at
any time those of the last frame with an even checksum (`readings_run`). -/

namespace RemotusHardware

open CLib Transition

/-! ### The program in time -/

/-- A program that waits and reads a pin; its state is the time in microseconds. -/
abbrev TimedReader := StateT ℕ (Except eError)

namespace Timed

def wait_us (us : ℕ) : TimedReader Unit := fun now => .ok ((), now + us)

def wait_ms (ms : ℕ) : TimedReader Unit := wait_us (ms * 1000)

section
variable (line : ℕ → Bool)

def DHT_io : TimedReader Bool := fun now => .ok (line now, now)

/-- `do { if (retryCount > k-1) return err; retryCount++; wait_us(us); } while (DHT_io==level)` -/
def await (err : eError) (level : Bool) (us : ℕ) : ℕ → TimedReader Unit
  | 0 => fun _ => .error err
  | k + 1 => do
      wait_us us
      if (← DHT_io line) = level then await err level us k else pure ()

/-- `while (DHT_io == 1 && count < k) { wait_us(1); count++; }` -/
def skipPulse : ℕ → TimedReader Unit
  | 0 => do
      let _ ← DHT_io line
      pure ()
  | k + 1 => do
      if (← DHT_io line) = true then do
        wait_us 1
        skipPulse k
      else pure ()

def readBit : TimedReader Bool := do
  await line .ERROR_DATA_TIMEOUT false 1 76
  wait_us 40
  let bit ← DHT_io line
  skipPulse line 100
  pure bit

def readBits : ℕ → TimedReader (List Bool)
  | 0 => pure []
  | k + 1 => do
      let bit ← readBit line
      let bits ← readBits k
      pure (bit :: bits)

/-- While the program pulls the pin down itself it does not read it. -/
def exchange : TimedReader (List Bool) := do
  await line .BUS_BUSY false 2 126
  wait_ms 18
  wait_us 40
  await line .ERROR_NOT_PRESENT true 1 41
  wait_us 80
  readBits line 40

end

end Timed

section
variable {F : Type} (u : FloatUnit F)

def DHT.readDataAt (line : ℕ → Bool) (start : ℕ) (currentTime : ℤ) (d : DHT F) :
    eError × DHT F :=
  if d._firsttime = false ∧ currentTime - d._lastReadTime < 2 then (.ERROR_NO_PATIENCE, d)
  else
    let d :=
      if d._firsttime then { d with _firsttime := false, _lastReadTime := currentTime } else d
    match Timed.exchange line start with
    | .error err => (err, d)
    | .ok (bitTimes, _) => d.receive u currentTime (frameOf bitTimes)

end

/-! ### What it samples -/

/-- Started at any time, the timed program does what the other does on the levels it samples. -/
def Samples {α : Type} (p : PinReader α) (q : TimedReader α) : Prop :=
  ∀ now, ∃ seen : List Bool, ∀ rest, p (.appendStream' seen rest) =
    match q now with
    | .ok (a, _) => .ok (a, rest)
    | .error err => .error err

theorem Samples.pure {α : Type} (a : α) : Samples (pure a) (pure a) := fun _ => ⟨[], fun _ => rfl⟩

theorem Samples.bind {α β : Type} {p : PinReader α} {q : TimedReader α} {f : α → PinReader β}
    {g : α → TimedReader β} (hp : Samples p q) (hf : ∀ a, Samples (f a) (g a)) :
    Samples (p >>= f) (q >>= g) := by
  intro now
  obtain ⟨seen, hseen⟩ := hp now
  change ∃ seen : List Bool, ∀ rest, (p (.appendStream' seen rest) >>= fun s => f s.1 s.2) =
    match (q now >>= fun s => g s.1 s.2) with
    | .ok (a, _) => .ok (a, rest)
    | .error err => .error err
  cases hq : q now with
  | error err =>
      refine ⟨seen, fun rest => ?_⟩
      rw [hseen, hq]
      rfl
  | ok s =>
      obtain ⟨a, now'⟩ := s
      obtain ⟨seen', hseen'⟩ := hf a now'
      refine ⟨seen ++ seen', fun rest => ?_⟩
      rw [Stream'.append_append_stream, hseen, hq]
      exact hseen' rest

/-- Waiting is not seen. -/
theorem Samples.wait {α : Type} {p : PinReader α} {q : TimedReader α} (h : Samples p q) (us : ℕ) :
    Samples p (Timed.wait_us us >>= fun _ => q) := fun now => h (now + us)

section
variable (line : ℕ → Bool)

theorem samples_DHT_io : Samples DHT_io (Timed.DHT_io line) := fun now => ⟨[line now], fun _ => rfl⟩

theorem samples_await (err : eError) (level : Bool) (us k : ℕ) :
    Samples (await err level k) (Timed.await line err level us k) := by
  induction k with
  | zero => exact fun now => ⟨[], fun rest => rfl⟩
  | succ k ih =>
      apply Samples.wait
      apply (samples_DHT_io line).bind
      intro l
      split
      · exact ih
      · exact .pure ()

theorem samples_skipPulse (k : ℕ) : Samples (skipPulse (k + 1)) (Timed.skipPulse line k) := by
  induction k with
  | zero =>
      apply (samples_DHT_io line).bind
      intro l
      split
      · exact .pure ()
      · exact .pure ()
  | succ k ih =>
      apply (samples_DHT_io line).bind
      intro l
      split
      · exact ih.wait 1
      · exact .pure ()

theorem samples_readBit : Samples readBit (Timed.readBit line) := by
  apply (samples_await line .ERROR_DATA_TIMEOUT false 1 76).bind
  intro _
  apply Samples.wait
  apply (samples_DHT_io line).bind
  intro bit
  exact (samples_skipPulse line 100).bind fun _ => .pure bit

theorem samples_readBits (k : ℕ) : Samples (readBits k) (Timed.readBits line k) := by
  induction k with
  | zero => exact .pure []
  | succ k ih =>
      apply (samples_readBit line).bind
      intro bit
      exact ih.bind fun bits => .pure _

theorem samples_exchange : Samples exchange (Timed.exchange line) := by
  apply (samples_await line .BUS_BUSY false 2 126).bind
  intro _
  apply Samples.wait
  apply Samples.wait
  apply (samples_await line .ERROR_NOT_PRESENT true 1 41).bind
  intro _
  apply Samples.wait
  exact samples_readBits line 40

/-- The timed read is a read of the levels it samples. -/
theorem readDataAt_readData {F : Type} (u : FloatUnit F) (d : DHT F) (start : ℕ) (currentTime : ℤ) :
    ∃ levels, d.readDataAt u line start currentTime = d.readData u currentTime levels := by
  obtain ⟨seen, hseen⟩ := samples_exchange line start
  refine ⟨.appendStream' seen (Stream'.const true), ?_⟩
  rw [DHT.readDataAt, DHT.readData, hseen]
  cases Timed.exchange line start with
  | error err => rfl
  | ok s => rfl

end

/-! ### What a device sends -/

/-- The level after `t` microseconds of these phases; then nobody pulls the line down. -/
def levelAt : List (Bool × ℕ) → ℕ → Bool
  | [], _ => true
  | (level, duration) :: phases, t => if t < duration then level else levelAt phases (t - duration)

/-- From some time on the line goes through these phases. -/
def From (line : ℕ → Bool) (now : ℕ) (phases : List (Bool × ℕ)) : Prop :=
  ∀ t, line (now + t) = levelAt phases t

section
variable {line : ℕ → Bool} {now : ℕ} {phases : List (Bool × ℕ)} {level : Bool} {duration : ℕ}

theorem From.shows (h : From line now ((level, duration) :: phases)) {t : ℕ} (ht : t < duration) :
    line (now + t) = level := by
  rw [h t, levelAt, if_pos ht]

/-- A phase has passed in part. -/
theorem From.part (h : From line now ((level, duration) :: phases)) {t : ℕ} (ht : t ≤ duration) :
    From line (now + t) ((level, duration - t) :: phases) := by
  intro k
  rw [Nat.add_assoc, h (t + k), levelAt, levelAt]
  by_cases hk : t + k < duration
  · rw [if_pos hk, if_pos (by omega)]
  · rw [if_neg hk, if_neg (by omega)]
    congr 1
    omega

theorem From.next (h : From line now ((level, duration) :: phases)) :
    From line (now + duration) phases := by
  intro k
  rw [Nat.add_assoc, h (duration + k), levelAt, if_neg (by omega), Nat.add_sub_cancel_left]

theorem From.none (h : From line now phases) (level : Bool) :
    From line now ((level, 0) :: phases) := by
  intro t
  rw [h t, levelAt, if_neg (Nat.not_lt_zero t), Nat.sub_zero]

/-! ### Waiting for a level -/

/-- The wait ends with the first sample of the other level. -/
theorem await_ok (err : eError) (level : Bool) (us : ℕ) : ∀ (k m now : ℕ), 1 ≤ m → m ≤ k →
    (∀ j, 1 ≤ j → j < m → line (now + j * us) = level) → line (now + m * us) ≠ level →
      Timed.await line err level us k now = .ok ((), now + m * us)
  | 0, m, now, hm, hk, _, _ => absurd (hm.trans hk) (by decide)
  | k + 1, m, now, hm, hk, hsame, hother => by
      change (if line (now + us) = level then Timed.await line err level us k else pure ())
        (now + us) = _
      rcases Nat.eq_or_lt_of_le hm with rfl | hlt
      · rw [Nat.one_mul] at hother ⊢
        rw [if_neg hother]
        rfl
      · have hfirst := hsame 1 le_rfl hlt
        rw [Nat.one_mul] at hfirst
        rw [if_pos hfirst]
        have hshift (j : ℕ) : now + us + j * us = now + (j + 1) * us := by ring
        have hm' : m - 1 + 1 = m := by omega
        have hrest := await_ok err level us k (m - 1) (now + us) (by omega) (by omega)
          (fun j hj hjm => by rw [hshift]; exact hsame (j + 1) (by omega) (by omega))
          (by rw [hshift, hm']; exact hother)
        rw [hrest, hshift, hm']

theorem skipPulse_low (h : line now = false) (k : ℕ) :
    Timed.skipPulse line k now = .ok ((), now) := by
  cases k with
  | zero => rfl
  | succ k =>
      change (if line now = true then (do Timed.wait_us 1; Timed.skipPulse line k) else
        pure () : TimedReader Unit) now = _
      rw [if_neg (by rw [h]; decide)]
      rfl

theorem skipPulse_high (h : line now = true) (k : ℕ) :
    Timed.skipPulse line (k + 1) now = Timed.skipPulse line k (now + 1) := by
  change (if line now = true then (do Timed.wait_us 1; Timed.skipPulse line k) else
    pure () : TimedReader Unit) now = _
  rw [if_pos h]
  rfl

/-- The rest of a pulse is skipped. -/
theorem skipPulse_ok (m : ℕ) : ∀ {k now : ℕ}, m ≤ k → (∀ j < m, line (now + j) = true) →
    line (now + m) = false → Timed.skipPulse line k now = .ok ((), now + m) := by
  induction m with
  | zero => exact fun _ _ hlow => skipPulse_low hlow _
  | succ m ih =>
      intro k now hk hhigh hlow
      obtain ⟨k, rfl⟩ : ∃ j, k = j + 1 := ⟨k - 1, by omega⟩
      have hshift (j : ℕ) : now + 1 + j = now + (j + 1) := by omega
      have hfirst : line now = true := hhigh 0 (Nat.succ_pos m)
      rw [skipPulse_high hfirst, ih (by omega)
        (fun j hj => by rw [hshift]; exact hhigh (j + 1) (by omega)) (by rw [hshift]; exact hlow),
        hshift]

/-! ### Bits -/

/-- A bit is read off the length of its pulse; afterwards the program is in the next low phase, at
its start or a good deal later. -/
theorem readBit_from {q high low : ℕ} (hq : q ≤ 75) (hhigh : 1 ≤ high ∧ high ≤ 140)
    (hlow : 41 ≤ low ∧ low ≤ 76)
    (h : From line (now + 1) ((false, q) :: (true, high) :: (false, low) :: phases)) :
    ∃ now' q', q' ≤ 75 ∧
      Timed.readBit line now = .ok (decide (40 < high), now') ∧
      From line (now' + 1) ((false, q') :: phases) := by
  have hpulse := h.next
  have hgap := hpulse.next
  have hawait : Timed.await line .ERROR_DATA_TIMEOUT false 1 76 now = .ok ((), now + (q + 1)) := by
    have hok := @await_ok line .ERROR_DATA_TIMEOUT false 1 76 (q + 1) now (by omega)
      (by omega) (fun j hj hjq => by
        have hl := h.shows (t := j - 1) (by omega)
        rwa [show now + 1 + (j - 1) = now + j * 1 by omega] at hl)
      (by
        have hl := hpulse.shows (t := 0) (by omega)
        rw [show now + 1 + q + 0 = now + (q + 1) * 1 by omega] at hl
        rw [hl]
        decide)
    rwa [Nat.mul_one] at hok
  have hread : Timed.readBit line now = (Timed.skipPulse line 100 (now + (q + 1) + 40) >>= fun s =>
      .ok (line (now + (q + 1) + 40), s.2)) := by
    change (Timed.await line .ERROR_DATA_TIMEOUT false 1 76 now >>= fun s =>
      (Timed.skipPulse line 100 (s.2 + 40) >>= fun t => .ok (line (s.2 + 40), t.2))) = _
    rw [hawait]
    rfl
  by_cases hlong : 40 < high
  · have hsample : line (now + (q + 1) + 40) = true := by
      have hl := hpulse.shows (t := 40) hlong
      rwa [show now + 1 + q + 40 = now + (q + 1) + 40 by omega] at hl
    have hskip := @skipPulse_ok line (high - 40) 100 (now + (q + 1) + 40) (by omega)
      (fun j hj => by
        have hl := hpulse.shows (t := 40 + j) (by omega)
        rwa [show now + 1 + q + (40 + j) = now + (q + 1) + 40 + j by omega] at hl)
      (by
        have hl := hgap.shows (t := 0) (by omega)
        rwa [show now + 1 + q + high + 0 = now + (q + 1) + 40 + (high - 40) by omega] at hl)
    refine ⟨now + (q + 1) + 40 + (high - 40), low - 1, by omega, ?_, ?_⟩
    · rw [hread, hskip, hsample, decide_eq_true hlong]
      rfl
    · have hrest := hgap.part (t := 1) (by omega)
      rwa [show now + 1 + q + high + 1 = now + (q + 1) + 40 + (high - 40) + 1 by omega] at hrest
  · have hsample (t : ℕ) (ht : t < low) : line (now + 1 + q + high + t) = false := hgap.shows ht
    have hat : now + (q + 1) + 40 = now + 1 + q + high + (40 - high) := by omega
    have hskip := @skipPulse_low line (now + (q + 1) + 40)
      (by rw [hat]; exact hsample _ (by omega)) 100
    refine ⟨now + (q + 1) + 40, low - (40 - high) - 1, by omega, ?_, ?_⟩
    · rw [hread, hskip, decide_eq_false hlong]
      rw [hat, hsample _ (by omega)]
      rfl
    · have hrest := hgap.part (t := 40 - high + 1) (by omega)
      rwa [show now + 1 + q + high + (40 - high + 1) = now + (q + 1) + 40 + 1 by omega,
        Nat.sub_add_eq] at hrest

/-- A bit on the line: a low phase, then a high one. -/
structure Pulse where
  low : ℕ
  high : ℕ

def Pulse.bit (p : Pulse) : Bool := decide (40 < p.high)

/-- The program tolerates these lengths. -/
def Pulse.Timely (p : Pulse) : Prop := 41 ≤ p.low ∧ p.low ≤ 76 ∧ 1 ≤ p.high ∧ p.high ≤ 140

def phasesOf (pulses : List Pulse) : List (Bool × ℕ) :=
  pulses.flatMap fun p => [(false, p.low), (true, p.high)]

theorem readBits_from (last : Pulse) (hlast : last.Timely) : ∀ (bits : List Pulse) {now q high : ℕ},
    (∀ p ∈ bits, p.Timely) → q ≤ 75 → 1 ≤ high ∧ high ≤ 140 →
      From line (now + 1) ((false, q) :: (true, high) :: phasesOf (bits ++ [last])) →
      ∃ now', Timed.readBits line (bits.length + 1) now =
        .ok (decide (40 < high) :: bits.map Pulse.bit, now')
  | [], now, q, high, _, hq, hhigh, h => by
      obtain ⟨now', q', -, hbit, -⟩ := readBit_from hq hhigh ⟨hlast.1, hlast.2.1⟩ h
      refine ⟨now', ?_⟩
      change (Timed.readBit line now >>= fun s => .ok ([s.1], s.2)) = _
      rw [hbit]
      rfl
  | p :: bits, now, q, high, hbits, hq, hhigh, h => by
      obtain ⟨hp, hbits⟩ := List.forall_mem_cons.mp hbits
      obtain ⟨now', q', hq', hbit, hnext⟩ := readBit_from hq hhigh ⟨hp.1, hp.2.1⟩ h
      obtain ⟨now'', hrest⟩ := readBits_from last hlast bits hbits hq' hp.2.2 hnext
      refine ⟨now'', ?_⟩
      change (Timed.readBit line now >>= fun s =>
        (Timed.readBits line (bits.length + 1) s.2 >>= fun t => .ok (s.1 :: t.1, t.2))) = _
      rw [hbit]
      change (Timed.readBits line (bits.length + 1) now' >>= fun t =>
        .ok (decide (40 < high) :: t.1, t.2)) = _
      rw [hrest]
      rfl

end

/-! ### Frames -/

theorem Frame.bits_length (frame : Frame) : frame.bits.length = 40 := by simp [Frame.bits]

theorem samples_eq (frame : Frame) : samples frame = true :: frame.bits.take 39 := by
  rw [samples, Frame.bits, ← List.map_take, List.take_range]
  rfl

theorem Frame.received_of_even {frame : Frame} (h : frame.EvenChecksum) :
    frame.received = frame := by
  funext i
  unfold received
  split
  · rename_i hi
    rw [hi]
    have hbyte : ∀ n : Fin 256, (n : ℕ) % 2 = 0 → UInt8.ofNat n &&& 0xFE = UInt8.ofNat n := by
      decide +kernel
    simpa using hbyte ⟨(frame 4).toNat, (frame 4).toNat_lt⟩ h
  · rfl

theorem Frame.received_even (frame : Frame) : frame.received.EvenChecksum := by
  have hbyte : ∀ n : Fin 256, (UInt8.ofNat n &&& 0xFE).toNat % 2 = 0 := by decide +kernel
  simpa [EvenChecksum, received] using hbyte ⟨(frame 4).toNat, (frame 4).toNat_lt⟩

/-- The last bit makes no difference to the samples. -/
theorem samples_received (frame : Frame) : samples frame.received = samples frame := by
  unfold samples
  congr 1
  apply List.map_congr_left
  intro n hn
  have hn := List.mem_range.mp hn
  by_cases hbyte : Fin.ofNat 5 (n / 8) = 4
  · have hlast : n / 8 = 4 := by
      have := congrArg Fin.val hbyte
      simp only [Fin.ofNat_eq_cast, Fin.val_natCast] at this
      change n / 8 % 5 = 4 at this
      omega
    have hand : ∀ b : Fin 256, ∀ k < 7, (UInt8.ofNat b &&& 0xFE).toNat.testBit (7 - k) =
        (UInt8.ofNat b).toNat.testBit (7 - k) := by
      decide +kernel
    have hbit := hand ⟨(frame 4).toNat, (frame 4).toNat_lt⟩ (n % 8) (by omega)
    rw [hbyte]
    simpa [Frame.received] using hbit
  · rw [Frame.received, if_neg hbyte]

theorem frameOf_bits (b : Bool) (frame : Frame) :
    frameOf (b :: frame.bits.take 39) = frame.received := by
  have hfirst : frameOf (b :: frame.bits.take 39) = frameOf (samples frame) := by
    rw [samples_eq]
    funext i
    apply byteOf_congr
    intro j _
    rw [List.getD_cons_succ, List.getD_cons_succ]
  rw [hfirst, ← samples_received, frameOf_samples frame.received_even]

/-! ### The answer -/

/-- How a device answers: it lets the line be, pulls it down and lets it go.  Its first low phase
may have begun while the program still held the line. -/
structure Answer where
  idle : ℕ
  low : ℕ
  high : ℕ

def Answer.Timely (a : Answer) : Prop :=
  a.idle ≤ 41 ∧ 2 ≤ a.low ∧ a.low ≤ 156 ∧ 1 ≤ a.high ∧ a.high ≤ 140 ∧ 83 ≤ a.low + a.high

/-- A device is on the line that answers a program started at `start` and sends the frame. -/
def SendsFrame (line : ℕ → Bool) (start : ℕ) (frame : Frame) : Prop :=
  line (start + 2) = true ∧ ∃ (a : Answer) (pulses : List Pulse),
    a.Timely ∧ (∀ p ∈ pulses, p.Timely) ∧ pulses.map Pulse.bit = frame.bits ∧
      From line (start + 18042)
        ((true, a.idle) :: (false, a.low) :: (true, a.high) :: phasesOf pulses)

section
variable {line : ℕ → Bool} {start : ℕ} {frame : Frame}

/-- The answer is found, and is taken for a bit. -/
theorem exchange_answers (h : SendsFrame line start frame) :
    ∃ b now', Timed.exchange line start = .ok (b :: frame.bits.take 39, now') := by
  obtain ⟨hidle, a, pulses, ⟨ha₁, ha₂, ha₃, ha₄, ha₅, ha₆⟩, hpulses, hbits, hline⟩ := h
  have hbusy : Timed.await line .BUS_BUSY false 2 126 start = .ok ((), start + 1 * 2) :=
    await_ok .BUS_BUSY false 2 126 1 start le_rfl (by decide) (fun j hj hj' => by omega)
      (by rw [show start + 1 * 2 = start + 2 by omega, hidle]; decide)
  have hlow := hline.next
  have hhigh := hlow.next
  have hpresent : Timed.await line .ERROR_NOT_PRESENT true 1 41 (start + 18042) =
      .ok ((), start + 18042 + max 1 a.idle * 1) := by
    apply await_ok _ _ _ _ _ _ (le_max_left _ _) (by omega)
    · intro j hj hjm
      have hl := hline.shows (t := j) (by omega)
      rwa [Nat.mul_one]
    · have hl := hlow.shows (t := max 1 a.idle - a.idle) (by omega)
      rw [show start + 18042 + a.idle + (max 1 a.idle - a.idle) =
        start + 18042 + max 1 a.idle * 1 by omega] at hl
      rw [hl]
      decide
  have hnow : ∃ q high, q ≤ 75 ∧ (1 ≤ high ∧ high ≤ 140) ∧
      From line (start + 18042 + max 1 a.idle * 1 + 80 + 1)
        ((false, q) :: (true, high) :: phasesOf pulses) := by
    by_cases hstill : max 1 a.idle - a.idle + 81 ≤ a.low
    · have hrest := hlow.part hstill
      refine ⟨a.low - (max 1 a.idle - a.idle + 81), a.high, by omega, by omega, ?_⟩
      rwa [show start + 18042 + a.idle + (max 1 a.idle - a.idle + 81) =
        start + 18042 + max 1 a.idle * 1 + 80 + 1 by omega] at hrest
    · have hrest := hhigh.part (t := max 1 a.idle - a.idle + 81 - a.low) (by omega)
      refine ⟨0, a.high - (max 1 a.idle - a.idle + 81 - a.low), by omega, by omega, ?_⟩
      rw [show start + 18042 + a.idle + a.low + (max 1 a.idle - a.idle + 81 - a.low) =
        start + 18042 + max 1 a.idle * 1 + 80 + 1 by omega] at hrest
      exact hrest.none false
  obtain ⟨q, high, hq, hhigh', hfrom⟩ := hnow
  have hlength : pulses.length = 40 := by rw [← frame.bits_length, ← hbits, List.length_map]
  obtain ⟨bits, last, rfl⟩ : ∃ bits last, pulses = bits ++ [last] :=
    ⟨pulses.dropLast, pulses.getLast (List.ne_nil_of_length_pos (by omega)),
      (List.dropLast_append_getLast _).symm⟩
  obtain ⟨hbitsTimely, hlast⟩ := List.forall_mem_append.mp hpulses
  obtain ⟨now', hread⟩ := readBits_from last (hlast last List.mem_cons_self) bits hbitsTimely hq
    hhigh' hfrom
  have hn : bits.length = 39 := by
    rw [List.length_append, List.length_singleton] at hlength
    omega
  have htake : bits.map Pulse.bit = frame.bits.take 39 := by
    rw [← hbits, List.map_append, ← hn, ← List.length_map (f := Pulse.bit), List.take_left]
  refine ⟨decide (40 < high), now', ?_⟩
  rw [hn, htake] at hread
  change (Timed.await line .BUS_BUSY false 2 126 start >>= fun s =>
    (Timed.await line .ERROR_NOT_PRESENT true 1 41 (s.2 + 18 * 1000 + 40) >>= fun s =>
      Timed.readBits line 40 (s.2 + 80))) = _
  rw [hbusy]
  change (Timed.await line .ERROR_NOT_PRESENT true 1 41 (start + 1 * 2 + 18 * 1000 + 40) >>=
      fun s => Timed.readBits line 40 (s.2 + 80)) = _
  rw [show start + 1 * 2 + 18 * 1000 + 40 = start + 18042 by omega, hpresent]
  exact hread

end

/-! ### Reads -/

section
variable {F : Type} (u : FloatUnit F)

/-- The first read, or two seconds after the last one that counted. -/
def DHT.Patient (d : DHT F) (currentTime : ℤ) : Prop :=
  d._firsttime = true ∨ 2 ≤ currentTime - d._lastReadTime

instance (d : DHT F) (currentTime : ℤ) : Decidable (d.Patient currentTime) :=
  inferInstanceAs (Decidable (_ ∨ _))

/-- The object on its way to a read. -/
def DHT.begun (d : DHT F) (currentTime : ℤ) : DHT F :=
  if d._firsttime then { d with _firsttime := false, _lastReadTime := currentTime } else d

theorem DHT.begun_frame (d : DHT F) (currentTime : ℤ) :
    (d.begun currentTime)._DHTtype = d._DHTtype ∧ (d.begun currentTime)._firsttime = false ∧
      (d.begun currentTime)._lastTemperature = d._lastTemperature ∧
      (d.begun currentTime)._lastHumidity = d._lastHumidity := by
  unfold begun
  split
  · exact ⟨rfl, rfl, rfl, rfl⟩
  · rename_i h
    exact ⟨rfl, Bool.eq_false_of_not_eq_true h, rfl, rfl⟩

theorem DHT.readDataAt_impatient {d : DHT F} {currentTime : ℤ} (h : ¬ d.Patient currentTime)
    (line : ℕ → Bool) (start : ℕ) :
    d.readDataAt u line start currentTime = (.ERROR_NO_PATIENCE, d) := by
  rw [Patient, not_or] at h
  rw [readDataAt, if_pos ⟨Bool.eq_false_of_not_eq_true h.1, by omega⟩]

theorem DHT.readDataAt_patient {d : DHT F} {currentTime : ℤ} (h : d.Patient currentTime)
    (line : ℕ → Bool) (start : ℕ) :
    d.readDataAt u line start currentTime =
      match Timed.exchange line start with
      | .error err => (err, d.begun currentTime)
      | .ok (bitTimes, _) => (d.begun currentTime).receive u currentTime (frameOf bitTimes) := by
  have hgo : ¬ (d._firsttime = false ∧ currentTime - d._lastReadTime < 2) := by
    rintro ⟨hfirst, hsoon⟩
    rcases h with h | h
    · rw [h] at hfirst
      cases hfirst
    · omega
  rw [readDataAt, if_neg hgo]
  rfl

/-- Of a frame with a valid checksum all but the last bit is received. -/
theorem checksum_received_iff {frame : Frame} (h : DHT.Checksum frame) :
    DHT.Checksum frame.received ↔ frame.EvenChecksum := by
  constructor
  · intro hreceived
    have hsame : (frame.received 4).toNat = (frame 4).toNat := hreceived.trans h.symm
    rw [Frame.EvenChecksum, ← hsame]
    exact frame.received_even
  · intro heven
    rwa [frame.received_of_even heven]

/-- A device answers and sends a frame with a valid checksum: the read succeeds, with the readings
of the frame, exactly if the checksum is even. -/
theorem readDataAt_answers {d : DHT F} (hd : d._DHTtype = 22) {currentTime : ℤ}
    (hpatient : d.Patient currentTime) {line : ℕ → Bool} {start : ℕ} {frame : Frame}
    (hline : SendsFrame line start frame) (hsum : DHT.Checksum frame) :
    ((d.readDataAt u line start currentTime).1 = .ERROR_NONE ↔ frame.EvenChecksum) ∧
      (frame.EvenChecksum →
        (d.readDataAt u line start currentTime).2.ReadTemperature = u.lit frame.degrees ∧
        (d.readDataAt u line start currentTime).2.ReadHumidity = u.lit frame.humidity) ∧
      (¬ frame.EvenChecksum →
        (d.readDataAt u line start currentTime).1 = .ERROR_CHECKSUM ∧
        (d.readDataAt u line start currentTime).2.ReadTemperature = d.ReadTemperature ∧
        (d.readDataAt u line start currentTime).2.ReadHumidity = d.ReadHumidity) := by
  obtain ⟨b, now', hexchange⟩ := exchange_answers hline
  obtain ⟨htype, -, htemperature, hhumidity⟩ := d.begun_frame currentTime
  have hread : d.readDataAt u line start currentTime =
      (d.begun currentTime).receive u currentTime frame.received := by
    rw [DHT.readDataAt_patient u hpatient, hexchange]
    dsimp only
    rw [frameOf_bits]
  rw [hread]
  by_cases heven : frame.EvenChecksum
  · rw [frame.received_of_even heven]
    have hreport := (DHT.receive_report u (htype.trans hd) currentTime hsum).2
    have hreceive : (d.begun currentTime).receive u currentTime frame =
        (.ERROR_NONE, ((d.begun currentTime).receive u currentTime frame).2) := by
      rw [DHT.receive, if_pos hsum]
    refine ⟨iff_of_true (congrArg Prod.fst hreceive) heven, fun _ => ⟨hreport, ?_⟩,
      fun hodd => absurd heven hodd⟩
    rw [DHT.receive, if_pos hsum]
    simp only [DHT.ReadHumidity, DHT.CalcHumidity, htype.trans hd, Frame.humidity]
    rfl
  · have hbad : ¬ DHT.Checksum frame.received := fun h => heven ((checksum_received_iff hsum).mp h)
    have hfailed : eError.ERROR_CHECKSUM ≠ .ERROR_NONE := by decide
    rw [DHT.receive, if_neg hbad]
    exact ⟨iff_of_false (fun h => absurd h hfailed) heven, fun h => absurd h heven,
      fun _ => ⟨rfl, htemperature, hhumidity⟩⟩

/-! ### Runs of reads -/

/-- A call of `readData`: what the line does, when the call is made, by the microsecond and by the
clock, and what the device on the line sends. -/
structure Poll where
  line : ℕ → Bool
  start : ℕ
  currentTime : ℤ
  frame : Frame

def DHT.polled (d : DHT F) (p : Poll) : eError × DHT F :=
  d.readDataAt u p.line p.start p.currentTime

def Polls (d : DHT F) (p : Poll) (d' : DHT F) : Prop := d' = (d.polled u p).2

/-- The read has returned 0. -/
def DHT.succeeds (p : DHT F × Poll) : Bool := decide ((p.1.polled u p.2).1 = .ERROR_NONE)

theorem DHT.succeeds_iff (d : DHT F) (p : Poll) :
    DHT.succeeds u (d, p) = true ↔ (d.polled u p).1 = .ERROR_NONE := decide_eq_true_iff

theorem Timed.exchange_saysWhy (line : ℕ → Bool) (start : ℕ) :
    Timed.exchange line start ≠ .error .ERROR_NONE := by
  intro h
  obtain ⟨seen, hseen⟩ := samples_exchange line start
  apply RemotusHardware.exchange_saysWhy (.appendStream' seen (Stream'.const true))
  rw [hseen, h]

theorem polled_type (d : DHT F) (p : Poll) : (d.polled u p).2._DHTtype = d._DHTtype := by
  have htype := (d.begun_frame p.currentTime).1
  by_cases h : d.Patient p.currentTime
  · rw [DHT.polled, DHT.readDataAt_patient u h]
    split
    · exact htype
    · rw [DHT.receive]
      split
      · exact htype
      · exact htype
  · rw [DHT.polled, DHT.readDataAt_impatient u h]

/-- What a read does to the time of the last one that counted. -/
theorem polled_times (d : DHT F) (p : Poll) :
    (d.polled u p).2._firsttime = false ∧
      ((d.polled u p).1 = .ERROR_NONE →
        (d._firsttime = true ∨ d._lastReadTime + 2 ≤ p.currentTime) ∧
        (d.polled u p).2._lastReadTime = p.currentTime) ∧
      ((d.polled u p).1 ≠ .ERROR_NONE → d._firsttime = false →
        (d.polled u p).2._lastReadTime = d._lastReadTime) := by
  obtain ⟨-, hfirst, -, -⟩ := d.begun_frame p.currentTime
  have hlast (h : d._firsttime = false) :
      (d.begun p.currentTime)._lastReadTime = d._lastReadTime := by
    rw [DHT.begun, h]
    rfl
  by_cases h : d.Patient p.currentTime
  · rw [DHT.polled, DHT.readDataAt_patient u h]
    have hpatient : d._firsttime = true ∨ d._lastReadTime + 2 ≤ p.currentTime :=
      h.imp_right fun h => by omega
    split
    · rename_i err herr
      have hne : err ≠ .ERROR_NONE := by
        rintro rfl
        exact Timed.exchange_saysWhy _ _ herr
      exact ⟨hfirst, fun h => absurd h hne, fun _ => hlast⟩
    · rw [DHT.receive]
      split
      · exact ⟨hfirst, fun _ => ⟨hpatient, rfl⟩, fun h => absurd rfl h⟩
      · exact ⟨hfirst, fun h => absurd h (show eError.ERROR_CHECKSUM ≠ .ERROR_NONE by decide),
          fun _ => hlast⟩
  · rw [DHT.polled, DHT.readDataAt_impatient u h]
    rw [DHT.Patient, not_or] at h
    exact ⟨Bool.eq_false_of_not_eq_true h.1,
      fun h => absurd h (show eError.ERROR_NO_PATIENCE ≠ .ERROR_NONE by decide), fun _ _ => rfl⟩

/-- Whatever the lines do, reads that succeed are two seconds of the clock apart. -/
theorem successes_apart {s t : DHT F} {tr : List (DHT F × Poll)} (hrun : Run (Polls u) s tr t) :
    ((tr.filter (DHT.succeeds u)).map (·.2.currentTime)).IsChain fun a b => a + 2 ≤ b := by
  have hlater : ∀ {s t : DHT F} {tr : List (DHT F × Poll)}, Run (Polls u) s tr t →
      s._firsttime = false →
      (s._lastReadTime :: (tr.filter (DHT.succeeds u)).map (·.2.currentTime)).IsChain
        fun a b => a + 2 ≤ b := by
    intro s t tr hrun
    induction hrun with
    | nil => exact fun _ => .singleton _
    | @cons s t u' p tr hst _ ih =>
        intro hs
        obtain ⟨hfirst, hsuccess, hfailure⟩ := polled_times u s p
        rw [← hst] at hfirst hsuccess hfailure
        by_cases hok : (s.polled u p).1 = .ERROR_NONE
        · obtain ⟨hpatient, htime⟩ := hsuccess hok
          rw [List.filter_cons_of_pos ((DHT.succeeds_iff u s p).mpr hok), List.map_cons]
          refine .cons_cons (hpatient.resolve_left (by rw [hs]; decide)) ?_
          rw [← htime]
          exact ih hfirst
        · rw [List.filter_cons_of_neg (mt (DHT.succeeds_iff u s p).mp hok), ← hfailure hok hs]
          exact ih hfirst
  cases hrun with
  | nil => exact .nil
  | @cons _ t _ p tr hst hrest =>
      obtain ⟨hfirst, hsuccess, -⟩ := polled_times u s p
      rw [← hst] at hfirst hsuccess
      have hchain := hlater hrest hfirst
      by_cases hok : (s.polled u p).1 = .ERROR_NONE
      · rw [List.filter_cons_of_pos ((DHT.succeeds_iff u s p).mpr hok), List.map_cons,
          ← (hsuccess hok).2]
        exact hchain
      · rw [List.filter_cons_of_neg (mt (DHT.succeeds_iff u s p).mp hok)]
        exact hchain.tail

/-- The object is asked with patience, and the checksum is even. -/
def Counts (p : DHT F × Poll) : Prop := p.1.Patient p.2.currentTime ∧ p.2.frame.EvenChecksum

/-- The readings are those of a frame. -/
def DHT.Shows (d : DHT F) (frame : Frame) : Prop :=
  d.ReadTemperature = u.lit frame.degrees ∧ d.ReadHumidity = u.lit frame.humidity

/-- As long as the device answers whenever it is asked, with valid frames, the readings are those of
the last frame with an even checksum among those that were read with patience, and before the first
of them what they were. -/
theorem readings_run {s t : DHT F} {tr : List (DHT F × Poll)} (hrun : Run (Polls u) s tr t)
    (hs : s._DHTtype = 22)
    (hline : ∀ p ∈ tr, SendsFrame p.2.line p.2.start p.2.frame ∧ DHT.Checksum p.2.frame) :
    ((∀ p ∈ tr, ¬ Counts p) ∧ t.ReadTemperature = s.ReadTemperature ∧
        t.ReadHumidity = s.ReadHumidity) ∨
      ∃ tr₁ p tr₂, tr = tr₁ ++ p :: tr₂ ∧ Counts p ∧ (∀ q ∈ tr₂, ¬ Counts q) ∧
        t.Shows u p.2.frame := by
  induction hrun with
  | nil => exact .inl ⟨by simp, rfl, rfl⟩
  | @cons s t u' p tr hst _ ih =>
      obtain ⟨⟨hanswers, hsum⟩, hline⟩ := List.forall_mem_cons.mp hline
      have htype : t._DHTtype = 22 := by
        rw [hst, polled_type]
        exact hs
      rcases ih htype hline with
        ⟨hnone, htemperature, hhumidity⟩ | ⟨tr₁, q, tr₂, rfl, hq, hlast, hshows⟩
      · by_cases hcounts : Counts (s, p)
        · refine .inr ⟨[], (s, p), tr, rfl, hcounts, hnone, ?_⟩
          obtain ⟨-, hgood, -⟩ := readDataAt_answers u hs hcounts.1 hanswers hsum
          obtain ⟨h₁, h₂⟩ := hgood hcounts.2
          rw [hst] at htemperature hhumidity
          exact ⟨htemperature.trans h₁, hhumidity.trans h₂⟩
        · refine .inl ⟨List.forall_mem_cons.mpr ⟨hcounts, hnone⟩, ?_⟩
          rw [htemperature, hhumidity, hst]
          by_cases hpatient : s.Patient p.currentTime
          · have hodd : ¬ p.frame.EvenChecksum := fun h => hcounts ⟨hpatient, h⟩
            exact ((readDataAt_answers u hs hpatient hanswers hsum).2.2 hodd).2
          · rw [DHT.polled, DHT.readDataAt_impatient u hpatient]
            exact ⟨rfl, rfl⟩
      · exact .inr ⟨(s, p) :: tr₁, q, tr₂, rfl, hq, hlast, hshows⟩

end

/-! ### A device -/

section
variable {F : Type} (u : FloatUnit F)

/-- The object after two reads. -/
def DHT.twice (d : DHT F) (p₁ p₂ : Poll) : DHT F := ((d.polled u p₁).2.polled u p₂).2

def twoPolls (d : DHT F) (p₁ p₂ : Poll) : List (DHT F × Poll) := [(d, p₁), ((d.polled u p₁).2, p₂)]

theorem run_twoPolls (d : DHT F) (p₁ p₂ : Poll) :
    Run (Polls u) d (twoPolls u d p₁ p₂) (d.twice u p₁ p₂) := .cons rfl (.single rfl)

end

/-- The pulses of the data sheet. -/
def pulsesOf (frame : Frame) : List Pulse := frame.bits.map fun bit => ⟨50, if bit then 70 else 26⟩

/-- A device that is asked at time 0. -/
def deviceLine (frame : Frame) : ℕ → Bool :=
  levelAt ((true, 18062) :: (false, 80) :: (true, 80) :: phasesOf (pulsesOf frame))

theorem sendsFrame_deviceLine (frame : Frame) : SendsFrame (deviceLine frame) 0 frame := by
  refine ⟨rfl, ⟨20, 80, 80⟩, pulsesOf frame,
    ⟨by decide, by decide, by decide, by decide, by decide, by decide⟩, ?_, ?_, ?_⟩
  · intro p hp
    obtain ⟨bit, -, rfl⟩ := List.mem_map.mp hp
    cases bit with
    | true => exact ⟨by decide, by decide, by decide, by decide⟩
    | false => exact ⟨by decide, by decide, by decide, by decide⟩
  · rw [pulsesOf, List.map_map]
    apply List.map_id''
    intro bit
    cases bit with
    | true => rfl
    | false => rfl
  · have hstart : From (deviceLine frame) 0 ((true, 18062) :: (false, 80) :: (true, 80) ::
        phasesOf (pulsesOf frame)) :=
      fun t => by rw [Nat.zero_add]; rfl
    exact hstart.part (t := 18042) (by decide)

/-- 65.2 % and 35.1 degrees. -/
def warm : Frame := ![2, 140, 1, 95, 238]

/-- A tenth of a degree more. -/
def warmer : Frame := ![2, 140, 1, 96, 239]

def newDHT : DHT ℚ := ⟨22, true, 0, fun _ => 0, 0, 0⟩

def pollOf (currentTime : ℤ) (frame : Frame) : Poll := ⟨deviceLine frame, 0, currentTime, frame⟩

theorem readDataAt_answers_warmer :
    (newDHT.readDataAt binary32 (deviceLine warmer) 0 10).1 = .ERROR_CHECKSUM :=
  ((readDataAt_answers binary32 (d := newDHT) rfl (.inl rfl) (sendsFrame_deviceLine warmer)
    (by decide)).2.2 (by decide)).1

theorem readings_run_warm :
    ((∀ p ∈ twoPolls binary32 newDHT (pollOf 10 warm) (pollOf 20 warmer), ¬ Counts p) ∧
        (newDHT.twice binary32 (pollOf 10 warm) (pollOf 20 warmer)).ReadTemperature =
          newDHT.ReadTemperature ∧
        (newDHT.twice binary32 (pollOf 10 warm) (pollOf 20 warmer)).ReadHumidity =
          newDHT.ReadHumidity) ∨
      ∃ tr₁ p tr₂, twoPolls binary32 newDHT (pollOf 10 warm) (pollOf 20 warmer) =
          tr₁ ++ p :: tr₂ ∧
        Counts p ∧ (∀ q ∈ tr₂, ¬ Counts q) ∧
        (newDHT.twice binary32 (pollOf 10 warm) (pollOf 20 warmer)).Shows binary32 p.2.frame :=
  readings_run binary32 (run_twoPolls binary32 newDHT _ _) rfl
    (List.forall_mem_cons.mpr ⟨⟨sendsFrame_deviceLine warm, by decide⟩,
      List.forall_mem_singleton.mpr ⟨sendsFrame_deviceLine warmer, by decide⟩⟩)

theorem polled_warm {d : DHT ℚ} (hd : d._DHTtype = 22) {currentTime : ℤ}
    (hpatient : d.Patient currentTime) :
    (d.polled binary32 (pollOf currentTime warm)).1 = .ERROR_NONE :=
  (readDataAt_answers binary32 hd hpatient (sendsFrame_deviceLine warm) (by decide)).1.mpr
    (by decide)

/-- The second read comes as soon as there is patience for it. -/
theorem twoPolls_succeed :
    ((twoPolls binary32 newDHT (pollOf 10 warm) (pollOf 12 warm)).filter
      (DHT.succeeds binary32)).map (·.2.currentTime) = [10, 12] := by
  have hfirst : (newDHT.polled binary32 (pollOf 10 warm)).1 = .ERROR_NONE :=
    polled_warm rfl (.inl rfl)
  have hlast := ((polled_times binary32 newDHT (pollOf 10 warm)).2.1 hfirst).2
  have htype := polled_type binary32 newDHT (pollOf 10 warm)
  unfold twoPolls
  generalize (newDHT.polled binary32 (pollOf 10 warm)).2 = d at hlast htype ⊢
  have hpatient : 2 ≤ 12 - d._lastReadTime := by
    rw [hlast]
    decide
  have hsecond : (d.polled binary32 (pollOf 12 warm)).1 = .ERROR_NONE :=
    polled_warm htype (.inr hpatient)
  rw [List.filter_cons_of_pos ((DHT.succeeds_iff binary32 newDHT _).mpr hfirst),
    List.filter_cons_of_pos ((DHT.succeeds_iff binary32 d _).mpr hsecond)]
  rfl

theorem successes_apart_warm :
    ((twoPolls binary32 newDHT (pollOf 10 warm) (pollOf 12 warm)).filter
        (DHT.succeeds binary32)).map (·.2.currentTime) = [10, 12] ∧
      (((twoPolls binary32 newDHT (pollOf 10 warm) (pollOf 12 warm)).filter
        (DHT.succeeds binary32)).map (·.2.currentTime)).IsChain fun a b => a + 2 ≤ b :=
  ⟨twoPolls_succeed, successes_apart binary32 (run_twoPolls binary32 newDHT _ _)⟩

end RemotusHardware
