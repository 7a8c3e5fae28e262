import RemotusHardware.Base.Transition
import RemotusHardware.ByValue

/-! # Rain

A rain gauge counts falling edges in an interrupt.  The branch of `updateSensorData` reads the
count, sets it to zero and then sends what it has read, so that an interrupt may come between any
two of its steps.  The machine `Station` takes these steps one at a time, and reads the count in
one; between two rounds the client and the network may change in any way.

The books are kept along a run (`step_ledger`): an edge is accounted for while it is in the count,
in the variable `rain` or on the wire.  It is lost if it comes after the read and before the
reset, or if the send fails (`lostAt`).  So the books balance at the end of every round exactly if
neither happens (`rain_conserved_iff`).  A round of the machine computes what `updateSensorData`
computes from the counts read in it (`run_updateSensorData`). -/

namespace RemotusHardware

open CLib Transition

/-! ### The counter -/

/-- The fields are unsigned 32-bit numbers; times are in microseconds. -/
structure CDebouncedFallingEdgeCounter where
  m_IgnoreTimeForDebounce : UInt32
  m_LastFallingEdgeTime : UInt32
  m_FallingEdgeCount : UInt32
deriving DecidableEq

namespace CDebouncedFallingEdgeCounter

def InitLastFallingEdgeTime (CurrentTime : UInt32) (c : CDebouncedFallingEdgeCounter) :
    CDebouncedFallingEdgeCounter :=
  { c with m_LastFallingEdgeTime := CurrentTime - c.m_IgnoreTimeForDebounce }

def TimeSinceLastFallingEdge (CurrentTime : UInt32) (c : CDebouncedFallingEdgeCounter) : UInt32 :=
  CurrentTime - c.m_LastFallingEdgeTime

def ZeroCount (c : CDebouncedFallingEdgeCounter) : CDebouncedFallingEdgeCounter :=
  { c with m_FallingEdgeCount := 0 }

/-- The constructor, called when the timer reads `now`. -/
def construct (IgnoreTimeForDebounceInMicroSeconds now : UInt32) : CDebouncedFallingEdgeCounter :=
  (InitLastFallingEdgeTime now ⟨IgnoreTimeForDebounceInMicroSeconds, 0, 0⟩).ZeroCount

/-- An edge at this time counts. -/
def Accepts (CurrentTime : UInt32) (c : CDebouncedFallingEdgeCounter) : Prop :=
  c.m_IgnoreTimeForDebounce ≤ c.TimeSinceLastFallingEdge CurrentTime

instance (CurrentTime : UInt32) (c : CDebouncedFallingEdgeCounter) :
    Decidable (c.Accepts CurrentTime) := inferInstanceAs (Decidable (_ ≤ _))

def FallingEdgeISR (CurrentTime : UInt32) (c : CDebouncedFallingEdgeCounter) :
    CDebouncedFallingEdgeCounter :=
  if c.Accepts CurrentTime then
    { c with
      m_FallingEdgeCount := c.m_FallingEdgeCount + 1
      m_LastFallingEdgeTime := CurrentTime }
  else c

def RefreshTimers (CurrentTime : UInt32) (c : CDebouncedFallingEdgeCounter) :
    CDebouncedFallingEdgeCounter :=
  if c.m_IgnoreTimeForDebounce < c.TimeSinceLastFallingEdge CurrentTime then
    c.InitLastFallingEdgeTime CurrentTime
  else c

/-- `GetCount`: the count, and the counter with its timers refreshed. -/
def GetCount (CurrentTime : UInt32) (c : CDebouncedFallingEdgeCounter) :
    ℕ × CDebouncedFallingEdgeCounter :=
  let c := c.RefreshTimers CurrentTime
  (c.m_FallingEdgeCount.toNat, c)

/-- The count, as a number. -/
def count (c : CDebouncedFallingEdgeCounter) : ℕ := c.m_FallingEdgeCount.toNat

@[simp] theorem count_construct (ignoreTime now : UInt32) : (construct ignoreTime now).count = 0 :=
  rfl

@[simp] theorem count_ZeroCount (c : CDebouncedFallingEdgeCounter) : c.ZeroCount.count = 0 := rfl

theorem count_FallingEdgeISR {CurrentTime : UInt32} {c : CDebouncedFallingEdgeCounter}
    (h : c.Accepts CurrentTime → c.count + 1 < 2 ^ 32) :
    (c.FallingEdgeISR CurrentTime).count = c.count + if c.Accepts CurrentTime then 1 else 0 := by
  unfold FallingEdgeISR
  split
  · rename_i haccepts
    have := h haccepts
    unfold count at this ⊢
    simp only [UInt32.toNat_add, UInt32.toNat_one]
    omega
  · rfl

@[simp] theorem GetCount_fst (CurrentTime : UInt32) (c : CDebouncedFallingEdgeCounter) :
    (c.GetCount CurrentTime).1 = c.count := by
  unfold GetCount RefreshTimers
  dsimp only
  split <;> rfl

@[simp] theorem count_GetCount (CurrentTime : UInt32) (c : CDebouncedFallingEdgeCounter) :
    (c.GetCount CurrentTime).2.count = c.count := by
  unfold GetCount RefreshTimers
  dsimp only
  split <;> rfl

end CDebouncedFallingEdgeCounter

/-! ### The machine -/

/-- The entry at index `i` is that of a rain gauge. -/
def IsGauge (G : Globals) (i : ℕ) : Prop := G.typesObjects[i]? = some (some (.lit "raingauge"))

instance (G : Globals) (i : ℕ) : Decidable (IsGauge G i) := inferInstanceAs (Decidable (_ = _))

/-- Where the main program is in its loop over the tables: before the turn at an index, or in the
branch of a gauge, after `GetRainfall` or after `Reset`, with the count that was read. -/
inductive Station.Phase where
  | turn (i : ℕ)
  | read (i n : ℕ)
  | report (i n : ℕ)
deriving DecidableEq

/-- The program between two of its steps.  `edges` counts the edges accepted for the gauge at an
index, `wire` lists the counts whose rainfall has been sent, with the index. -/
structure Station (F σ : Type) where
  phase : Station.Phase
  rounds : ℕ
  counters : ℕ → CDebouncedFallingEdgeCounter
  round : Round F σ
  edges : ℕ → ℕ
  wire : List (ℕ × ℕ)

namespace Station

/-- An interrupt, or a step of the main program. -/
inductive Event (σ : Type) where
  | edge (i : ℕ) (now : UInt32)
  | other
  | getRainfall (now : UInt32)
  | reset
  | publish
  | next (out : σ)

section
variable {F σ : Type} (u : FloatUnit F) (G : Globals) (r : ℕ → Readings F)
  (send : CString → Message → σ → Bool × σ)

/-- The text of a count. -/
def rainText (n : ℕ) : List UInt8 := fixedText u 3 (GetRainfall u n)

/-- Whether the rainfall of `n` gets on the wire if it is sent now. -/
def delivers (s : Station F σ) (i n : ℕ) : Bool :=
  match deref G.topicsMQTT i with
  | .ok topic => (send topic (messageOf (rainText u n)) s.round.out).1
  | .error _ => false

/-- The falling edge interrupt of the gauge at index `i`. -/
def edge (s : Station F σ) (i : ℕ) (now : UInt32) : Station F σ :=
  { s with
    counters := Function.update s.counters i ((s.counters i).FallingEdgeISR now)
    edges := Function.update s.edges i
      (s.edges i + if (s.counters i).Accepts now then 1 else 0) }

theorem edge_counters_self (s : Station F σ) (i : ℕ) (now : UInt32) :
    (s.edge i now).counters i = (s.counters i).FallingEdgeISR now := Function.update_self _ _ _

theorem edge_edges_self (s : Station F σ) (i : ℕ) (now : UInt32) :
    (s.edge i now).edges i = s.edges i + if (s.counters i).Accepts now then 1 else 0 :=
  Function.update_self _ _ _

/-- `send` has given `sent` for the rainfall of `n`. -/
def published (s : Station F σ) (i n : ℕ) (sent : Bool × σ) : Station F σ :=
  { s with
    phase := .turn (i + 1)
    round := { s.round with out := sent.2 }
    wire := if sent.1 then s.wire ++ [(i, n)] else s.wire }

/-- The steps.  The count does not wrap; a turn of another sensor is one step. -/
inductive Step : Station F σ → Event σ → Station F σ → Prop
  | edge {s : Station F σ} (i : ℕ) (now : UInt32) : IsGauge G i →
      ((s.counters i).Accepts now → (s.counters i).count + 1 < 2 ^ 32) →
      Step s (.edge i now) (s.edge i now)
  | other {s : Station F σ} {i : ℕ} {t : Round F σ} : s.phase = .turn i → i < G.numSensors →
      ¬ IsGauge G i →
      updateSensor u G (r s.rounds) (fun topic m out => (send topic m out).2) i s.round = .ok t →
      Step s .other { s with phase := .turn (i + 1), round := t }
  | getRainfall {s : Station F σ} {i : ℕ} (now : UInt32) : s.phase = .turn i → i < G.numSensors →
      IsGauge G i →
      Step s (.getRainfall now) { s with
        phase := .read i ((s.counters i).GetCount now).1
        counters := Function.update s.counters i ((s.counters i).GetCount now).2 }
  | reset {s : Station F σ} {i n : ℕ} : s.phase = .read i n →
      Step s .reset { s with
        phase := .report i n
        counters := Function.update s.counters i (s.counters i).ZeroCount }
  | publish {s : Station F σ} {i n : ℕ} {topic : CString} : s.phase = .report i n →
      deref G.topicsMQTT i = .ok topic →
      Step s .publish (s.published i n (send topic (messageOf (rainText u n)) s.round.out))
  | next {s : Station F σ} (out : σ) : s.phase = .turn G.numSensors →
      Step s (.next out) { s with
        phase := .turn 0
        rounds := s.rounds + 1
        round := { s.round with out := out } }

/-- The program before its first round, its gauges constructed at these times. -/
def start (ignoreTime : UInt32) (now : ℕ → UInt32) (t : Round F σ) : Station F σ where
  phase := .turn 0
  rounds := 0
  counters := fun i => .construct ignoreTime (now i)
  round := t
  edges := fun _ => 0
  wire := []

/-! ### The books -/

/-- The sum of the counts of the gauge at index `i` that are on the wire. -/
def reported (i : ℕ) (wire : List (ℕ × ℕ)) : ℕ := ((wire.filter fun m => m.1 = i).map (·.2)).sum

/-- The books balance: what is on the wire and what is counted are the edges accepted. -/
def Conserved (s : Station F σ) : Prop :=
  ∀ i, reported i s.wire + (s.counters i).count = s.edges i

/-- The edges of the gauge at index `i` that have been counted and may still be sent. -/
def safe (s : Station F σ) (i : ℕ) : ℕ :=
  match s.phase with
  | .turn _ => (s.counters i).count
  | .read j n => if j = i then n else (s.counters i).count
  | .report j n => (s.counters i).count + if j = i then n else 0

/-- The edges of the gauge at index `i` that are lost by a step. -/
def lostAt (i : ℕ) (s : Station F σ) : Event σ → ℕ
  | .edge j now =>
      match s.phase with
      | .read k _ => if j = i ∧ k = i ∧ (s.counters j).Accepts now then 1 else 0
      | _ => 0
  | .publish =>
      match s.phase with
      | .report j n => if j = i ∧ s.delivers u G send j n = false then n else 0
      | _ => 0
  | _ => 0

/-- A step at which no edge is lost: none comes between the read of its gauge and the reset, and
a count other than zero gets on the wire. -/
def Kept (s : Station F σ) : Event σ → Prop
  | .edge i now => (s.counters i).Accepts now → ∀ n, s.phase ≠ .read i n
  | .publish => ∀ i n, s.phase = .report i n → n = 0 ∨ s.delivers u G send i n = true
  | _ => True

theorem kept_iff (s : Station F σ) (e : Event σ) :
    Kept u G send s e ↔ ∀ i, lostAt u G send i s e = 0 := by
  cases e with
  | edge j now =>
      unfold Kept lostAt
      cases hp : s.phase with
      | turn k => simp
      | report k n => simp
      | read k n =>
          constructor
          · intro h i
            apply if_neg
            rintro ⟨rfl, rfl, ha⟩
            exact h ha n rfl
          · rintro h ha n' heq
            obtain ⟨rfl, rfl⟩ := Phase.read.inj heq
            simpa [ha] using h k
  | publish =>
      unfold Kept lostAt
      cases hp : s.phase with
      | turn k => simp
      | read k n => simp
      | report k n =>
          constructor
          · intro h i
            rcases h k n rfl with rfl | hd
            · exact ite_self 0
            · exact if_neg (by simp [hd])
          · rintro h k' n' heq
            obtain ⟨rfl, rfl⟩ := Phase.report.inj heq
            have := h k
            cases hd : s.delivers u G send k n with
            | true => exact .inr rfl
            | false => exact .inl (by simpa [hd] using this)
  | other => simp [Kept, lostAt]
  | getRainfall now => simp [Kept, lostAt]
  | reset => simp [Kept, lostAt]
  | next out => simp [Kept, lostAt]

theorem reported_append (i : ℕ) (wire : List (ℕ × ℕ)) (j n : ℕ) :
    reported i (wire ++ [(j, n)]) = reported i wire + if j = i then n else 0 := by
  unfold reported
  rw [List.filter_append, List.map_append, List.sum_append]
  by_cases h : j = i <;> simp [h]

variable {u G r send}

/-- What a step does to the books: the edges accepted and the edges accounted for drift apart by
those it loses. -/
theorem step_ledger (i : ℕ) (s : Station F σ) (e : Event σ) (t : Station F σ)
    (h : Step u G r send s e t) :
    t.edges i + (reported i s.wire + s.safe i) =
      s.edges i + (reported i t.wire + t.safe i) + lostAt u G send i s e := by
  cases h with
  | @edge j now hg hwrap =>
      have hcount := CDebouncedFallingEdgeCounter.count_FallingEdgeISR hwrap
      by_cases hj : i = j
      · subst hj
        unfold edge safe lostAt
        cases hp : s.phase with
        | turn k => simp [hcount]; omega
        | read k n => by_cases hk : k = i <;> simp [hcount, hk] <;> omega
        | report k n => by_cases hk : k = i <;> simp [hcount, hk] <;> omega
      · have hj' : ¬ j = i := fun h => hj h.symm
        unfold edge safe lostAt
        cases hp : s.phase <;> simp [hj, hj']
  | other hp hi hg hrun => simp [safe, lostAt, hp]
  | @getRainfall j now hp hi hg =>
      by_cases hj : i = j
      · subst hj
        simp [safe, lostAt, hp]
      · have hj' : ¬ j = i := fun h => hj h.symm
        simp [safe, lostAt, hp, hj, hj']
  | @reset j n hp =>
      by_cases hj : i = j
      · subst hj
        simp [safe, lostAt, hp]
      · have hj' : ¬ j = i := fun h => hj h.symm
        simp [safe, lostAt, hp, hj, hj']
  | @publish j n topic hp htopic =>
      have hsent : s.delivers u G send j n =
          (send topic (messageOf (rainText u n)) s.round.out).1 := by simp [delivers, htopic]
      have hlost : lostAt u G send i s .publish =
          if j = i ∧ s.delivers u G send j n = false then n else 0 := by simp [lostAt, hp]
      have hsafe : s.safe i = (s.counters i).count + if j = i then n else 0 := by simp [safe, hp]
      rw [hlost, hsafe, hsent]
      generalize send topic (messageOf (rainText u n)) s.round.out = sent
      obtain ⟨ok, out⟩ := sent
      cases ok with
      | true => simp [published, safe, reported_append]; omega
      | false => by_cases hj : j = i <;> simp [published, safe, hj]; omega
  | next out hp => simp [safe, lostAt, hp]

/-- The books at the end of a run. -/
theorem run_ledger {ignoreTime : UInt32} {now : ℕ → UInt32} {t₀ : Round F σ}
    {tr : List (Station F σ × Event σ)} {t : Station F σ}
    (h : Run (Step u G r send) (start ignoreTime now t₀) tr t) (i : ℕ) :
    t.edges i =
      reported i t.wire + t.safe i + (tr.map fun p => lostAt u G send i p.1 p.2).sum := by
  have hbooks := h.ledger (f := fun s => s.edges i) (g := fun s => reported i s.wire + s.safe i)
    (step_ledger i)
  have hstart : (start ignoreTime now t₀).edges i = 0 ∧
      reported i (start ignoreTime now t₀).wire + (start ignoreTime now t₀).safe i = 0 := ⟨rfl, rfl⟩
  omega

/-- At the end of a round the books balance exactly if no step has lost an edge. -/
theorem conserved_iff {ignoreTime : UInt32} {now : ℕ → UInt32} {t₀ : Round F σ}
    {tr : List (Station F σ × Event σ)} {t : Station F σ}
    (h : Run (Step u G r send) (start ignoreTime now t₀) tr t)
    (hend : t.phase = .turn G.numSensors) : t.Conserved ↔ ∀ p ∈ tr, Kept u G send p.1 p.2 := by
  have hsafe (i : ℕ) : t.safe i = (t.counters i).count := by simp [safe, hend]
  have hlost (i : ℕ) : (tr.map fun p => lostAt u G send i p.1 p.2).sum = 0 ↔
      ∀ p ∈ tr, lostAt u G send i p.1 p.2 = 0 := by
    rw [List.sum_eq_zero_iff, List.forall_mem_map]
  constructor
  · intro hcons p hp
    rw [kept_iff]
    intro i
    have hbooks := run_ledger h i
    have := hcons i
    rw [hsafe] at hbooks
    exact (hlost i).mp (by omega) p hp
  · intro hkept i
    have hbooks := run_ledger h i
    have hzero := (hlost i).mpr fun p hp => (kept_iff u G send p.1 p.2).mp (hkept p hp) i
    rw [hsafe] at hbooks
    omega

/-- In a run that comes to the end of a round the books balance at the end of every round exactly
if no edge falls between the read of its gauge and the reset and every count other than zero gets
on the wire. -/
theorem rain_conserved_iff {ignoreTime : UInt32} {now : ℕ → UInt32} {t₀ : Round F σ}
    {tr : List (Station F σ × Event σ)} {t : Station F σ}
    (h : Run (Step u G r send) (start ignoreTime now t₀) tr t)
    (hend : t.phase = .turn G.numSensors) :
    ((∀ p ∈ tr, p.1.phase = .turn G.numSensors → p.1.Conserved) ∧ t.Conserved) ↔
      ∀ p ∈ tr, Kept u G send p.1 p.2 := by
  constructor
  · rintro ⟨-, hcons⟩
    exact (conserved_iff h hend).mp hcons
  · intro hkept
    refine ⟨fun p hp hphase => ?_, (conserved_iff h hend).mpr hkept⟩
    obtain ⟨tr₁, tr₂, rfl, h₁⟩ := h.reach hp
    exact (conserved_iff h₁ hphase).mpr fun p' hp' => hkept p' (List.mem_append_left _ hp')

/-! ### What a round computes -/

/-- The index of the turn. -/
def Phase.index : Phase → ℕ
  | .turn i => i
  | .read i _ => i
  | .report i _ => i

/-- These are the counts read in the round, as far as the phase knows. -/
def Phase.Reads (n : ℕ → ℕ) : Phase → Prop
  | .turn _ => True
  | .read i c => n i = c
  | .report i c => n i = c

/-- Inside a turn the index is one of a gauge in the tables. -/
def Phase.InTable (G : Globals) : Phase → Prop
  | .turn _ => True
  | .read i _ => i < G.numSensors ∧ IsGauge G i
  | .report i _ => i < G.numSensors ∧ IsGauge G i

theorem step_inTable {s t : Station F σ} {e : Event σ} (h : Step u G r send s e t)
    (hs : s.phase.InTable G) : t.phase.InTable G := by
  cases h with
  | edge j now hg hwrap => exact hs
  | other hp hi hg hrun => trivial
  | getRainfall now hp hi hg => exact ⟨hi, hg⟩
  | reset hp => rw [hp] at hs; exact hs
  | publish hp htopic => trivial
  | next out hp => trivial

/-- The main program is never stuck, in whichever phase it is. -/
theorem main_progress {ss : List Sensor} (hG : Aligned G ss) {s : Station F σ}
    (hs : s.phase.InTable G) (hle : s.phase.index ≤ G.numSensors) :
    ∃ e t, (∀ i now, e ≠ .edge i now) ∧ Step u G r send s e t := by
  have hentry {i : ℕ} (hi : i < G.numSensors) : ∃ x, EntryOf G i x := by
    rw [hG.numSensors] at hi
    exact ⟨_, hG.entry (List.getElem?_eq_getElem hi)⟩
  cases hp : s.phase with
  | turn i =>
      rw [hp] at hle
      rcases Nat.lt_or_eq_of_le hle with hi | hi
      · by_cases hg : IsGauge G i
        · exact ⟨_, _, fun _ _ => by simp, .getRainfall 0 hp hi hg⟩
        · obtain ⟨x, hx⟩ := hentry hi
          exact ⟨_, _, fun _ _ => by simp, .other hp hi hg (updateSensor_eq hx _)⟩
      · have hi : i = G.numSensors := hi
        exact ⟨_, _, fun _ _ => by simp, .next s.round.out (hi ▸ hp)⟩
  | read i n => exact ⟨_, _, fun _ _ => by simp, .reset hp⟩
  | report i n =>
      rw [hp] at hs
      obtain ⟨x, hx⟩ := hentry hs.1
      exact ⟨_, _, fun _ _ => by simp, .publish hp hx.topic⟩

theorem rounds_le {s t : Station F σ} {tr : List (Station F σ × Event σ)}
    (h : Run (Step u G r send) s tr t) : s.rounds ≤ t.rounds := by
  induction h with
  | nil => exact le_rfl
  | cons hst _ ih =>
      refine le_trans ?_ ih
      cases hst with
      | next out hp => exact Nat.le_succ _
      | _ => exact le_rfl

/-- The readings of a round, with the counts that have been read. -/
def withCounts (r : Readings F) (n : ℕ → ℕ) : Readings F := { r with rainCount := n }

/-- The `send` of the coarse model. -/
def dropCode (send : CString → Message → σ → Bool × σ) (topic : CString) (m : Message) (out : σ) :
    σ := (send topic m out).2

/-- What is left of a round computes what the loop computes from this index on. -/
def Rest (u : FloatUnit F) (G : Globals) (r : ℕ → Readings F)
    (send : CString → Message → σ → Bool × σ) (s t : Station F σ) (n : ℕ → ℕ) : Prop :=
  s.phase.Reads n ∧ updateFrom u G (withCounts (r s.rounds) n) (dropCode send)
    (G.numSensors - s.phase.index) s.phase.index s.round = .ok t.round

theorem isGauge_iff {ss : List Sensor} (hG : Aligned G ss) {i : ℕ} {x : Sensor}
    (hx : ss[i]? = some x) : IsGauge G i ↔ x.kind = .raingauge := by
  unfold IsGauge
  rw [hG.typesObjects, List.getElem?_map, hx, Option.map_some, Option.some_inj, Option.some_inj]
  exact SensorKind.name_inj (k := .raingauge)

/-- The turn of another sensor does not depend on the counts. -/
theorem updateSensor_withCounts {i : ℕ} {x : Sensor} (hx : EntryOf G i x)
    (hk : x.kind ≠ .raingauge) (rr : Readings F) (n : ℕ → ℕ) (t : Round F σ) :
    updateSensor u G (withCounts rr n) (dropCode send) i t =
      updateSensor u G rr (dropCode send) i t := by
  rw [updateSensor_eq hx, updateSensor_eq hx]
  have htext (g : F × F) : sensorText u (withCounts rr n) i x g = sensorText u rr i x g := by
    unfold sensorText
    cases hkind : x.kind <;> first | rfl | exact absurd hkind hk
  rw [htext]
  rfl

/-- The turn of a gauge sends the text of its count. -/
theorem updateSensor_gauge {i : ℕ} {x : Sensor} (hx : EntryOf G i x) (hk : x.kind = .raingauge)
    (rr : Readings F) (n : ℕ → ℕ) (t : Round F σ) :
    updateSensor u G (withCounts rr n) (dropCode send) i t =
      .ok { t with out := (send x.topic (messageOf (rainText u (n i))) t.out).2 } := by
  rw [updateSensor_eq hx]
  simp only [refresh, sensorText, hk]
  rfl

/-- If the steps after this one compute what the loop computes, so do the steps from it on, with
counts that say what the phase has read. -/
theorem rest_of_step {ss : List Sensor} (hG : Aligned G ss) {s s₁ t : Station F σ} {e : Event σ}
    (hst : Step u G r send s e s₁) (hs : s.phase.InTable G) (hround : s₁.rounds = s.rounds)
    {n : ℕ → ℕ} (hreads : s.phase.Reads n) (hrest : Rest u G r send s₁ t n) :
    Rest u G r send s t n := by
  have hentry {i : ℕ} (hi : i < G.numSensors) : ∃ x, ss[i]? = some x ∧ EntryOf G i x := by
    rw [hG.numSensors] at hi
    exact ⟨_, List.getElem?_eq_getElem hi, hG.entry (List.getElem?_eq_getElem hi)⟩
  have hcut {i : ℕ} (hi : i < G.numSensors) : G.numSensors - i = G.numSensors - (i + 1) + 1 := by
    omega
  refine ⟨hreads, ?_⟩
  have hloop := hrest.2
  cases hst with
  | edge j now hg hwrap => exact hloop
  | @other i t₁ hp hi hg hturn =>
      obtain ⟨x, hx, hent⟩ := hentry hi
      have hk : x.kind ≠ .raingauge := fun h => hg ((isGauge_iff hG hx).mpr h)
      rw [hp]
      change updateFrom u G _ _ (G.numSensors - i) i s.round = _
      rw [hcut hi, updateFrom, updateSensor_withCounts hent hk]
      rw [show updateSensor u G (r s.rounds) (dropCode send) i s.round = .ok t₁ from hturn,
        ok_bind]
      exact hloop
  | getRainfall now hp hi hg =>
      rw [hp]
      exact hloop
  | reset hp =>
      rw [hp]
      exact hloop
  | @publish i c topic hp htopic =>
      rw [hp] at hs hreads
      obtain ⟨hi, hg⟩ := hs
      have hc : n i = c := hreads
      obtain ⟨x, hx, hent⟩ := hentry hi
      have hk : x.kind = .raingauge := (isGauge_iff hG hx).mp hg
      obtain rfl : topic = x.topic := Except.ok.inj (htopic.symm.trans hent.topic)
      rw [hp]
      change updateFrom u G _ _ (G.numSensors - i) i s.round = _
      rw [hcut hi, updateFrom, updateSensor_gauge hent hk, ok_bind, hc]
      exact hloop
  | next out hp =>
      have : s.rounds + 1 = s.rounds := hround
      omega

/-- From any step of a round on, the steps left compute what the loop computes from the index
they are at, with counts that the phase and the reads to come decide. -/
theorem run_rest {ss : List Sensor} (hG : Aligned G ss) {s t : Station F σ}
    {tr : List (Station F σ × Event σ)} (h : Run (Step u G r send) s tr t)
    (hs : s.phase.InTable G) (hend : t.phase = .turn G.numSensors) (hround : t.rounds = s.rounds) :
    ∃ n : ℕ → ℕ, ∀ n' : ℕ → ℕ, (∀ j, s.phase.index ≤ j → n' j = n j) →
      Rest u G r send s t n' := by
  induction h with
  | nil s =>
      refine ⟨fun _ => 0, fun n' _ => ?_⟩
      unfold Rest
      rw [hend]
      refine ⟨trivial, ?_⟩
      simp [Phase.index, updateFrom, pure, Except.pure]
  | @cons s s₁ t e tr hst hrun ih =>
      have hs₁ := step_inTable hst hs
      have hle := rounds_le hrun
      have hstep := rest_of_step (t := t) hG hst hs
      cases hst with
      | edge j now hg hwrap => exact ih hs₁ hend hround
      | @other i t₁ hp hi hg hturn =>
          obtain ⟨n, hn⟩ := ih hs₁ hend hround
          rw [hp] at hstep ⊢
          refine ⟨n, fun n' hn' => hstep rfl trivial (hn n' fun j hj => ?_)⟩
          exact hn' j (le_trans (Nat.le_succ i) hj)
      | @getRainfall i now hp hi hg =>
          obtain ⟨n, hn⟩ := ih hs₁ hend hround
          rw [hp] at hstep ⊢
          exact ⟨n, fun n' hn' => hstep rfl trivial (hn n' hn')⟩
      | @reset i c hp =>
          obtain ⟨n, hn⟩ := ih hs₁ hend hround
          rw [hp] at hstep ⊢
          exact ⟨n, fun n' hn' => hstep rfl (hn n' hn').1 (hn n' hn')⟩
      | @publish i c topic hp htopic =>
          obtain ⟨n, hn⟩ := ih hs₁ hend hround
          rw [hp] at hstep ⊢
          refine ⟨Function.update n i c, fun n' hn' => ?_⟩
          have hc : n' i = c := by
            rw [hn' i le_rfl, Function.update_self]
          refine hstep rfl hc (hn n' fun j hj => ?_)
          have hj : i + 1 ≤ j := hj
          rw [hn' j (le_trans (Nat.le_succ i) hj), Function.update_of_ne (by omega)]
      | next out hp =>
          have : s.rounds + 1 ≤ t.rounds := hle
          omega

/-- A round of the machine, whatever the interrupts, computes what `updateSensorData` computes from
the counts that are read in it. -/
theorem run_updateSensorData {ss : List Sensor} (hG : Aligned G ss) {s t : Station F σ}
    {tr : List (Station F σ × Event σ)} (h : Run (Step u G r send) s tr t)
    (hstart : s.phase = .turn 0) (hend : t.phase = .turn G.numSensors)
    (hround : t.rounds = s.rounds) :
    ∃ n, updateSensorData u G (withCounts (r s.rounds) n) (dropCode send) s.round =
      .ok t.round := by
  obtain ⟨n, hn⟩ := run_rest hG h (by rw [hstart]; trivial) hend hround
  obtain ⟨-, hrest⟩ := hn n fun _ _ => rfl
  rw [hstart] at hrest
  exact ⟨n, hrest⟩

end

/-! ### The program -/

/-- `sendMQTT` with the return code of `publish`; its client is a copy. -/
def publishCopy {H τ : Type} (call : H → MessageData → τ → τ) (topic : CString) (m : Message)
    (s : Client H × World τ) : Bool × (Client H × World τ) :=
  let r := s.1.publish call topic m s.2
  (decide (r.rc = SUCCESS), (s.1, r.world))

theorem dropCode_publishCopy {H τ : Type} (call : H → MessageData → τ → τ) (topic : CString)
    (m : Message) (c : Client H) (w : World τ) :
    dropCode (publishCopy call) topic m (c, w) = (c, sendMQTT call c topic m w) := rfl

/-- A rain gauge on a topic. -/
def gaugeGlobals : Globals := globalsOf [⟨.raingauge, .lit "rain", .CRainGauge .p15, rfl⟩]

/-- The program with one gauge, on this network. -/
def gaugeStart (w : World Unit) : Station ℚ (Client Unit × World Unit) :=
  start 1000 (fun _ => 0) ⟨0, 0, (.connected [], w)⟩

def gaugeStep : Station ℚ (Client Unit × World Unit) → Event (Client Unit × World Unit) →
    Station ℚ (Client Unit × World Unit) → Prop :=
  Step exactUnit gaugeGlobals (fun _ => steadyReadings 0 fun _ => false)
    (publishCopy fun _ _ a => a)

theorem first_edge : (CDebouncedFallingEdgeCounter.construct 1000 0).Accepts 5000 ∧
    (((CDebouncedFallingEdgeCounter.construct 1000 0).FallingEdgeISR 5000).GetCount 6000).1 =
      1 := by
  decide +kernel

/-- One edge and then a round. -/
theorem gauge_run (w : World Unit) : ∃ tr t, Run gaugeStep (gaugeStart w) tr t ∧
    t.phase = .turn gaugeGlobals.numSensors ∧ t.edges 0 = 1 ∧ (t.counters 0).count = 0 ∧
    t.wire = if (gaugeStart w).delivers exactUnit gaugeGlobals (publishCopy fun _ _ a => a) 0 1
      then [(0, 1)] else [] := by
  refine ⟨_, _, .cons (.edge 0 5000 rfl fun _ => (by decide : 0 + 1 < 2 ^ 32)) <|
    .cons (.getRainfall (i := 0) 6000 rfl (by decide) rfl) <|
    .cons (.reset (i := 0) (n := 1) ?_) <|
    .cons (.publish (i := 0) (n := 1) rfl rfl) <| .nil _, rfl, ?_, rfl, rfl⟩
  · simp only [edge_counters_self, gaugeStart, start, first_edge.2]
  · change ((gaugeStart w).edge 0 5000).edges 0 = 1
    simp only [edge_edges_self, gaugeStart, start, first_edge.1, if_true]

theorem rain_conserved_iff_gauge : ∃ tr t, Run gaugeStep (gaugeStart idleWorld) tr t ∧
    (((∀ p ∈ tr, p.1.phase = .turn gaugeGlobals.numSensors → p.1.Conserved) ∧ t.Conserved) ↔
      ∀ p ∈ tr, Kept exactUnit gaugeGlobals (publishCopy fun _ _ a => a) p.1 p.2) := by
  obtain ⟨tr, t, hrun, hend, -⟩ := gauge_run idleWorld
  exact ⟨tr, t, hrun, rain_conserved_iff hrun hend⟩

/-- A network that fails the write of a report loses the edge counted in it. -/
theorem failed_send_loses_edge :
    parse (config [element .raingauge "rain" 15]) = .ok gaugeGlobals ∧
      ∃ tr t, Run gaugeStep (gaugeStart brokenWorld) tr t ∧
        t.phase = .turn gaugeGlobals.numSensors ∧ ¬ t.Conserved := by
  obtain ⟨tr, t, hrun, hend, hedges, hcount, hwire⟩ := gauge_run brokenWorld
  refine ⟨rfl, tr, t, hrun, hend, fun h => ?_⟩
  have hfail : (gaugeStart brokenWorld).delivers exactUnit gaugeGlobals
      (publishCopy fun _ _ a => a) 0 1 = false := by decide +kernel
  have hbooks := h 0
  rw [hwire, hfail, hcount, hedges] at hbooks
  cases hbooks

end Station

end RemotusHardware
