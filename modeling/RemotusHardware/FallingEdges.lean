import RemotusHardware.Base.Debounce
import RemotusHardware.Rain
import RemotusHardware.Texts

/-! # Falling edges and the speed of the wind

The counter of the rain gauge and of the anemometer keeps time with a timer of 32 bits, which comes
round every 72 minutes, as the one behind a `Countdown` does.  Reading the count pulls the time of
the last edge along behind the timer.  So the counter is a debouncer in true time as long as
something happens to it often enough (`counts_debounced`): since the last reset it has counted
edges that are at least the hold-off time apart, also across the reset, and every edge comes within
that time after one that was counted.  Nothing protects `GetCount` from the interrupt of an edge,
though, and one that comes while the timers are refreshed is forgotten as the last one.

Once a second the anemometer makes a speed of the count and keeps the greatest
(`wind_speeds`). -/

namespace RemotusHardware

open Debounce

namespace CDebouncedFallingEdgeCounter

/-! ### The counter in true time -/

def GetCountAndZero (CurrentTime : UInt32) (c : CDebouncedFallingEdgeCounter) :
    ℕ × CDebouncedFallingEdgeCounter :=
  let (CurrentCount, c) := c.GetCount CurrentTime
  (CurrentCount, c.ZeroCount)

/-- What happens to a counter, one thing after the other; the times are true ones, in
microseconds.  Edges may come while `GetCount` runs: after it has read the timer, and after it has
found that the time of the last edge is to be pulled along. -/
inductive Happening where
  | edge (t : ℕ)
  | getCount (t : ℕ) (read compared : List ℕ)
  | zeroCount
deriving DecidableEq

/-- The interrupts of some edges; the timer shows a time modulo `2 ^ 32`. -/
def interrupted (c : CDebouncedFallingEdgeCounter) (ts : List ℕ) : CDebouncedFallingEdgeCounter :=
  ts.foldl (fun c t => c.FallingEdgeISR (UInt32.ofNat t)) c

def happen (c : CDebouncedFallingEdgeCounter) : Happening → CDebouncedFallingEdgeCounter
  | .edge t => c.FallingEdgeISR (UInt32.ofNat t)
  | .getCount t read compared =>
      let c := c.interrupted read
      if c.m_IgnoreTimeForDebounce < c.TimeSinceLastFallingEdge (UInt32.ofNat t) then
        (c.interrupted compared).InitLastFallingEdgeTime (UInt32.ofNat t)
      else c.interrupted compared
  | .zeroCount => c.ZeroCount

/-- Without an interrupt it is `GetCount`. -/
theorem happen_getCount (c : CDebouncedFallingEdgeCounter) (t : ℕ) :
    c.happen (.getCount t [] []) = (c.GetCount (UInt32.ofNat t)).2 := rfl

/-- The times of the edges. -/
def edges (es : List Happening) : List ℕ :=
  es.flatMap fun
    | .edge t => [t]
    | .getCount _ read compared => read ++ compared
    | .zeroCount => []

/-- The times ascend, the timer does not come round between two of them, and no edge comes while
`GetCount` runs. -/
def InTime (hold : ℕ) : ℕ → List Happening → Prop
  | _, [] => True
  | now, .edge t :: es => now ≤ t ∧ t - now + hold < 2 ^ 32 ∧ InTime hold t es
  | now, .getCount t read compared :: es => (now ≤ t ∧ t - now + hold < 2 ^ 32 ∧ InTime hold t es) ∧
      read = [] ∧ compared = []
  | now, .zeroCount :: es => InTime hold now es

/-- How long ago the last edge was, if the timer is right. -/
def age (c : CDebouncedFallingEdgeCounter) (now : ℕ) : ℕ :=
  (c.TimeSinceLastFallingEdge (UInt32.ofNat now)).toNat

theorem age_later {c : CDebouncedFallingEdgeCounter} {now t : ℕ} (h : now ≤ t)
    (ht : c.age now + (t - now) < 2 ^ 32) : c.age t = c.age now + (t - now) := by
  simp only [age, TimeSinceLastFallingEdge, UInt32.toNat_sub, UInt32.toNat_ofNat'] at ht ⊢
  have := c.m_LastFallingEdgeTime.toNat_lt
  omega

theorem accepts_iff (c : CDebouncedFallingEdgeCounter) (t : ℕ) :
    c.Accepts (UInt32.ofNat t) ↔ c.m_IgnoreTimeForDebounce.toNat ≤ c.age t :=
  UInt32.le_iff_toNat_le

theorem age_self (c : CDebouncedFallingEdgeCounter) (t : ℕ) (n : UInt32) :
    age { c with m_FallingEdgeCount := n, m_LastFallingEdgeTime := UInt32.ofNat t } t = 0 := by
  simp [age, TimeSinceLastFallingEdge]

theorem age_init (c : CDebouncedFallingEdgeCounter) (t : ℕ) :
    age (c.InitLastFallingEdgeTime (UInt32.ofNat t)) t = c.m_IgnoreTimeForDebounce.toNat := by
  simp [age, TimeSinceLastFallingEdge, InitLastFallingEdgeTime]

/-- The counter stands where a debouncer stands that has counted `n` edges, the last one before
`now` at `last`: the age is the true one, or so is that it is time for another edge. -/
structure Follows (hold now : ℕ) (last : Option ℕ) (n : ℕ) (c : CDebouncedFallingEdgeCounter) :
    Prop where
  ignore : c.m_IgnoreTimeForDebounce.toNat = hold
  age_le : c.age now ≤ hold
  agrees : (∃ l, last = some l ∧ l + c.age now = now) ∨ c.age now = hold ∧ Ready hold last now
  count : c.count = n % 2 ^ 32

variable {hold now n t : ℕ} {last : Option ℕ} {c : CDebouncedFallingEdgeCounter}

theorem follows_construct (ignoreTime : UInt32) (start : ℕ) :
    Follows ignoreTime.toNat start none 0 (construct ignoreTime (UInt32.ofNat start)) := by
  have hage : (construct ignoreTime (UInt32.ofNat start)).age start = ignoreTime.toNat :=
    age_init ⟨ignoreTime, 0, 0⟩ start
  exact ⟨rfl, hage.le, .inr ⟨hage, by simp [Ready]⟩, rfl⟩

theorem Follows.age_eq (h : Follows hold now last n c) (ht : now ≤ t)
    (hgap : t - now + hold < 2 ^ 32) : c.age t = c.age now + (t - now) := by
  have := h.age_le
  exact age_later ht (by omega)

/-- The counter accepts an edge exactly if it is time for one. -/
theorem Follows.accepts_iff_ready (h : Follows hold now last n c) (ht : now ≤ t)
    (hgap : t - now + hold < 2 ^ 32) : c.Accepts (UInt32.ofNat t) ↔ Ready hold last t := by
  have hage := h.age_eq ht hgap
  rw [accepts_iff, h.ignore, hage]
  rcases h.agrees with ⟨l, rfl, hl⟩ | ⟨heq, hready⟩
  · simp only [Ready, Option.mem_some_iff, forall_eq']
    omega
  · have hlater : Ready hold last t := fun l hl => (hready l hl).trans ht
    exact ⟨fun _ => hlater, fun _ => by omega⟩

/-- An edge that is not accepted comes while the age is still the true one. -/
theorem Follows.edge (h : Follows hold now last n c) (ht : now ≤ t)
    (hgap : t - now + hold < 2 ^ 32) :
    Follows hold t (lastAccepted hold last [t]) (n + (accepted hold last [t]).length)
      (c.FallingEdgeISR (UInt32.ofNat t)) := by
  have haccepts := h.accepts_iff_ready ht hgap
  have hage := h.age_eq ht hgap
  by_cases hready : Ready hold last t
  · have hself : (c.FallingEdgeISR (UInt32.ofNat t)).age t = 0 := by
      rw [FallingEdgeISR, if_pos (haccepts.mpr hready)]
      exact age_self c t _
    have hcount : (c.FallingEdgeISR (UInt32.ofNat t)).count = (n + 1) % 2 ^ 32 := by
      have hn : c.m_FallingEdgeCount.toNat = n % 2 ^ 32 := h.count
      rw [FallingEdgeISR, if_pos (haccepts.mpr hready), CDebouncedFallingEdgeCounter.count]
      simp only [UInt32.toNat_add, hn, UInt32.toNat_one]
      omega
    have hignore : (c.FallingEdgeISR (UInt32.ofNat t)).m_IgnoreTimeForDebounce.toNat = hold := by
      rw [FallingEdgeISR, if_pos (haccepts.mpr hready)]
      exact h.ignore
    rw [lastAccepted_cons_of_ready hready, accepted_cons_of_ready hready]
    exact ⟨hignore, by omega, .inl ⟨t, rfl, by omega⟩, hcount⟩
  · have hsame : c.FallingEdgeISR (UInt32.ofNat t) = c := by
      rw [FallingEdgeISR, if_neg fun hacc => hready (haccepts.mp hacc)]
    rw [lastAccepted_cons_of_not_ready hready, accepted_cons_of_not_ready hready, hsame]
    have hlt : c.age t < hold := by
      by_contra hle
      apply hready
      rw [← haccepts, accepts_iff, h.ignore]
      omega
    refine ⟨h.ignore, hlt.le, .inl ?_, h.count⟩
    rcases h.agrees with ⟨l, rfl, hl⟩ | ⟨heq, -⟩
    · exact ⟨l, rfl, by omega⟩
    · omega

theorem Follows.getCount (h : Follows hold now last n c) (ht : now ≤ t)
    (hgap : t - now + hold < 2 ^ 32) :
    Follows hold t last n (c.GetCount (UInt32.ofNat t)).2 := by
  have hage := h.age_eq ht hgap
  have hold_lt : c.m_IgnoreTimeForDebounce < c.TimeSinceLastFallingEdge (UInt32.ofNat t) ↔
      hold < c.age t := by
    rw [UInt32.lt_iff_toNat_lt, h.ignore]
    rfl
  have hcount : (c.GetCount (UInt32.ofNat t)).2.count = n % 2 ^ 32 := by
    rw [count_GetCount]
    exact h.count
  by_cases hlong : hold < c.age t
  · have hrefresh :
        (c.GetCount (UInt32.ofNat t)).2 = c.InitLastFallingEdgeTime (UInt32.ofNat t) := by
      rw [GetCount, RefreshTimers, if_pos (hold_lt.mpr hlong)]
    have hinit := age_init c t
    rw [h.ignore] at hinit
    rw [hrefresh] at hcount ⊢
    refine ⟨h.ignore, hinit.le, .inr ⟨hinit, ?_⟩, hcount⟩
    apply (h.accepts_iff_ready ht hgap).mp
    rw [accepts_iff, h.ignore]
    exact hlong.le
  · have hsame : (c.GetCount (UInt32.ofNat t)).2 = c := by
      rw [GetCount, RefreshTimers, if_neg fun h => hlong (hold_lt.mp h)]
    rw [hsame]
    refine ⟨h.ignore, not_lt.mp hlong, ?_, h.count⟩
    rcases h.agrees with ⟨l, rfl, hl⟩ | ⟨heq, hready⟩
    · exact .inl ⟨l, rfl, by omega⟩
    · exact .inr ⟨by omega, fun l hl => (hready l hl).trans ht⟩

theorem Follows.zeroCount (h : Follows hold now last n c) : Follows hold now last 0 c.ZeroCount :=
  ⟨h.ignore, h.age_le, h.agrees, rfl⟩

/-! ### Runs of the counter -/

theorem edges_append (es es' : List Happening) : edges (es ++ es') = edges es ++ edges es' :=
  List.flatMap_append

theorem accepted_edges_cons (es : List Happening) :
    accepted hold last (edges (.edge t :: es)) =
      accepted hold last [t] ++ accepted hold (lastAccepted hold last [t]) (edges es) :=
  @accepted_append hold last [t] (edges es)

theorem lastAccepted_edges_cons (es : List Happening) :
    lastAccepted hold last (edges (.edge t :: es)) =
      lastAccepted hold (lastAccepted hold last [t]) (edges es) :=
  @lastAccepted_append hold last [t] (edges es)

/-- A run of the counter follows the debouncer, and counts on if it is not reset. -/
theorem Follows.run {es : List Happening} :
    ∀ {now n : ℕ} {last : Option ℕ} {c : CDebouncedFallingEdgeCounter},
      Follows hold now last n c → InTime hold now es → ∃ now' n',
        (∀ more, InTime hold now (es ++ more) → InTime hold now' more) ∧
        Follows hold now' (lastAccepted hold last (edges es)) n' (es.foldl happen c) ∧
        (.zeroCount ∉ es → n' = n + (accepted hold last (edges es)).length) := by
  induction es with
  | nil => exact fun h _ => ⟨_, _, fun more hm => hm, h, fun _ => rfl⟩
  | cons e es ih =>
      intro now n last c h hin
      cases e with
      | edge t =>
          obtain ⟨ht, hgap, hin⟩ := hin
          obtain ⟨now', n', hmore, hfollows, hn⟩ := ih (h.edge ht hgap) hin
          refine ⟨now', n', fun more hm => hmore more hm.2.2, ?_, fun hz => ?_⟩
          · rw [lastAccepted_edges_cons]
            exact hfollows
          · rw [hn (fun hmem => hz (List.mem_cons_of_mem _ hmem)), accepted_edges_cons,
              List.length_append]
            omega
      | getCount t read compared =>
          obtain ⟨⟨ht, hgap, hin⟩, rfl, rfl⟩ := hin
          obtain ⟨now', n', hmore, hfollows, hn⟩ := ih (h.getCount ht hgap) hin
          exact ⟨now', n', fun more hm => hmore more hm.1.2.2, hfollows,
            fun hz => hn fun hmem => hz (List.mem_cons_of_mem _ hmem)⟩
      | zeroCount =>
          obtain ⟨now', n', hmore, hfollows, -⟩ := ih h.zeroCount hin
          exact ⟨now', n', hmore, hfollows, fun hz => absurd List.mem_cons_self hz⟩

theorem InTime.edges_sorted {es : List Happening} : ∀ {now : ℕ}, InTime hold now es →
    (edges es).Pairwise (· ≤ ·) ∧ ∀ t ∈ edges es, now ≤ t := by
  induction es with
  | nil => exact fun _ => ⟨List.Pairwise.nil, by simp [edges]⟩
  | cons e es ih =>
      intro now h
      cases e with
      | edge t =>
          obtain ⟨ht, -, h⟩ := h
          obtain ⟨hsorted, hle⟩ := ih h
          refine ⟨List.Pairwise.cons hle hsorted, fun u hu => ?_⟩
          rcases List.mem_cons.mp hu with rfl | hu
          · exact ht
          · exact ht.trans (hle u hu)
      | getCount t read compared =>
          obtain ⟨⟨ht, -, h⟩, rfl, rfl⟩ := h
          obtain ⟨hsorted, hle⟩ := ih h
          exact ⟨hsorted, fun u hu => ht.trans (hle u hu)⟩
      | zeroCount => exact ih h

theorem InTime.left {es more : List Happening} : ∀ {now : ℕ}, InTime hold now (es ++ more) →
    InTime hold now es := by
  induction es with
  | nil => exact fun _ => trivial
  | cons e es ih =>
      intro now h
      cases e with
      | edge t => exact ⟨h.1, h.2.1, ih h.2.2⟩
      | getCount t read compared => exact ⟨⟨h.1.1, h.1.2.1, ih h.1.2.2⟩, h.2⟩
      | zeroCount => exact ih h

/-- Since its last reset the counter has counted the edges a debouncer lets through, also if the
timer has come round meanwhile. -/
theorem counts_debounced {ignoreTime : UInt32} {start : ℕ} {before after : List Happening}
    (h : InTime ignoreTime.toNat start (before ++ .zeroCount :: after))
    (hafter : .zeroCount ∉ after) :
    ∃ past counted : List ℕ, past.Sublist (edges before) ∧ counted.Sublist (edges after) ∧
      (past ++ counted).Pairwise (fun s t => s + ignoreTime.toNat ≤ t) ∧
      (∀ t ∈ edges (before ++ after), ∃ s ∈ past ++ counted,
        s ≤ t ∧ (s ≠ t → t < s + ignoreTime.toNat)) ∧
      ((before ++ .zeroCount :: after).foldl happen
        (construct ignoreTime (UInt32.ofNat start))).count = counted.length % 2 ^ 32 := by
  have hedges : edges (before ++ .zeroCount :: after) = edges (before ++ after) := by
    rw [edges_append, edges_append]
    rfl
  obtain ⟨hsorted, -⟩ := h.edges_sorted
  obtain ⟨now₁, n₁, hmore, hfollows₁, -⟩ := (follows_construct ignoreTime start).run h.left
  have hin : InTime ignoreTime.toNat now₁ after := hmore (.zeroCount :: after) h
  obtain ⟨now₂, n₂, -, hfollows₂, hn⟩ := hfollows₁.zeroCount.run hin
  have hall : accepted ignoreTime.toNat none (edges (before ++ after)) =
      accepted ignoreTime.toNat none (edges before) ++ accepted ignoreTime.toNat
        (lastAccepted ignoreTime.toNat none (edges before)) (edges after) := by
    rw [edges_append, accepted_append]
  refine ⟨_, _, accepted_sublist, accepted_sublist, hall ▸ accepted_spaced, fun t ht => ?_, ?_⟩
  · obtain ⟨s, hs, hle⟩ := @accepted_covers ignoreTime.toNat t _ none (hedges ▸ hsorted) ht
      (by simp)
    rw [hall] at hs
    exact ⟨s, hs.resolve_left (by simp), hle⟩
  · rw [List.foldl_append, List.foldl_cons]
    have hcount := hfollows₂.count
    rw [hn hafter, Nat.zero_add] at hcount
    exact hcount

/-- A millisecond. -/
def holdOff : UInt32 := 1000

/-- Two bounces of one edge, and an edge for which the timer has come round. -/
def bounces : List Happening :=
  [.edge 5000, .edge 5200, .edge 4294960000, .getCount 4294967000 [] [], .edge 4294970000]

theorem inTime_bounces : InTime holdOff.toNat 0 ([] ++ .zeroCount :: bounces) := by
  simp [InTime, bounces, holdOff]

theorem counts_debounced_bounces :
    ∃ past counted : List ℕ, past.Sublist (edges []) ∧ counted.Sublist (edges bounces) ∧
      (past ++ counted).Pairwise (fun s t => s + holdOff.toNat ≤ t) ∧
      (∀ t ∈ edges ([] ++ bounces), ∃ s ∈ past ++ counted,
        s ≤ t ∧ (s ≠ t → t < s + holdOff.toNat)) ∧
      (([] ++ Happening.zeroCount :: bounces).foldl happen
        (construct holdOff (UInt32.ofNat 0))).count = counted.length % 2 ^ 32 :=
  counts_debounced inTime_bounces (by decide)

/-- An edge that comes right after `GetCount` has read the timer does not keep the next one, a
microsecond later, from being counted. -/
example : ([.edge 5000, .getCount 20000 [20001] [], .edge 20002].foldl happen
    (construct holdOff (UInt32.ofNat 0))).count = 3 := by decide

end CDebouncedFallingEdgeCounter

/-! ### The speed of the wind -/

open CDebouncedFallingEdgeCounter

structure CAnemometer (F : Type) where
  counter : CDebouncedFallingEdgeCounter
  m_CurrentWindSpeed : F
  m_MaximumWindSpeed : F

/-- A second of the anemometer: the edges in it and the time of the tick that ends it. -/
structure Second where
  edges : List ℕ
  tick : ℕ

/-- What it is for the counter. -/
def Second.happenings (s : Second) : List Happening :=
  s.edges.map .edge ++ [.getCount s.tick [] [], .zeroCount]

namespace CAnemometer

section
variable {F : Type} (u : FloatUnit F) [LinearOrder F]

def ResetMaximumWindSpeed (a : CAnemometer F) : CAnemometer F :=
  { a with m_MaximumWindSpeed := a.m_CurrentWindSpeed }

/-- The constructor. -/
def construct (IgnoreTimeForDebounceInMicroSeconds now : UInt32) : CAnemometer F :=
  ResetMaximumWindSpeed
    ⟨.construct IgnoreTimeForDebounceInMicroSeconds now, u.lit 0, u.lit 0⟩

def FallingEdgeISR (CurrentTime : UInt32) (a : CAnemometer F) : CAnemometer F :=
  { a with counter := a.counter.FallingEdgeISR CurrentTime }

def OneSecondTickerISR (CurrentTime : UInt32) (a : CAnemometer F) : CAnemometer F :=
  let (GetCurrentCount, counter) := a.counter.GetCountAndZero CurrentTime
  let m_CurrentWindSpeed := RemotusHardware.OneSecondTickerISR u GetCurrentCount
  ⟨counter, m_CurrentWindSpeed,
    if a.m_MaximumWindSpeed < m_CurrentWindSpeed then m_CurrentWindSpeed
    else a.m_MaximumWindSpeed⟩

/-- A second goes by. -/
def second (a : CAnemometer F) (s : Second) : CAnemometer F :=
  OneSecondTickerISR u (UInt32.ofNat s.tick)
    (s.edges.foldl (fun a t => a.FallingEdgeISR (UInt32.ofNat t)) a)

/-! ### Runs of the anemometer -/

variable {u} {hold now : ℕ} {last : Option ℕ} {a : CAnemometer F}

theorem edges_map_edge (ts : List ℕ) : edges (ts.map .edge) = ts := by
  induction ts with
  | nil => rfl
  | cons t ts ih => exact congrArg (t :: ·) ih

omit [LinearOrder F] in
/-- The edges of a second reach the counter alone. -/
theorem foldl_FallingEdgeISR (ts : List ℕ) : ∀ a : CAnemometer F,
    ts.foldl (fun a t => a.FallingEdgeISR (UInt32.ofNat t)) a =
      { a with counter := (ts.map Happening.edge).foldl happen a.counter } := by
  induction ts with
  | nil => exact fun a => rfl
  | cons t ts ih =>
      intro a
      rw [List.foldl_cons, ih]
      rfl

/-- A tick makes a speed of the edges counted in its second, and starts the next one with none. -/
theorem second_follows (h : Follows hold now last 0 a.counter) {s : Second} {more : List Happening}
    (hin : InTime hold now (s.happenings ++ more)) :
    Follows hold s.tick (lastAccepted hold last s.edges) 0 (a.second u s).counter ∧
      InTime hold s.tick more ∧
      (a.second u s).m_CurrentWindSpeed = RemotusHardware.OneSecondTickerISR u
        ((accepted hold last s.edges).length % 2 ^ 32) ∧
      (a.second u s).m_MaximumWindSpeed =
        max a.m_MaximumWindSpeed (a.second u s).m_CurrentWindSpeed := by
  rw [Second.happenings, List.append_assoc] at hin
  obtain ⟨now', n', hmore, hfollows, hn⟩ := h.run hin.left
  obtain ⟨⟨ht, hgap, hrest⟩, -⟩ := hmore _ hin
  have hnone : Happening.zeroCount ∉ s.edges.map Happening.edge := by simp
  have hcount := hfollows.count
  rw [hn hnone, edges_map_edge, Nat.zero_add] at hcount
  rw [edges_map_edge] at hfollows
  have hread : ((s.edges.map Happening.edge).foldl happen a.counter).GetCount (UInt32.ofNat s.tick)
      = ((accepted hold last s.edges).length % 2 ^ 32, _) :=
    Prod.ext (by rw [GetCount_fst, hcount]) rfl
  rw [second, foldl_FallingEdgeISR]
  refine ⟨(hfollows.getCount ht hgap).zeroCount, hrest, ?_, ?_⟩
  · simp only [OneSecondTickerISR, GetCountAndZero, GetCount_fst, hcount]
  · simp only [OneSecondTickerISR]
    exact (max_def_lt _ _).symm

/-- The speeds made of what is counted in each second. -/
def speeds (u : FloatUnit F) (counted : List (List ℕ)) : List F :=
  counted.map fun ts => RemotusHardware.OneSecondTickerISR u (ts.length % 2 ^ 32)

omit [LinearOrder F] in
theorem speeds_cons (ts : List ℕ) (counted : List (List ℕ)) : speeds u (ts :: counted) =
    RemotusHardware.OneSecondTickerISR u (ts.length % 2 ^ 32) :: speeds u counted := rfl

theorem seconds_follow {ss : List Second} : ∀ {now : ℕ} {last : Option ℕ} {a : CAnemometer F}
    {more : List Happening}, Follows hold now last 0 a.counter →
    InTime hold now (ss.flatMap Second.happenings ++ more) →
    ∃ now' counted, Follows hold now' (lastAccepted hold last (ss.flatMap Second.edges)) 0
        (ss.foldl (second u) a).counter ∧
      InTime hold now' more ∧
      List.Forall₂ (fun ts s => ts.Sublist s.edges) counted ss ∧
      counted.flatten = accepted hold last (ss.flatMap Second.edges) ∧
      (ss.foldl (second u) a).m_CurrentWindSpeed =
        (speeds u counted).getLast?.getD a.m_CurrentWindSpeed ∧
      (ss.foldl (second u) a).m_MaximumWindSpeed =
        (speeds u counted).foldl max a.m_MaximumWindSpeed := by
  induction ss with
  | nil => exact fun h hin => ⟨_, [], h, hin, .nil, rfl, rfl, rfl⟩
  | cons s ss ih =>
      intro now last a more h hin
      rw [List.flatMap_cons, List.append_assoc] at hin
      obtain ⟨hfollows, hin, hcurrent, hmax⟩ := second_follows (u := u) h hin
      obtain ⟨now', counted, hend, hmore, hsub, hflat, hlast, hgreatest⟩ := ih hfollows hin
      refine ⟨now', accepted hold last s.edges :: counted, ?_, hmore, .cons accepted_sublist hsub,
        ?_, ?_, ?_⟩
      · rw [List.flatMap_cons, lastAccepted_append]
        exact hend
      · rw [List.flatMap_cons, accepted_append, List.flatten_cons, hflat]
      · rw [List.foldl_cons, hlast, speeds_cons, List.getLast?_cons, hcurrent]
        rfl
      · rw [List.foldl_cons, hgreatest, hmax, hcurrent]
        rfl

/-- Along a run of seconds the current speed is that of the edges counted in the last one, and the
maximum is the greatest since it was reset, the one it was reset to included. -/
theorem wind_speeds (u : FloatUnit F) {ignoreTime : UInt32} {start : ℕ} {before after : List Second}
    (h : InTime ignoreTime.toNat start ((before ++ after).flatMap Second.happenings)) :
    ∃ counted counted' : List (List ℕ),
      List.Forall₂ (fun ts s => ts.Sublist s.edges) (counted ++ counted') (before ++ after) ∧
      (counted ++ counted').flatten.Pairwise (fun s t => s + ignoreTime.toNat ≤ t) ∧
      (∀ t ∈ (before ++ after).flatMap Second.edges, ∃ s ∈ (counted ++ counted').flatten,
        s ≤ t ∧ (s ≠ t → t < s + ignoreTime.toNat)) ∧
      ∀ first, first = before.foldl (second u) (construct u ignoreTime (UInt32.ofNat start)) →
        first.m_CurrentWindSpeed = (speeds u counted).getLast?.getD (u.lit 0) ∧
        (after.foldl (second u) first.ResetMaximumWindSpeed).m_CurrentWindSpeed =
          (speeds u counted').getLast?.getD first.m_CurrentWindSpeed ∧
        (after.foldl (second u) first.ResetMaximumWindSpeed).m_MaximumWindSpeed =
          (speeds u counted').foldl max first.m_CurrentWindSpeed := by
  have hsorted := h.edges_sorted.1
  have hedges (ss : List Second) :
      edges (ss.flatMap Second.happenings) = ss.flatMap Second.edges := by
    induction ss with
    | nil => rfl
    | cons s ss ih =>
        rw [List.flatMap_cons, edges_append, Second.happenings, edges_append, edges_map_edge, ih,
          List.flatMap_cons]
        simp [edges]
  rw [hedges] at hsorted
  rw [List.flatMap_append] at h
  obtain ⟨now₁, counted, hend, hmore, hsub, hflat, hcurrent, -⟩ :=
    seconds_follow (u := u) (a := construct u ignoreTime (UInt32.ofNat start))
      (follows_construct ignoreTime start) h
  have hreset : Follows ignoreTime.toNat now₁
      (lastAccepted ignoreTime.toNat none (before.flatMap Second.edges)) 0
      (before.foldl (second u) (construct u ignoreTime
        (UInt32.ofNat start))).ResetMaximumWindSpeed.counter := hend
  have hrest : InTime ignoreTime.toNat now₁ (after.flatMap Second.happenings ++ []) := by
    rwa [List.append_nil]
  obtain ⟨-, counted', -, -, hsub', hflat', hcurrent', hmax'⟩ :=
    seconds_follow (u := u) hreset hrest
  have hall : (counted ++ counted').flatten =
      accepted ignoreTime.toNat none ((before ++ after).flatMap Second.edges) := by
    rw [List.flatten_append, hflat, hflat', List.flatMap_append, accepted_append]
  refine ⟨counted, counted', List.rel_append hsub hsub', hall ▸ accepted_spaced, fun t ht => ?_, ?_⟩
  · obtain ⟨s, hs, hle⟩ := @accepted_covers ignoreTime.toNat t _ none hsorted ht (by simp)
    exact ⟨s, hall ▸ hs.resolve_left (by simp), hle⟩
  · rintro first rfl
    exact ⟨hcurrent, hcurrent', hmax'⟩

end

/-- A second of wind, with a bounce. -/
def breeze : List Second := [⟨[5000, 5300, 400000, 800000], 1000000⟩]

/-- Two seconds of wind; an edge in the second one bounces as well. -/
def gust : List Second :=
  [⟨[1050000, 1200000, 1400000, 1600000, 1800000], 2000000⟩, ⟨[2300000, 2300700], 3000000⟩]

theorem inTime_gust : InTime holdOff.toNat 0 ((breeze ++ gust).flatMap Second.happenings) := by
  simp [InTime, breeze, gust, Second.happenings, holdOff]

theorem wind_speeds_gust : ∃ counted counted' : List (List ℕ),
    List.Forall₂ (fun ts s => ts.Sublist s.edges) (counted ++ counted') (breeze ++ gust) ∧
    (counted ++ counted').flatten.Pairwise (fun s t => s + holdOff.toNat ≤ t) ∧
    (∀ t ∈ (breeze ++ gust).flatMap Second.edges, ∃ s ∈ (counted ++ counted').flatten,
      s ≤ t ∧ (s ≠ t → t < s + holdOff.toNat)) ∧
    ∀ first, first =
        breeze.foldl (second exactUnit) (construct exactUnit holdOff (UInt32.ofNat 0)) →
      first.m_CurrentWindSpeed = (speeds exactUnit counted).getLast?.getD 0 ∧
      (gust.foldl (second exactUnit) first.ResetMaximumWindSpeed).m_CurrentWindSpeed =
        (speeds exactUnit counted').getLast?.getD first.m_CurrentWindSpeed ∧
      (gust.foldl (second exactUnit) first.ResetMaximumWindSpeed).m_MaximumWindSpeed =
        (speeds exactUnit counted').foldl max first.m_CurrentWindSpeed :=
  @wind_speeds ℚ _ exactUnit holdOff 0 breeze gust inTime_gust

end CAnemometer

end RemotusHardware
