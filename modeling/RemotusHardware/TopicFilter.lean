import RemotusHardware.Base.LevelPattern
import RemotusHardware.Client

/-! # Topic filters

`isTopicMatched` of `MQTTClient.h` goes through a filter and a topic byte by byte.  In a filter
whose wildcards fill their levels, `+` stands for one level that is not empty and a `#` at the end
for what is left, if that begins with a level that is not empty; the rest of the filter stands for
itself (`isTopicMatched_iff`).  That is less than the wildcards mean in MQTT, where `+` stands for
an empty level as well and `#` also for none at all, so that no message goes to a handler it is not
meant for.

`deliverMessage` calls the handlers whose filter matches, in the order of their slots, each with
the message, and the default handler only if there is none (`deliverMessage_handlers`). -/

namespace RemotusHardware

open CLib LevelPattern

/-! ### Filters and topics -/

/-- What a level of a filter stands for. -/
def filterLevelOf (l : List UInt8) : Level (List UInt8) :=
  if l = [43] then .any else if l = [35] then .rest else .text l

theorem filterLevelOf_text {l : List UInt8} (hplus : 43 ∉ l) (hhash : 35 ∉ l) :
    filterLevelOf l = .text l := by
  unfold filterLevelOf
  rw [if_neg, if_neg]
  · rintro rfl
    exact hhash List.mem_cons_self
  · rintro rfl
    exact hplus List.mem_cons_self

/-- Wildcards fill their levels, and `#` is the last of them. -/
structure WellFormedFilter (filter : List UInt8) : Prop where
  wildcards : ∀ l ∈ filter.splitOn 47, l = [43] ∨ l = [35] ∨ (43 ∉ l ∧ 35 ∉ l)
  rest_last : ∀ l ∈ (filter.splitOn 47).dropLast, l ≠ [35]

/-- A first level that is not empty. -/
def Begins (ns : List (List UInt8)) : Prop := ∃ n ns', ns = n :: ns' ∧ n ≠ []

/-- The matching of the client. -/
def FilterMatches (filter name : List UInt8) : Prop :=
  Matches (· ≠ []) Begins ((filter.splitOn 47).map filterLevelOf) (name.splitOn 47)

/-- The matching of MQTT. -/
def MqttMatches (filter name : List UInt8) : Prop :=
  Matches (fun _ => True) (fun _ => True) ((filter.splitOn 47).map filterLevelOf) (name.splitOn 47)

/-- Levels with a separator in front of each. -/
def tails (ls : List (List UInt8)) : List UInt8 := ls.flatMap fun l => 47 :: l

/-! ### One level -/

section
variable {F N : List UInt8}

/-- The end, or a separator. -/
def AtSeparator (s : List UInt8) : Prop := ∀ b ∈ s.head?, b = 47

theorem tails_atSeparator (ls : List (List UInt8)) : AtSeparator (tails ls) := by
  cases ls with
  | nil => simp [tails, AtSeparator]
  | cons l ls => simp [tails, AtSeparator]

/-- Text stands for itself. -/
theorem topicMatchLoop_text {f n : List UInt8} (hf : 43 ∉ f ∧ 35 ∉ f ∧ 47 ∉ f) (hn : 47 ∉ n)
    (hF : AtSeparator F) (hN : AtSeparator N) :
    Client.topicMatchLoop (f ++ F) (n ++ N) = true ↔
      f = n ∧ Client.topicMatchLoop F N = true := by
  induction f generalizing n with
  | nil =>
      cases n with
      | nil => simp
      | cons b n =>
          have hb : b ≠ 47 := fun h => hn (h ▸ List.mem_cons_self)
          cases F with
          | nil => simp [Client.topicMatchLoop]
          | cons a F =>
              obtain rfl : a = 47 := hF a rfl
              simp [Client.topicMatchLoop, hb, Ne.symm hb]
  | cons a f ih =>
      simp only [List.mem_cons, not_or] at hf
      obtain ⟨⟨ha₁, hf₁⟩, ⟨ha₂, hf₂⟩, ⟨ha₃, hf₃⟩⟩ := hf
      cases n with
      | nil =>
          cases N with
          | nil => simp [Client.topicMatchLoop]
          | cons b N =>
              obtain rfl : b = 47 := hN b rfl
              simp [Client.topicMatchLoop, Ne.symm ha₃]
      | cons b n =>
          have hb : b ≠ 47 := fun h => hn (h ▸ List.mem_cons_self)
          by_cases hab : a = b
          · subst hab
            have := ih ⟨hf₁, hf₂, hf₃⟩ (fun h => hn (List.mem_cons_of_mem _ h))
            simp [Client.topicMatchLoop, hb, Ne.symm ha₁, Ne.symm ha₂, this]
          · simp [Client.topicMatchLoop, hb, Ne.symm ha₁, Ne.symm ha₂, hab]

theorem topicMatchLoop_any {n : List UInt8} (hn : 47 ∉ n) (hN : AtSeparator N) :
    Client.topicMatchLoop (43 :: F) (n ++ N) = true ↔
      n ≠ [] ∧ Client.topicMatchLoop F N = true := by
  cases n with
  | nil =>
      cases N with
      | nil => simp [Client.topicMatchLoop]
      | cons b N =>
          obtain rfl : b = 47 := hN b rfl
          simp [Client.topicMatchLoop]
  | cons b n =>
      simp only [List.mem_cons, not_or] at hn
      have hskip : (n ++ N).dropWhile (fun a => !decide (a = 47)) = N := by
        have hall : ∀ a ∈ n, (!decide (a = 47)) = true := fun a ha => by
          simpa using fun h : a = 47 => hn.2 (h ▸ ha)
        rw [List.dropWhile_append_of_pos hall]
        cases N with
        | nil => rfl
        | cons b N =>
            obtain rfl : b = 47 := hN b rfl
            rfl
      simp [Client.topicMatchLoop, Ne.symm hn.1, hskip]

theorem topicMatchLoop_rest {n : List UInt8} (hn : 47 ∉ n) (hN : AtSeparator N) :
    Client.topicMatchLoop [35] (n ++ N) = true ↔ n ≠ [] := by
  cases n with
  | nil =>
      cases N with
      | nil => simp [Client.topicMatchLoop]
      | cons b N =>
          obtain rfl : b = 47 := hN b rfl
          simp [Client.topicMatchLoop]
  | cons b n =>
      simp only [List.mem_cons, not_or] at hn
      simp [Client.topicMatchLoop, Ne.symm hn.1]

end

/-! ### A filter of levels -/

/-- The levels of a well-formed filter. -/
structure FilterLevels (fs : List (List UInt8)) : Prop where
  levels : ∀ l ∈ fs, 47 ∉ l ∧ (l = [43] ∨ l = [35] ∨ (43 ∉ l ∧ 35 ∉ l))
  rest_last : ∀ l ∈ fs.dropLast, l ≠ [35]

theorem FilterLevels.tail {f : List UInt8} {fs : List (List UInt8)} (h : FilterLevels (f :: fs)) :
    FilterLevels fs := by
  refine ⟨fun l hl => h.levels l (List.mem_cons_of_mem _ hl), fun l hl => h.rest_last l ?_⟩
  cases fs with
  | nil => simp at hl
  | cons f' fs => exact List.mem_cons_of_mem _ hl

/-- The first level, what follows being matched. -/
theorem topicMatchLoop_level {f n : List UInt8} {fs ns : List (List UInt8)}
    (hf : FilterLevels (f :: fs)) (hn : 47 ∉ n)
    (ih : Client.topicMatchLoop (tails fs) (tails ns) = true ↔
      Matches (· ≠ []) Begins (fs.map filterLevelOf) ns) :
    Client.topicMatchLoop (f ++ tails fs) (n ++ tails ns) = true ↔
      Matches (· ≠ []) Begins ((f :: fs).map filterLevelOf) (n :: ns) := by
  rw [List.map_cons]
  obtain ⟨hsep, rfl | rfl | ⟨hplus, hhash⟩⟩ := hf.levels f List.mem_cons_self
  · have hany : filterLevelOf [43] = .any := rfl
    rw [hany, matches_any_cons_iff, ← ih]
    exact topicMatchLoop_any hn (tails_atSeparator ns)
  · obtain rfl : fs = [] := by
      cases fs with
      | nil => rfl
      | cons f' fs => exact absurd rfl (hf.rest_last [35] List.mem_cons_self)
    have hrest : filterLevelOf [35] = .rest := rfl
    have hbegins : Begins (n :: ns) ↔ n ≠ [] := by
      constructor
      · rintro ⟨n', ns', h, hne⟩
        rwa [(List.cons.inj h).1]
      · exact fun hne => ⟨n, ns, rfl, hne⟩
    rw [hrest, List.map_nil, matches_rest_iff, hbegins]
    exact topicMatchLoop_rest hn (tails_atSeparator ns)
  · rw [filterLevelOf_text hplus hhash, matches_text_cons_iff, ← ih]
    exact topicMatchLoop_text ⟨hplus, hhash, hsep⟩ hn (tails_atSeparator fs) (tails_atSeparator ns)

theorem topicMatchLoop_tails : ∀ (fs ns : List (List UInt8)), FilterLevels fs → (∀ n ∈ ns, 47 ∉ n) →
    (Client.topicMatchLoop (tails fs) (tails ns) = true ↔
      Matches (· ≠ []) Begins (fs.map filterLevelOf) ns)
  | [], ns, _, _ => by
      cases ns <;> simp [tails, Client.topicMatchLoop]
  | f :: fs, [], _, _ => by
      have hloop : Client.topicMatchLoop (tails (f :: fs)) (tails []) = false := rfl
      rw [hloop]
      constructor
      · intro h
        cases h
      · intro h
        rw [List.map_cons] at h
        generalize filterLevelOf f = l at h
        generalize fs.map filterLevelOf = ls at h
        cases h with
        | rest hbegins =>
            obtain ⟨n, ns, h, -⟩ := hbegins
            cases h
  | f :: fs, n :: ns, hfs, hns => by
      have ih := topicMatchLoop_tails fs ns hfs.tail
        fun n' hn' => hns n' (List.mem_cons_of_mem _ hn')
      rw [← topicMatchLoop_level hfs (hns n List.mem_cons_self) ih]
      simp [tails, Client.topicMatchLoop]

theorem WellFormedFilter.levels {filter : List UInt8} (h : WellFormedFilter filter) :
    FilterLevels (filter.splitOn 47) :=
  ⟨fun l hl => ⟨not_mem_splitOn hl, h.wildcards l hl⟩, h.rest_last⟩

/-- A well-formed filter is matched level by level, whatever the topic. -/
theorem topicMatchLoop_iff {filter : List UInt8} (h : WellFormedFilter filter) (name : List UInt8) :
    Client.topicMatchLoop filter name = true ↔ FilterMatches filter name := by
  obtain ⟨f, fs, hfilter⟩ := List.exists_cons_of_ne_nil (List.splitOn_ne_nil 47 filter)
  obtain ⟨n, ns, hname⟩ := List.exists_cons_of_ne_nil (List.splitOn_ne_nil 47 name)
  have hlevels := h.levels
  have hnames : ∀ l ∈ n :: ns, 47 ∉ l := fun l hl => not_mem_splitOn (by rw [hname]; exact hl)
  rw [hfilter] at hlevels
  have ih := topicMatchLoop_tails fs ns hlevels.tail
    fun l hl => hnames l (List.mem_cons_of_mem _ hl)
  have hlevel := topicMatchLoop_level hlevels (hnames n List.mem_cons_self) ih
  have hf : f ++ tails fs = filter := by
    rw [tails, ← intercalate_cons, ← hfilter, List.intercalate_splitOn]
  have hn : n ++ tails ns = name := by
    rw [tails, ← intercalate_cons, ← hname, List.intercalate_splitOn]
  rw [hf, hn] at hlevel
  rw [hlevel, FilterMatches, hfilter, hname]

/-- What the client takes to match does so in MQTT. -/
theorem FilterMatches.mqtt {filter name : List UInt8} (h : FilterMatches filter name) :
    MqttMatches filter name :=
  h.mono (fun _ _ => trivial) fun _ _ => trivial

/-- A filter matches the topic that is spelled as it is. -/
theorem filterMatches_self {filter : List UInt8} (h : WellFormedFilter filter) :
    FilterMatches filter filter := by
  have hlevels := h.levels
  unfold FilterMatches
  generalize filter.splitOn 47 = fs at hlevels
  induction fs with
  | nil => exact .nil
  | cons f fs ih =>
      have ih := ih hlevels.tail
      rw [List.map_cons]
      obtain ⟨-, rfl | rfl | ⟨hplus, hhash⟩⟩ := hlevels.levels f List.mem_cons_self
      · exact .any (by simp) ih
      · obtain rfl : fs = [] := by
          cases fs with
          | nil => rfl
          | cons f' fs => exact absurd rfl (hlevels.rest_last [35] List.mem_cons_self)
        exact .rest ⟨_, _, rfl, by simp⟩
      · rw [filterLevelOf_text hplus hhash]
        exact .text ih

/-! ### Delivery -/

section
variable {H σ : Type}

/-- The topic of an incoming message: `len` bytes from a pointer on. -/
def topicAt (len : ℕ) (mem : List UInt8) : MQTTString := ⟨none, ⟨len, some mem⟩⟩

/-- Comparing the topic with the filter first makes no difference. -/
theorem handles_iff {slot : MessageHandlers H} {filter : CString}
    (hslot : slot.topicFilter = some filter) (h : WellFormedFilter filter.bytes) (len : ℕ)
    (mem : List UInt8) :
    Client.handles slot (topicAt len mem) = true ↔ FilterMatches filter.bytes (mem.take len) := by
  have hmatched : Client.isTopicMatched filter (topicAt len mem) = true ↔
      FilterMatches filter.bytes (mem.take len) := topicMatchLoop_iff h _
  have hequal : MQTTPacket_equals (topicAt len mem) filter = true →
      FilterMatches filter.bytes (mem.take len) := by
    intro heq
    have hdef : MQTTPacket_equals (topicAt len mem) filter =
        (decide (len = strlen filter) && decide (strncmp mem filter.bytes len = 0)) := rfl
    rw [hdef, Bool.and_eq_true, decide_eq_true_eq, decide_eq_true_eq] at heq
    obtain ⟨hlen, hcmp⟩ := heq
    rw [hlen, strncmp_length_eq_zero_iff] at hcmp
    have hname : mem.take len = filter.bytes := by
      rw [hlen, strlen]
      exact (List.prefix_iff_eq_take.mp hcmp).symm
    rw [hname]
    exact filterMatches_self h
  rw [Client.handles, hslot]
  simp only [Bool.or_eq_true]
  exact ⟨fun h => h.elim hequal hmatched.mp, fun h => .inr (hmatched.mpr h)⟩

open Classical in
/-- The handlers subscribed to a topic, in the order of their slots. -/
noncomputable def Client.subscribers (c : Client H) (name : List UInt8) : List H :=
  (c.messageHandlers.filter fun slot =>
    ∃ filter, slot.topicFilter = some filter ∧ FilterMatches filter.bytes name).filterMap (·.fp)

/-- Those a message on the topic goes to: the default handler, if nobody is subscribed. -/
noncomputable def Client.recipients (c : Client H) (name : List UInt8) : List H :=
  if c.subscribers name = [] then c.defaultMessageHandler.toList else c.subscribers name

variable (call : H → MessageData → σ → σ)

theorem deliverLoop_foldl (md : MessageData) :
    ∀ (slots : List (MessageHandlers H)) (rc : ℤ) (a : σ),
      Client.deliverLoop call md slots (rc, a) =
        let called := (slots.filter fun slot => Client.handles slot md.topicName).filterMap (·.fp)
        (if called = [] then rc else SUCCESS, called.foldl (fun a h => call h md a) a)
  | [], _, _ => rfl
  | slot :: slots, rc, a => by
      have ih := deliverLoop_foldl md slots
      cases hh : Client.handles slot md.topicName with
      | false => simp [Client.deliverLoop, hh, ih]
      | true =>
          cases hfp : slot.fp with
          | none => simp [Client.deliverLoop, hh, hfp, ih]
          | some h => simp [Client.deliverLoop, hh, hfp, ih]

/-- A message goes to the handlers subscribed to its topic, once for each of their slots, or else to
the default handler. -/
theorem deliverMessage_handlers (c : Client H)
    (h : ∀ slot ∈ c.messageHandlers, ∀ filter, slot.topicFilter = some filter →
      WellFormedFilter filter.bytes) (len : ℕ) (mem : List UInt8) (message : Message) (a : σ) :
    c.deliverMessage call (topicAt len mem) message a =
      (if c.recipients (mem.take len) = [] then FAILURE else SUCCESS,
        (c.recipients (mem.take len)).foldl
          (fun a h => call h ⟨message, topicAt len mem⟩ a) a) := by
  have hsubscribers : c.subscribers (mem.take len) = (c.messageHandlers.filter fun slot =>
      Client.handles slot (topicAt len mem)).filterMap (·.fp) := by
    unfold Client.subscribers
    congr 1
    apply List.filter_congr
    intro slot hslot
    cases hfilter : slot.topicFilter with
    | none => simp [Client.handles, hfilter]
    | some filter =>
        have := handles_iff hfilter (h slot hslot filter hfilter) len mem
        simp [← this]
  rw [Client.recipients, hsubscribers]
  simp only [Client.deliverMessage, deliverLoop_foldl]
  cases (c.messageHandlers.filter fun slot =>
      Client.handles slot (topicAt len mem)).filterMap (·.fp) with
  | nil => cases c.defaultMessageHandler <;> simp
  | cons h hs => cases c.defaultMessageHandler <;> simp [SUCCESS, FAILURE]

end

/-- A client with a handler for the lamps of every room and one for all that happens in the house;
the numbers stand for the handlers, and a call of one is noted down. -/
def watcher : Client ℕ :=
  .connected [⟨some (.lit "+/lamp"), some 1⟩, ⟨none, none⟩, ⟨some (.lit "house/#"), some 2⟩]

theorem deliverMessage_handlers_watcher :
    watcher.deliverMessage (fun h _ (log : List ℕ) => log ++ [h])
        (topicAt 10 (ascii "house/lamp1")) ⟨0, false, false, 0, [49], 1⟩ [] =
      (if watcher.recipients ((ascii "house/lamp1").take 10) = [] then FAILURE else SUCCESS,
        (watcher.recipients ((ascii "house/lamp1").take 10)).foldl
          (fun log h => log ++ [h]) []) := by
  apply deliverMessage_handlers (fun h _ (log : List ℕ) => log ++ [h]) watcher
  have hlamp : WellFormedFilter (CString.lit "+/lamp").bytes := ⟨by decide, by decide⟩
  have hhouse : WellFormedFilter (CString.lit "house/#").bytes := ⟨by decide, by decide⟩
  intro slot hslot filter hfilter
  simp only [watcher, Client.connected, List.mem_cons, List.not_mem_nil, or_false] at hslot
  rcases hslot with rfl | rfl | rfl
  · rwa [← Option.some.inj hfilter]
  · cases hfilter
  · rwa [← Option.some.inj hfilter]

end RemotusHardware
