import Mathlib

/-! # Scanners

A scanner takes a value off the front of a list and leaves the rest, or fails.  Scanners that
call each other are given an amount of fuel, a family `ℕ → Scanner β α` each.

`Local n P k` says what a scanner has looked at when it succeeds with fuel `k`: it has taken at
least `n` elements off, all of them good ones, and reads the same from these elements whatever
stands behind them and whatever the fuel, as long as that is as much as their number and an end
of the input stays an end.  An end is where none of the elements follows of which the scanner
would take more.  The rules `Local.bind`, `Local.turn` and `Local.expect_bind` carry it through
sequences, loops over separated items and lookahead. -/

/-- A scanner of elements of `β` for values of `α`. -/
abbrev Scanner (β α : Type) := StateT (List β) Option α

namespace Scanner

variable {β α γ : Type}

/-- The next element. -/
def getc : Scanner β β
  | [] => none
  | b :: s => some (b, s)

def fail : Scanner β α := fun _ => none

/-- The next element that is not to be skipped. -/
def token (skipped : β → Bool) : Scanner β β := fun s => getc (s.dropWhile skipped)

@[simp] theorem fail_apply (s : List β) : (fail : Scanner β α) s = none := rfl

theorem bind_eq_some {p : Scanner β α} {q : α → Scanner β γ} {s r : List β} {v : γ} :
    (p >>= q) s = some (v, r) ↔ ∃ a m, p s = some (a, m) ∧ q a m = some (v, r) := by
  change (p s).bind (fun x => q x.1 x.2) = _ ↔ _
  rw [Option.bind_eq_some_iff]
  exact ⟨fun ⟨⟨a, m⟩, h⟩ => ⟨a, m, h⟩, fun ⟨a, m, h⟩ => ⟨⟨a, m⟩, h⟩⟩

theorem bind_of_eq {p : Scanner β α} {q : α → Scanner β γ} {s m : List β} {a : α}
    (h : p s = some (a, m)) : (p >>= q) s = q a m := by
  change (p s).bind (fun x => q x.1 x.2) = _
  rw [h]
  rfl

theorem pure_eq_some {a v : α} {s r : List β} :
    (pure a : Scanner β α) s = some (v, r) ↔ a = v ∧ s = r := by
  change some (a, s) = _ ↔ _
  rw [Option.some.injEq, Prod.mk.injEq]

/-- Nothing but elements to be skipped is left, or a token. -/
theorem nothing_or_token (skipped : β → Bool) (s : List β) :
    s.dropWhile skipped = [] ∨ ∃ w b t, s = w ++ b :: t ∧ (∀ a ∈ w, skipped a = true) ∧
      skipped b = false := by
  have hsplit := List.takeWhile_append_dropWhile (p := skipped) (l := s)
  cases hd : s.dropWhile skipped with
  | nil => exact .inl rfl
  | cons b t =>
      rw [hd] at hsplit
      refine .inr ⟨_, b, t, hsplit.symm, fun a ha => List.mem_takeWhile_imp ha, ?_⟩
      have := List.head_dropWhile_not skipped (l := s) (by simp [hd])
      simpa [hd] using this

theorem token_nothing {skipped : β → Bool} {s : List β} (h : s.dropWhile skipped = []) :
    token skipped s = none := by
  rw [token, h]
  rfl

theorem token_eq_some {skipped : β → Bool} {s r : List β} {b : β} :
    token skipped s = some (b, r) ↔
      ∃ w, s = w ++ b :: r ∧ (∀ a ∈ w, skipped a = true) ∧ skipped b = false := by
  constructor
  · intro h
    rcases nothing_or_token skipped s with h' | ⟨w, a, t, rfl, hw, ha⟩
    · rw [token_nothing h'] at h
      cases h
    · rw [token, List.dropWhile_append_of_pos hw, List.dropWhile_cons_of_neg (by simp [ha])] at h
      obtain ⟨rfl, rfl⟩ : a = b ∧ t = r := by simpa [getc] using h
      exact ⟨w, rfl, hw, ha⟩
  · rintro ⟨w, rfl, hw, hb⟩
    rw [token, List.dropWhile_append_of_pos hw, List.dropWhile_cons_of_neg (by simp [hb])]
    rfl

/-! ### What a scanner looks at -/

/-- None of the elements of which more would be taken follows. -/
def Ends (more : β → Bool) (r : List β) : Prop := ∀ b ∈ r.head?, more b = false

theorem ends_append {more : β → Bool} {c r r' : List β} (h : Ends more r → Ends more r') :
    Ends more (c ++ r) → Ends more (c ++ r') := by
  cases c with
  | nil => exact h
  | cons b c => exact id

section
variable (more : β → Bool) (good : β → Prop)

/-- Whatever the scanner has taken off, it would take off again. -/
def Local (n : ℕ) (P : ℕ → Scanner β α) (k : ℕ) : Prop :=
  ∀ ⦃s r : List β⦄ ⦃v : α⦄, P k s = some (v, r) →
    ∃ c, s = c ++ r ∧ n ≤ c.length ∧ (∀ b ∈ c, good b) ∧
      ∀ k' r', c.length ≤ k' → (Ends more r → Ends more r') → P k' (c ++ r') = some (v, r')

end

section
variable {more : β → Bool} {good : β → Prop} {n m k : ℕ} {skipped : β → Bool}

theorem Local.weaken {P : ℕ → Scanner β α} (h : Local more good n P k) (hm : m ≤ n) :
    Local more good m P k := by
  intro s r v hs
  obtain ⟨c, hc, hn, hrest⟩ := h hs
  exact ⟨c, hc, hm.trans hn, hrest⟩

theorem local_pure (a : α) : Local more good 0 (fun _ => pure a) k := by
  intro s r v hs
  obtain ⟨rfl, rfl⟩ := pure_eq_some.mp hs
  exact ⟨[], rfl, le_rfl, by simp, fun _ _ _ _ => rfl⟩

theorem local_fail : Local more good n (fun _ => (fail : Scanner β α)) k := by
  intro s r v hs
  cases hs

theorem local_ite {c : Prop} [Decidable c] {P Q : ℕ → Scanner β α} (hP : c → Local more good n P k)
    (hQ : ¬ c → Local more good n Q k) :
    Local more good n (fun k => if c then P k else Q k) k := by
  by_cases h : c
  · simpa only [if_pos h] using hP h
  · simpa only [if_neg h] using hQ h

theorem Local.bind {P : ℕ → Scanner β α} {Q : ℕ → α → Scanner β γ}
    (hP : Local more good n P k) (hQ : ∀ a, Local more good m (fun k => Q k a) k) :
    Local more good (n + m) (fun k => P k >>= Q k) k := by
  intro s r v hs
  obtain ⟨a, t, h₁, h₂⟩ := bind_eq_some.mp hs
  obtain ⟨c₁, rfl, hn₁, hg₁, hr₁⟩ := hP h₁
  obtain ⟨c₂, rfl, hn₂, hg₂, hr₂⟩ := hQ a h₂
  refine ⟨c₁ ++ c₂, by simp, by simp; omega, ?_, ?_⟩
  · exact List.forall_mem_append.mpr ⟨hg₁, hg₂⟩
  · intro k' r' hk hend
    rw [List.length_append] at hk
    have h₁' := hr₁ k' (c₂ ++ r') (by omega) (ends_append hend)
    rw [List.append_assoc]
    exact (bind_of_eq h₁').trans (hr₂ k' r' (by omega) hend)

/-- One token and what follows it. -/
theorem Local.token_bind {Q : ℕ → β → Scanner β α} (hskip : ∀ b, skipped b = true → good b)
    (hQ : ∀ b, good b → Local more good n (fun k => Q k b) k)
    (hbad : ∀ k b, ¬ good b → Q k b = fail) :
    Local more good (n + 1) (fun k => token skipped >>= Q k) k := by
  intro s r v hs
  obtain ⟨b, t, h₁, h₂⟩ := bind_eq_some.mp hs
  obtain ⟨w, rfl, hw, hb⟩ := token_eq_some.mp h₁
  by_cases hgood : good b
  · obtain ⟨c, rfl, hn, hg, hr⟩ := hQ b hgood h₂
    refine ⟨w ++ b :: c, by simp, by simp; omega, ?_, ?_⟩
    · exact List.forall_mem_append.mpr ⟨fun a ha => hskip a (hw a ha),
        List.forall_mem_cons.mpr ⟨hgood, hg⟩⟩
    · intro k' r' hk hend
      simp only [List.length_append, List.length_cons] at hk
      have h₁' : Scanner.token skipped (w ++ b :: (c ++ r')) = some (b, c ++ r') :=
        token_eq_some.mpr ⟨w, rfl, hw, hb⟩
      rw [List.append_assoc, List.cons_append]
      exact (bind_of_eq h₁').trans (hr k' r' (by omega) hend)
  · rw [hbad k b hgood] at h₂
    cases h₂

theorem getc_eq_token : (getc : Scanner β β) = token fun _ => false := by
  funext s
  cases s <;> rfl

/-- One element and what follows it. -/
theorem Local.getc_bind {Q : ℕ → β → Scanner β α}
    (hQ : ∀ b, good b → Local more good n (fun k => Q k b) k)
    (hbad : ∀ k b, ¬ good b → Q k b = fail) :
    Local more good (n + 1) (fun k => getc >>= Q k) k := by
  rw [getc_eq_token]
  exact Local.token_bind (by simp) hQ hbad

/-- A turn of a recursion with one unit of fuel: it begins with `A` and goes on by a token. -/
theorem Local.turn {P : ℕ → Scanner β α} {A : ℕ → Scanner β γ} {B : ℕ → γ → β → Scanner β α}
    (hsucc : ∀ j, P (j + 1) = A j >>= fun a => token skipped >>= B j a)
    (hskip : ∀ b, skipped b = true → good b) (hA : Local more good 0 A k)
    (hB : ∀ a b, good b → Local more good 0 (fun k => B k a b) k)
    (hbad : ∀ k a b, ¬ good b → B k a b = fail) : Local more good 1 P (k + 1) := by
  intro s r v hs
  rw [hsucc] at hs
  obtain ⟨a, t, h₁, h₂⟩ := bind_eq_some.mp hs
  obtain ⟨c₁, rfl, -, hg₁, hr₁⟩ := hA h₁
  obtain ⟨b, u, h₂, h₃⟩ := bind_eq_some.mp h₂
  obtain ⟨w, rfl, hw, hb⟩ := token_eq_some.mp h₂
  by_cases hgood : good b
  · obtain ⟨c₂, rfl, -, hg₂, hr₂⟩ := hB a b hgood h₃
    refine ⟨c₁ ++ w ++ b :: c₂, by simp, by simp; omega, ?_, ?_⟩
    · intro x hx
      rcases List.mem_append.mp hx with hx | hx
      · rcases List.mem_append.mp hx with hx | hx
        · exact hg₁ x hx
        · exact hskip x (hw x hx)
      · rcases List.mem_cons.mp hx with rfl | hx
        · exact hgood
        · exact hg₂ x hx
    · intro k' r' hk hend
      simp only [List.length_append, List.length_cons] at hk
      obtain ⟨j, rfl⟩ : ∃ j, k' = j + 1 := ⟨k' - 1, by omega⟩
      have hends : Ends more (w ++ b :: (c₂ ++ r)) → Ends more (w ++ b :: (c₂ ++ r')) := by
        have := ends_append (c := w ++ b :: c₂) hend
        simpa using this
      have h₁' := hr₁ j (w ++ b :: (c₂ ++ r')) (by omega) hends
      have h₂' : Scanner.token skipped (w ++ b :: (c₂ ++ r')) = some (b, c₂ ++ r') :=
        token_eq_some.mpr ⟨w, rfl, hw, hb⟩
      have happ : c₁ ++ w ++ b :: c₂ ++ r' = c₁ ++ (w ++ b :: (c₂ ++ r')) := by simp
      rw [hsucc, happ, bind_of_eq h₁', bind_of_eq h₂']
      exact hr₂ j r' (by omega) hend
  · rw [hbad k a b hgood] at h₃
    cases h₃

/-- A turn that begins with a token. -/
theorem Local.turn_token {P : ℕ → Scanner β α} {B : ℕ → β → Scanner β α}
    (hsucc : ∀ j, P (j + 1) = Scanner.token skipped >>= B j)
    (hskip : ∀ b, skipped b = true → good b)
    (hB : ∀ b, good b → Local more good 0 (fun k => B k b) k)
    (hbad : ∀ k b, ¬ good b → B k b = fail) : Local more good 1 P (k + 1) :=
  Local.turn (A := fun _ => pure ()) (B := fun j _ => B j) (fun j => by rw [hsucc, pure_bind]) hskip
    (local_pure ()) (fun _ => hB) fun j _ => hbad j

/-- A turn that begins with an element. -/
theorem Local.turn_getc {P : ℕ → Scanner β α} {B : ℕ → β → Scanner β α}
    (hsucc : ∀ j, P (j + 1) = getc >>= B j)
    (hB : ∀ b, good b → Local more good 0 (fun k => B k b) k)
    (hbad : ∀ k b, ¬ good b → B k b = fail) : Local more good 1 P (k + 1) :=
  Local.turn_token (fun j => by rw [hsucc, getc_eq_token]) (by simp) hB hbad

theorem local_zero {P : ℕ → Scanner β α} (hzero : P 0 = fail) : Local more good n P 0 := by
  intro s r v hs
  rw [hzero] at hs
  cases hs

/-- A success does not depend on the fuel, once that is as much as the length of the input. -/
theorem Local.fuel {P : ℕ → Scanner β α} (h : Local more good n P k) {s r : List β} {v : α}
    (hs : P k s = some (v, r)) {k' : ℕ} (hk : s.length ≤ k') : P k' s = some (v, r) := by
  obtain ⟨c, rfl, -, -, hr⟩ := h hs
  rw [List.length_append] at hk
  exact hr k' r (by omega) id

end

/-! ### Looking ahead -/

section
variable [DecidableEq β]

/-- Whether the next element that is not to be skipped is `x`, which is then taken off. -/
def expect (skipped : β → Bool) (x : β) : Scanner β Bool := fun s =>
  match s.dropWhile skipped with
  | [] => some (false, [])
  | b :: t => if b = x then some (true, t) else some (false, b :: t)

variable {skipped : β → Bool}

theorem expect_apply {x b : β} {w t : List β} (hw : ∀ a ∈ w, skipped a = true)
    (hb : skipped b = false) :
    expect skipped x (w ++ b :: t) = if b = x then some (true, t) else some (false, b :: t) := by
  unfold expect
  rw [List.dropWhile_append_of_pos hw, List.dropWhile_cons_of_neg (by simp [hb])]

theorem expect_nothing {x : β} {s : List β} (h : s.dropWhile skipped = []) :
    expect skipped x s = some (false, []) := by rw [expect, h]

/-- The end of an item: one of two elements follows. -/
theorem expect_expect (x y : β) (P Q : Scanner β α) :
    (do if ← expect skipped x then P else if ← expect skipped y then Q else fail) =
      (token skipped >>= fun b => if b = x then P else if b = y then Q else fail) := by
  funext s
  rcases nothing_or_token skipped s with h | ⟨w, b, t, rfl, hw, hb⟩
  · have hnone : (token skipped >>= fun b => if b = x then P else if b = y then Q else fail) s =
        none := by
      change (token skipped s).bind _ = none
      rw [token_nothing h]
      rfl
    rw [hnone, bind_of_eq (expect_nothing h)]
    exact bind_of_eq (expect_nothing rfl)
  · rw [bind_of_eq (token_eq_some.mpr ⟨w, rfl, hw, hb⟩)]
    by_cases hx : b = x
    · rw [bind_of_eq (a := true) (m := t) (by rw [expect_apply hw hb, if_pos hx]), if_pos hx]
      rfl
    · have hy : expect skipped y (b :: t) =
          if b = y then some (true, t) else some (false, b :: t) :=
        expect_apply (w := []) (by simp) hb
      rw [bind_of_eq (a := false) (m := b :: t) (by rw [expect_apply hw hb, if_neg hx]), if_neg hx]
      by_cases hby : b = y
      · rw [if_pos hby] at hy ⊢
        exact bind_of_eq hy
      · rw [if_neg hby] at hy ⊢
        exact bind_of_eq hy

theorem expect_fail (x : β) (P : Scanner β α) :
    (do if ← expect skipped x then P else fail) =
      (token skipped >>= fun b => if b = x then P else fail) := by
  funext s
  rcases nothing_or_token skipped s with h | ⟨w, b, t, rfl, hw, hb⟩
  · rw [bind_of_eq (expect_nothing h)]
    change none = (token skipped s).bind _
    rw [token_nothing h]
    rfl
  · rw [bind_of_eq (token_eq_some.mpr ⟨w, rfl, hw, hb⟩)]
    by_cases hx : b = x
    · rw [bind_of_eq (a := true) (m := t) (by rw [expect_apply hw hb, if_pos hx]), if_pos hx]
      rfl
    · rw [bind_of_eq (a := false) (m := b :: t) (by rw [expect_apply hw hb, if_neg hx]), if_neg hx]
      rfl

section
variable {more : β → Bool} {good : β → Prop} {k : ℕ}

/-- A choice by the next element, which is taken off in one case and looked at in the other. -/
theorem Local.expect_bind {x : β} {P Q : ℕ → Scanner β α} (hskip : ∀ b, skipped b = true → good b)
    (hx : good x) (hP : Local more good 0 P k) (hQ : Local more good 1 Q k) :
    Local more good 1 (fun k => do if ← expect skipped x then P k else Q k) k := by
  intro s r v hs
  obtain ⟨found, t, h₁, h₂⟩ := bind_eq_some.mp hs
  rcases nothing_or_token skipped s with h | ⟨w, b, u, rfl, hw, hb⟩
  · obtain ⟨rfl, rfl⟩ : false = found ∧ [] = t := by simpa [expect_nothing h] using h₁
    obtain ⟨c, hc, hn, -⟩ := hQ h₂
    have := congrArg List.length hc
    simp at this
    omega
  · rw [expect_apply hw hb] at h₁
    by_cases hbx : b = x
    · subst hbx
      obtain ⟨rfl, rfl⟩ : true = found ∧ u = t := by simpa using h₁
      obtain ⟨c, rfl, -, hg, hr⟩ := hP h₂
      refine ⟨w ++ b :: c, by simp, by simp; omega, ?_, ?_⟩
      · exact List.forall_mem_append.mpr ⟨fun a ha => hskip a (hw a ha),
          List.forall_mem_cons.mpr ⟨hx, hg⟩⟩
      · intro k' r' hk hend
        simp only [List.length_append, List.length_cons] at hk
        have h₁' : Scanner.expect skipped b (w ++ b :: (c ++ r')) = some (true, c ++ r') := by
          rw [expect_apply hw hb, if_pos rfl]
        rw [List.append_assoc, List.cons_append]
        exact (bind_of_eq h₁').trans (hr k' r' (by omega) hend)
    · obtain ⟨rfl, rfl⟩ : false = found ∧ b :: u = t := by simpa [hbx] using h₁
      obtain ⟨c, hc, hn, hg, hr⟩ := hQ h₂
      obtain ⟨c, rfl⟩ : ∃ c', c = b :: c' := by
        cases c with
        | nil => simp at hn
        | cons a c => exact ⟨c, by rw [(List.cons.inj hc).1]⟩
      obtain rfl := (List.cons.inj hc).2
      refine ⟨w ++ b :: c, by simp, by simp; omega, ?_, ?_⟩
      · exact List.forall_mem_append.mpr ⟨fun a ha => hskip a (hw a ha), hg⟩
      · intro k' r' hk hend
        simp only [List.length_append, List.length_cons] at hk
        have h₁' : Scanner.expect skipped x (w ++ b :: (c ++ r')) =
            some (false, b :: (c ++ r')) := by rw [expect_apply hw hb, if_neg hbx]
        rw [List.append_assoc, List.cons_append]
        exact (bind_of_eq h₁').trans (hr k' r' (by simp; omega) hend)

end

end

end Scanner
