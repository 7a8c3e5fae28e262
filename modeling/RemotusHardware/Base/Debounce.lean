import Mathlib

/-! # Debouncing

Of the edges of a bouncing contact those count that come at least `hold` after the last one that
has counted (`accepted`).  The edges that count are that far apart (`accepted_spaced`), and every
edge, if their times ascend, is one of them or comes within `hold` after one
(`accepted_covers`).  Debouncing can be interrupted at any edge if the last one that has counted
is kept (`accepted_append`). -/

namespace Debounce

variable (hold : ℕ)

/-- An edge at `t` counts if the last one that has counted was at `last`. -/
def Ready (last : Option ℕ) (t : ℕ) : Prop := ∀ l ∈ last, l + hold ≤ t

instance (last : Option ℕ) (t : ℕ) : Decidable (Ready hold last t) :=
  inferInstanceAs (Decidable (∀ l ∈ last, l + hold ≤ t))

/-- The edges that count. -/
def accepted : Option ℕ → List ℕ → List ℕ
  | _, [] => []
  | last, t :: ts =>
      if Ready hold last t then t :: accepted (some t) ts else accepted last ts

/-- The last edge that has counted after these. -/
def lastAccepted (last : Option ℕ) (ts : List ℕ) : Option ℕ :=
  (accepted hold last ts).getLast?.or last

variable {hold} {last : Option ℕ} {l t : ℕ} {ts us : List ℕ}

theorem accepted_cons_of_ready (h : Ready hold last t) :
    accepted hold last (t :: ts) = t :: accepted hold (some t) ts := if_pos h

theorem accepted_cons_of_not_ready (h : ¬ Ready hold last t) :
    accepted hold last (t :: ts) = accepted hold last ts := if_neg h

@[simp] theorem lastAccepted_nil : lastAccepted hold last [] = last := rfl

theorem lastAccepted_cons_of_ready (h : Ready hold last t) :
    lastAccepted hold last (t :: ts) = lastAccepted hold (some t) ts := by
  unfold lastAccepted
  rw [accepted_cons_of_ready h, List.getLast?_cons]
  cases (accepted hold (some t) ts).getLast? with
  | none => rfl
  | some u => rfl

theorem lastAccepted_cons_of_not_ready (h : ¬ Ready hold last t) :
    lastAccepted hold last (t :: ts) = lastAccepted hold last ts := by
  unfold lastAccepted
  rw [accepted_cons_of_not_ready h]

theorem accepted_sublist : (accepted hold last ts).Sublist ts := by
  induction ts generalizing last with
  | nil => exact List.Sublist.refl []
  | cons t ts ih =>
      by_cases h : Ready hold last t
      · rw [accepted_cons_of_ready h]
        exact ih.cons_cons t
      · rw [accepted_cons_of_not_ready h]
        exact ih.cons t

/-- Debouncing is continued with the last edge that has counted. -/
theorem accepted_append : accepted hold last (ts ++ us) =
    accepted hold last ts ++ accepted hold (lastAccepted hold last ts) us := by
  induction ts generalizing last with
  | nil => rfl
  | cons t ts ih =>
      rw [List.cons_append]
      by_cases h : Ready hold last t
      · rw [accepted_cons_of_ready h, accepted_cons_of_ready h, lastAccepted_cons_of_ready h, ih,
          List.cons_append]
      · rw [accepted_cons_of_not_ready h, accepted_cons_of_not_ready h,
          lastAccepted_cons_of_not_ready h, ih]

theorem lastAccepted_append : lastAccepted hold last (ts ++ us) =
    lastAccepted hold (lastAccepted hold last ts) us := by
  induction ts generalizing last with
  | nil => rfl
  | cons t ts ih =>
      rw [List.cons_append]
      by_cases h : Ready hold last t
      · rw [lastAccepted_cons_of_ready h, lastAccepted_cons_of_ready h, ih]
      · rw [lastAccepted_cons_of_not_ready h, lastAccepted_cons_of_not_ready h, ih]

/-- What counts after an edge that has counted comes late enough. -/
theorem le_of_mem_accepted (h : t ∈ accepted hold last ts) (hlast : last = some l) :
    l + hold ≤ t := by
  induction ts generalizing last l with
  | nil => cases h
  | cons u ts ih =>
      by_cases hu : Ready hold last u
      · rw [accepted_cons_of_ready hu] at h
        have hl : l + hold ≤ u := hu l hlast
        rcases List.mem_cons.mp h with rfl | h
        · exact hl
        · have := ih h rfl
          omega
      · rw [accepted_cons_of_not_ready hu] at h
        exact ih h hlast

/-- The edges that count are `hold` apart. -/
theorem accepted_spaced : (accepted hold last ts).Pairwise fun s t => s + hold ≤ t := by
  induction ts generalizing last with
  | nil => exact List.Pairwise.nil
  | cons t ts ih =>
      by_cases h : Ready hold last t
      · rw [accepted_cons_of_ready h]
        exact List.Pairwise.cons (fun u hu => le_of_mem_accepted hu rfl) ih
      · rw [accepted_cons_of_not_ready h]
        exact ih

/-- An edge that does not count comes shortly after one that does. -/
theorem accepted_covers {last : Option ℕ} (hts : ts.Pairwise (· ≤ ·)) (ht : t ∈ ts)
    (hlast : ∀ l ∈ last, ∀ u ∈ ts, l ≤ u) :
    ∃ s, (s ∈ last ∨ s ∈ accepted hold last ts) ∧ s ≤ t ∧ (s ≠ t → t < s + hold) := by
  induction ts generalizing last with
  | nil => cases ht
  | cons u ts ih =>
      obtain ⟨hu, hts⟩ := List.pairwise_cons.mp hts
      by_cases h : Ready hold last u
      · rw [accepted_cons_of_ready h]
        rcases List.mem_cons.mp ht with rfl | ht
        · exact ⟨t, .inr List.mem_cons_self, le_rfl, fun hne => absurd rfl hne⟩
        · have hfirst : ∀ l ∈ some u, ∀ v ∈ ts, l ≤ v := by
            rintro l ⟨rfl⟩
            exact hu
          obtain ⟨s, hs, hle⟩ := ih hts ht hfirst
          refine ⟨s, .inr ?_, hle⟩
          rcases hs with hs | hs
          · obtain rfl := Option.mem_some.mp hs
            exact List.mem_cons_self
          · exact List.mem_cons_of_mem _ hs
      · rw [accepted_cons_of_not_ready h]
        rcases List.mem_cons.mp ht with rfl | ht
        · obtain ⟨l, hl, hlt⟩ : ∃ l ∈ last, t < l + hold := by
            simpa [Ready] using h
          exact ⟨l, .inl hl, hlast l hl t List.mem_cons_self, fun _ => hlt⟩
        · exact ih hts ht fun l hl v hv => hlast l hl v (List.mem_cons_of_mem _ hv)

end Debounce
