import Mathlib

/-! # Runs of a labelled transition system

`Run step s tr t` is a finite run from `s` to `t`; its trace `tr` lists, for every step, the
state before it and its label.  Conditions on the steps of a run (`∀ p ∈ tr, Good p.1 p.2`)
and statements about the states it goes through are both read off the trace.  The rule
`Run.invariant` is the only induction a safety argument needs: what a good step preserves, a
run of good steps preserves, and by `Run.strengthen` each of its steps may assume it.
`Run.ledger` is the rule for books that are kept along a run,
`Run.highWater_le_iff` the one for a mark that only rises. -/

namespace Transition

variable {State Label : Type*}

/-- `Run step s tr t`: the steps listed in `tr` lead from `s` to `t`. -/
inductive Run (step : State → Label → State → Prop) : State → List (State × Label) → State → Prop
  | nil (s : State) : Run step s [] s
  | cons {s t u : State} {l : Label} {tr : List (State × Label)} :
      step s l t → Run step t tr u → Run step s ((s, l) :: tr) u

namespace Run

variable {step : State → Label → State → Prop} {s t u : State} {tr tr' : List (State × Label)}

theorem single {l : Label} (h : step s l t) : Run step s [(s, l)] t := cons h (nil t)

theorem append (h : Run step s tr t) (h' : Run step t tr' u) : Run step s (tr ++ tr') u := by
  induction h with
  | nil => exact h'
  | cons hs _ ih => exact cons hs (ih h')

/-- A run is cut at any of its steps. -/
theorem split {tr₁ tr₂ : List (State × Label)} (h : Run step s (tr₁ ++ tr₂) u) :
    ∃ t, Run step s tr₁ t ∧ Run step t tr₂ u := by
  induction tr₁ generalizing s with
  | nil => exact ⟨s, nil s, h⟩
  | cons p tr₁ ih =>
      cases h with
      | cons hs hr =>
          obtain ⟨t, h₁, h₂⟩ := ih hr
          exact ⟨t, cons hs h₁, h₂⟩

/-- What every good step preserves holds at the end of a run of good steps. -/
theorem invariant {I : State → Prop} {Good : State → Label → Prop}
    (hstep : ∀ s l t, I s → Good s l → step s l t → I t)
    (h : Run step s tr t) (hs : I s) (hg : ∀ p ∈ tr, Good p.1 p.2) : I t := by
  induction h with
  | nil => exact hs
  | cons hst _ ih =>
      exact ih (hstep _ _ _ hs (hg _ List.mem_cons_self) hst)
        fun p hp => hg p (List.mem_cons_of_mem _ hp)

/-- Every step of a run may assume an invariant. -/
theorem strengthen {I : State → Prop} (hI : ∀ s l t, I s → step s l t → I t)
    (h : Run step s tr t) (hs : I s) : Run (fun s l t => I s ∧ step s l t) s tr t := by
  induction h with
  | nil s => exact nil s
  | cons hst _ ih => exact cons ⟨hs, hst⟩ (ih (hI _ _ _ hs hst))

/-- Two quantities that every step drives apart by a known amount are driven apart by a run by the
sum of the amounts of its steps. -/
theorem ledger {f g : State → ℕ} {amount : State → Label → ℕ}
    (hstep : ∀ s l t, step s l t → f t + g s = f s + g t + amount s l) (h : Run step s tr t) :
    f t + g s = f s + g t + (tr.map fun p => amount p.1 p.2).sum := by
  induction h with
  | nil => simp
  | cons hst _ ih =>
      have := hstep _ _ _ hst
      simp only [List.map_cons, List.sum_cons]
      omega

/-- A high-water mark: a quantity that every step raises to some level has been raised to the
highest level of the run. -/
theorem highWater_le_iff {f : State → ℕ} {g : State → Label → ℕ}
    (hstep : ∀ s l t, step s l t → f t = max (f s) (g s l)) (h : Run step s tr t) (n : ℕ) :
    f t ≤ n ↔ f s ≤ n ∧ ∀ p ∈ tr, g p.1 p.2 ≤ n := by
  induction h with
  | nil => simp
  | cons hst _ ih => rw [ih, hstep _ _ _ hst, List.forall_mem_cons, max_le_iff, and_assoc]

/-- Every state a run goes through is reached by a run of an initial part of its steps. -/
theorem reach {p : State × Label} (h : Run step s tr t) (hp : p ∈ tr) :
    ∃ tr₁ tr₂, tr = tr₁ ++ p :: tr₂ ∧ Run step s tr₁ p.1 := by
  obtain ⟨tr₁, tr₂, rfl⟩ := List.append_of_mem hp
  obtain ⟨v, h₁, h₂⟩ := h.split
  cases h₂ with
  | cons _ _ => exact ⟨tr₁, tr₂, rfl, h₁⟩

end Run

end Transition
