import Mathlib

/-! # Patterns of levels

A text is divided into levels by a separator.  A pattern is a list of levels too, each of which is
a text, stands for any level, or stands for all the levels that are left.  `Matches P Q` is the
matching in which a level may only be stood for if `P` holds of it and a rest only if `Q` does: the
fewer conditions, the more matches (`Matches.mono`). -/

namespace LevelPattern

variable {β : Type}

/-- The levels of a text do not contain the separator. -/
theorem not_mem_splitOn [DecidableEq β] {sep : β} {s l : List β} (h : l ∈ s.splitOn sep) :
    sep ∉ l := by
  induction s generalizing l with
  | nil =>
      rw [List.splitOn_nil, List.mem_singleton] at h
      simp [h]
  | cons b s ih =>
      rw [List.splitOn_cons_eq_if_modifyHead] at h
      by_cases hb : b = sep
      · rw [if_pos (by simpa using hb)] at h
        rcases List.mem_cons.mp h with rfl | h
        · exact List.not_mem_nil
        · exact ih h
      · rw [if_neg (by simpa using hb)] at h
        obtain ⟨l', ls, hls⟩ := List.exists_cons_of_ne_nil (List.splitOn_ne_nil sep s)
        rw [hls, List.modifyHead_cons] at h
        rcases List.mem_cons.mp h with rfl | h
        · have hl' : sep ∉ l' := ih (by rw [hls]; exact List.mem_cons_self)
          simp only [List.mem_cons, not_or]
          exact ⟨fun h => hb h.symm, hl'⟩
        · exact ih (by rw [hls]; exact List.mem_cons_of_mem _ h)

/-- A level, then the others, each behind a separator. -/
theorem intercalate_cons (sep : β) (l : List β) (ls : List (List β)) :
    [sep].intercalate (l :: ls) = l ++ ls.flatMap fun l => sep :: l := by
  induction ls generalizing l with
  | nil => simp
  | cons l' ls ih =>
      rw [List.intercalate_cons_cons, ih, List.flatMap_cons]
      simp

inductive Level (α : Type) where
  | text (l : α)
  | any
  | rest

section
variable {α : Type}

inductive Matches (P : α → Prop) (Q : List α → Prop) : List (Level α) → List α → Prop
  | nil : Matches P Q [] []
  | text {l : α} {fs : List (Level α)} {ns : List α} : Matches P Q fs ns →
      Matches P Q (.text l :: fs) (l :: ns)
  | any {n : α} {fs : List (Level α)} {ns : List α} : P n → Matches P Q fs ns →
      Matches P Q (.any :: fs) (n :: ns)
  | rest {ns : List α} : Q ns → Matches P Q [.rest] ns

variable {P P' : α → Prop} {Q Q' : List α → Prop} {fs : List (Level α)} {ns : List α}

theorem Matches.mono (h : Matches P Q fs ns) (hP : ∀ n, P n → P' n) (hQ : ∀ ns, Q ns → Q' ns) :
    Matches P' Q' fs ns := by
  induction h with
  | nil => exact .nil
  | text _ ih => exact .text ih
  | any hn _ ih => exact .any (hP _ hn) ih
  | rest hns => exact .rest (hQ _ hns)

@[simp] theorem matches_nil_iff : Matches P Q [] ns ↔ ns = [] := by
  constructor
  · rintro ⟨⟩
    rfl
  · rintro rfl
    exact .nil

@[simp] theorem matches_text_cons_iff {l n : α} :
    Matches P Q (.text l :: fs) (n :: ns) ↔ l = n ∧ Matches P Q fs ns := by
  constructor
  · rintro ⟨⟩
    exact ⟨rfl, ‹_›⟩
  · rintro ⟨rfl, h⟩
    exact .text h

@[simp] theorem matches_any_cons_iff {n : α} :
    Matches P Q (.any :: fs) (n :: ns) ↔ P n ∧ Matches P Q fs ns := by
  constructor
  · rintro ⟨⟩
    exact ⟨‹_›, ‹_›⟩
  · rintro ⟨hn, h⟩
    exact .any hn h

@[simp] theorem matches_rest_iff : Matches P Q [.rest] ns ↔ Q ns := by
  constructor
  · rintro ⟨⟩
    exact ‹_›
  · exact .rest

end

end LevelPattern
