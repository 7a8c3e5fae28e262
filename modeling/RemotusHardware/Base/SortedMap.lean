import Mathlib

/-! # Maps as lists of pairs in the order of their keys

`insert` enters a pair where its key belongs, in the place of one with the same key; `ofList`
enters one pair after another.  What is then found under a key is the last pair entered with it
(`lookup_ofList`), the keys ascend whatever was entered (`ofList_sorted`), and of pairs that
ascend already the list is the map (`ofList_of_sorted`).  Looking up needs nothing of the order of
the keys. -/

namespace SortedMap

variable {κ α : Type}

def lookup [DecidableEq κ] (key : κ) (kvs : List (κ × α)) : Option α :=
  (kvs.find? fun kv => kv.1 = key).map (·.2)

theorem lookup_cons [DecidableEq κ] (key : κ) (kv : κ × α) (kvs : List (κ × α)) :
    lookup key (kv :: kvs) = if kv.1 = key then some kv.2 else lookup key kvs := by
  by_cases h : kv.1 = key <;> simp [lookup, h]

def Sorted [LT κ] (kvs : List (κ × α)) : Prop := kvs.Pairwise fun a b => a.1 < b.1

theorem sorted_iff_keys [LT κ] {kvs : List (κ × α)} :
    Sorted kvs ↔ (kvs.map (·.1)).Pairwise (· < ·) := List.pairwise_map.symm

section
variable [DecidableEq κ] [LT κ] [DecidableLT κ]

def insert (key : κ) (a : α) : List (κ × α) → List (κ × α)
  | [] => [(key, a)]
  | (k, b) :: kvs =>
      if k = key then (key, a) :: kvs
      else if key < k then (key, a) :: (k, b) :: kvs
      else (k, b) :: insert key a kvs

/-- The pairs entered into `m`, one after another. -/
def insertAll (m kvs : List (κ × α)) : List (κ × α) := kvs.foldl (fun m kv => insert kv.1 kv.2 m) m

def ofList (kvs : List (κ × α)) : List (κ × α) := insertAll [] kvs

theorem insertAll_append_singleton (m kvs : List (κ × α)) (kv : κ × α) :
    insertAll m (kvs ++ [kv]) = insert kv.1 kv.2 (insertAll m kvs) := by simp [insertAll]

theorem ofList_append_singleton (kvs : List (κ × α)) (kv : κ × α) :
    ofList (kvs ++ [kv]) = insert kv.1 kv.2 (ofList kvs) := insertAll_append_singleton [] kvs kv

/-! ### Looking up -/

theorem lookup_insert (key k : κ) (a : α) (m : List (κ × α)) :
    lookup key (insert k a m) = if k = key then some a else lookup key m := by
  induction m with
  | nil => rw [insert, lookup_cons]
  | cons kv m ih =>
      obtain ⟨k', b⟩ := kv
      by_cases hk : k' = k
      · rw [insert, if_pos hk, lookup_cons, lookup_cons, hk]
        by_cases hkey : k = key <;> simp [hkey]
      · by_cases hlt : k < k'
        · rw [insert, if_neg hk, if_pos hlt, lookup_cons]
        · rw [insert, if_neg hk, if_neg hlt, lookup_cons, lookup_cons, ih]
          by_cases hkey : k' = key
          · have hne : ¬ k = key := fun h => hk (hkey.trans h.symm)
            simp [hkey, hne]
          · simp [hkey]

/-- What has been entered last under a key, or else what was there. -/
theorem lookup_insertAll (key : κ) (m kvs : List (κ × α)) :
    lookup key (insertAll m kvs) = (lookup key kvs.reverse).or (lookup key m) := by
  induction kvs using List.reverseRecOn with
  | nil => simp [insertAll, lookup]
  | append_singleton kvs kv ih =>
      rw [insertAll_append_singleton, lookup_insert, List.reverse_append, List.reverse_singleton,
        List.singleton_append, lookup_cons, ih]
      split_ifs <;> rfl

theorem lookup_ofList (key : κ) (kvs : List (κ × α)) :
    lookup key (ofList kvs) = lookup key kvs.reverse := by
  rw [ofList, lookup_insertAll]
  simp [lookup]

/-! ### The order of the keys -/

theorem mem_insert {key : κ} {a : α} {kv : κ × α} : ∀ {m : List (κ × α)},
    kv ∈ insert key a m → kv = (key, a) ∨ kv ∈ m
  | [], h => .inl (List.mem_singleton.mp h)
  | (k, b) :: m, h => by
      unfold insert at h
      split_ifs at h
      · rcases List.mem_cons.mp h with h | h
        · exact .inl h
        · exact .inr (List.mem_cons_of_mem _ h)
      · exact List.mem_cons.mp h
      · rcases List.mem_cons.mp h with h | h
        · exact .inr (h ▸ List.mem_cons_self)
        · exact (mem_insert h).imp_right (List.mem_cons_of_mem _)

theorem mem_ofList {kv : κ × α} {kvs : List (κ × α)} (h : kv ∈ ofList kvs) : kv ∈ kvs := by
  induction kvs using List.reverseRecOn with
  | nil => exact h
  | append_singleton kvs kv' ih =>
      rw [ofList_append_singleton] at h
      rcases mem_insert h with rfl | h
      · simp
      · exact List.mem_append_left _ (ih h)

section
variable [Std.Irrefl fun a b : κ => a < b] [IsTrans κ (· < ·)]

/-- A key above all others goes to the end. -/
theorem insert_of_forall_lt {key : κ} {a : α} {m : List (κ × α)} (h : ∀ kv ∈ m, kv.1 < key) :
    insert key a m = m ++ [(key, a)] := by
  induction m with
  | nil => rfl
  | cons kv m ih =>
      obtain ⟨k, b⟩ := kv
      have hk : k < key := h _ List.mem_cons_self
      have hne : ¬ k = key := by
        rintro rfl
        exact irrefl_of (· < ·) k hk
      have hnlt : ¬ key < k := fun hlt => irrefl_of (· < ·) k (trans_of (· < ·) hk hlt)
      rw [insert, if_neg hne, if_neg hnlt, ih fun kv hkv => h kv (List.mem_cons_of_mem _ hkv)]
      rfl

theorem ofList_of_sorted {kvs : List (κ × α)} (h : Sorted kvs) : ofList kvs = kvs := by
  induction kvs using List.reverseRecOn with
  | nil => rfl
  | append_singleton kvs kv ih =>
      obtain ⟨hsorted, -, hlast⟩ := List.pairwise_append.mp h
      rw [ofList_append_singleton, ih hsorted]
      exact insert_of_forall_lt fun kv' h' => hlast kv' h' kv (List.mem_singleton_self kv)

end

section
variable [IsTrans κ (· < ·)] [Std.Trichotomous fun a b : κ => a < b]

theorem Sorted.insert {m : List (κ × α)} (h : Sorted m) (key : κ) (a : α) :
    Sorted (insert key a m) := by
  induction m with
  | nil => exact List.pairwise_singleton _ _
  | cons kv m ih =>
      obtain ⟨k, b⟩ := kv
      obtain ⟨hk, hm⟩ := List.pairwise_cons.mp h
      unfold SortedMap.insert
      split_ifs with heq hlt
      · exact List.pairwise_cons.mpr ⟨fun kv hkv => heq ▸ hk kv hkv, hm⟩
      · refine List.pairwise_cons.mpr ⟨fun kv hkv => ?_, h⟩
        rcases List.mem_cons.mp hkv with rfl | hkv
        · exact hlt
        · exact trans_of (· < ·) hlt (hk kv hkv)
      · have hkey : k < key := by
          by_contra hn
          exact heq (Std.Trichotomous.trichotomous (r := fun a b : κ => a < b) k key hn hlt)
        refine List.pairwise_cons.mpr ⟨fun kv hkv => ?_, ih hm⟩
        rcases mem_insert hkv with rfl | hkv
        · exact hkey
        · exact hk kv hkv

theorem ofList_sorted (kvs : List (κ × α)) : Sorted (ofList kvs) := by
  induction kvs using List.reverseRecOn with
  | nil => exact List.Pairwise.nil
  | append_singleton kvs kv ih =>
      rw [ofList_append_singleton]
      exact ih.insert kv.1 kv.2

end

end

end SortedMap
