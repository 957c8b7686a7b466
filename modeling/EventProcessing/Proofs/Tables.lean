import EventProcessing.Table
import Mathlib.Tactic

namespace EventProcessing.Table

variable {κ α β : Type}

def mapValues (f : α → β) (table : Table κ α) : Table κ β :=
  table.map fun entry => (entry.1, f entry.2)

variable [DecidableEq κ]

lemma mem_keys_iff (table : Table κ α) (key : κ) :
    key ∈ table.keys ↔ ∃ value, table.get? key = some value := by
  induction table with
  | nil => simp [keys]
  | cons entry rest ih =>
    obtain ⟨k, a⟩ := entry
    by_cases h : k = key
    · simp [keys, get?, h]
    · have hk : ¬ key = k := fun he => h he.symm
      simpa [keys, get?, h, hk] using ih

lemma mem_of_get? {table : Table κ α} {key : κ} {value : α} (h : table.get? key = some value) :
    (key, value) ∈ table := by
  induction table with
  | nil => cases h
  | cons entry rest ih =>
    obtain ⟨k, a⟩ := entry
    by_cases hk : k = key
    · simp_all [get?]
    · simp_all [get?]

lemma get?_of_mem {table : Table κ α} (hn : table.keys.Nodup) {key : κ} {value : α}
    (h : (key, value) ∈ table) : table.get? key = some value := by
  induction table with
  | nil => cases h
  | cons entry rest ih =>
    obtain ⟨k, a⟩ := entry
    obtain ⟨hk, hn⟩ := List.nodup_cons.mp hn
    rcases List.mem_cons.mp h with he | h
    · cases he
      exact if_pos rfl
    · have hne : k ≠ key := fun he => hk (he ▸ List.mem_map.mpr ⟨_, h, rfl⟩)
      exact (if_neg hne).trans (ih hn h)

lemma get?_mapValues (f : α → β) (table : Table κ α) (key : κ) :
    (table.mapValues f).get? key = (table.get? key).map f := by
  induction table with
  | nil => rfl
  | cons entry rest ih =>
    obtain ⟨k, a⟩ := entry
    by_cases h : k = key
    · simp [mapValues, get?, h]
    · simpa [mapValues, get?, h] using ih

lemma get?_map (f : κ → α → β) (table : Table κ α) (key : κ) :
    get? (List.map (fun entry => (entry.1, f entry.1 entry.2)) table) key =
      (table.get? key).map (f key) := by
  induction table with
  | nil => rfl
  | cons entry rest ih =>
    obtain ⟨k, a⟩ := entry
    by_cases h : k = key
    · simp [get?, h]
    · simpa [get?, h] using ih

lemma mapValues_put (f : α → β) (table : Table κ α) (key : κ) (value : α) :
    (table.put key value).mapValues f = (table.mapValues f).put key (f value) := by
  induction table with
  | nil => rfl
  | cons entry rest ih =>
    obtain ⟨k, a⟩ := entry
    by_cases h : k = key
    · simp [mapValues, put, h]
    · simpa [mapValues, put, h] using ih

lemma put_of_get? {table : Table κ α} {key : κ} {value : α} (h : table.get? key = some value) :
    table.put key value = table := by
  induction table with
  | nil => cases h
  | cons entry rest ih =>
    obtain ⟨k, a⟩ := entry
    by_cases hk : k = key
    · simp_all [put, get?]
    · simp_all [put, get?]

lemma keys_put_of_get? {table : Table κ α} {key : κ} {value old : α}
    (h : table.get? key = some old) : (table.put key value).keys = table.keys := by
  induction table with
  | nil => cases h
  | cons entry rest ih =>
    obtain ⟨k, a⟩ := entry
    by_cases hk : k = key
    · simp_all [put, keys]
    · simp_all [put, get?, keys]

lemma keys_put_of_get?_none {table : Table κ α} {key : κ} (value : α)
    (h : table.get? key = none) : (table.put key value).keys = table.keys ++ [key] := by
  induction table with
  | nil => rfl
  | cons entry rest ih =>
    obtain ⟨k, a⟩ := entry
    by_cases hk : k = key
    · simp [get?, hk] at h
    · rw [get?, if_neg hk] at h
      rw [put, if_neg hk, keys, List.map_cons]
      exact congrArg (k :: ·) (ih h)

lemma nodup_keys_put {table : Table κ α} (h : table.keys.Nodup) (key : κ) (value : α) :
    (table.put key value).keys.Nodup := by
  cases hk : table.get? key with
  | some old => rwa [keys_put_of_get? hk]
  | none =>
    rw [keys_put_of_get?_none value hk]
    refine h.append (List.nodup_singleton key) (List.disjoint_singleton.mpr fun hm => ?_)
    obtain ⟨_, hget⟩ := (mem_keys_iff table key).mp hm
    rw [hk] at hget
    cases hget

section Filter

variable (p : κ → Bool) (table : Table κ α) {key : κ} (value : α)

lemma get?_filter (h : p key = true) :
    get? (table.filter fun entry => p entry.1) key = table.get? key := by
  induction table with
  | nil => rfl
  | cons entry rest ih =>
    obtain ⟨k, a⟩ := entry
    by_cases hk : k = key
    · simp [hk, h, get?]
    · cases hp : p k with
      | true => simp [hp, get?, hk, ih]
      | false => simp [hp, get?, hk, ih]

lemma filter_put (h : p key = true) : (table.put key value).filter (fun entry => p entry.1) =
    put (table.filter fun entry => p entry.1) key value := by
  induction table with
  | nil => simp [put, h]
  | cons entry rest ih =>
    obtain ⟨k, a⟩ := entry
    by_cases hk : k = key
    · simp [put, hk, h]
    · cases hp : p k with
      | true => simp [put, hk, hp, ih]
      | false => simp [put, hk, hp, ih]

lemma filter_put_of_not (h : p key = false) :
    (table.put key value).filter (fun entry => p entry.1) =
      table.filter fun entry => p entry.1 := by
  induction table with
  | nil => simp [put, h]
  | cons entry rest ih =>
    obtain ⟨k, a⟩ := entry
    by_cases hk : k = key
    · simp [put, hk, h]
    · simp [put, hk, List.filter_cons, ih]

end Filter

end EventProcessing.Table
