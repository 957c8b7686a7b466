import EventProcessing.Proofs.Tables
import EventProcessing.Proofs.Tracking.Start

namespace EventProcessing

variable {σ κ α : Type}

namespace TokenMemory

variable (memory : TokenMemory) (name : String) (k : ℕ)

lemma mem_segments_iff :
    k ∈ memory.segments name ↔ ∃ position, memory.get? (name, k) = some position := by
  rw [segments, List.mem_mergeSort, List.mem_filterMap, ← Table.mem_keys_iff]
  constructor
  · rintro ⟨⟨other, segment⟩, hm, hk⟩
    dsimp only at hk
    split at hk
    · next hn =>
      cases hk
      subst hn
      exact hm
    · cases hk
  · intro hm
    exact ⟨_, hm, if_pos rfl⟩

lemma get?_store (segment : ℕ) (token : Token) :
    (memory.store name segment token).get? (name, k) =
      if k = segment then some (some token) else memory.get? (name, k) := by
  split
  · next h =>
    subst h
    exact Table.get?_put_self _ _ _
  · next h =>
    refine Table.get?_put_of_ne _ _ fun he => h ?_
    cases he
    rfl

lemma create_succ (initial : Option Token) (count : ℕ) :
    memory.create name initial (count + 1) =
      (memory.create name initial count).put (name, count) initial := by
  simp [create, List.range_succ]

lemma get?_create (initial : Option Token) (count : ℕ) :
    (memory.create name initial count).get? (name, k) =
      if k < count then some initial else memory.get? (name, k) := by
  induction count with
  | zero => simp [create]
  | succ count ih =>
    rw [create_succ]
    by_cases hk : k = count
    · subst hk
      rw [Table.get?_put_self, if_pos (Nat.lt_succ_self k)]
    · rw [Table.get?_put_of_ne _ _ (fun he => hk (Prod.mk.inj he).2), ih]
      by_cases hc : k < count
      · rw [if_pos hc, if_pos (by omega)]
      · rw [if_neg hc, if_neg (by omega)]

variable {memory name}

lemma get?_eq_none_of_segments (h : memory.segments name = []) (k : ℕ) :
    memory.get? (name, k) = none := by
  refine Option.eq_none_iff_forall_ne_some.mpr fun position hposition => ?_
  have hm := (mem_segments_iff memory name k).mpr ⟨position, hposition⟩
  rw [h] at hm
  cases hm

lemma get?_create_of_get? (h : memory.segments name = []) (initial : Option Token) (count : ℕ)
    {key : String × ℕ} {position : Option Token} (hk : memory.get? key = some position) :
    (memory.create name initial count).get? key = some position := by
  induction count with
  | zero => exact hk
  | succ count ih =>
    have hne : key ≠ (name, count) := by
      rintro rfl
      rw [get?_eq_none_of_segments h] at hk
      cases hk
    rw [create_succ, Table.get?_put_of_ne _ _ hne, ih]

lemma keys_create (h : memory.segments name = []) (initial : Option Token) (count : ℕ) :
    (memory.create name initial count).keys =
      memory.keys ++ (List.range count).map (name, ·) := by
  induction count with
  | zero => simp [create]
  | succ count ih =>
    have hnew : (memory.create name initial count).get? (name, count) = none := by
      rw [get?_create, if_neg (Nat.lt_irrefl count), get?_eq_none_of_segments h]
    rw [create_succ, Table.keys_put_of_get?_none _ hnew, ih, List.range_succ, List.map_append,
      List.append_assoc]
    rfl

lemma segments_create (h : memory.segments name = []) (initial : Option Token) (count : ℕ) :
    (memory.create name initial count).segments name = List.range count := by
  have hold :
      memory.keys.filterMap (fun key => if key.1 = name then some key.2 else none) = [] := by
    rw [segments] at h
    exact List.length_eq_zero_iff.mp (by rw [← List.length_mergeSort, h]; rfl)
  have hnew : ((List.range count).map (name, ·)).filterMap
      (fun key => if key.1 = name then some key.2 else none) = List.range count := by
    rw [List.filterMap_map]
    simp
  rw [segments, keys_create h, List.filterMap_append, hold, hnew, List.nil_append]
  exact List.mergeSort_of_pairwise (List.pairwise_le_range.imp fun hle => by simpa using hle)

end TokenMemory

namespace TrackingProcessor

def position? (t : TrackingProcessor σ) (s : System σ) (k : ℕ) : Option (Option Token) :=
  (t.memory s).get? (t.pipeline.name, k)

structure Splits (t : TrackingProcessor σ) (s : System σ) (n : ℕ) : Prop where
  rounded : Segment.roundedCount? n = some n
  created : ∀ k, (∃ position, t.position? s k = some position) ↔ k < n

variable {t : TrackingProcessor σ} {s s' : System σ}

lemma Splits.pos {n : ℕ} (h : t.Splits s n) : 0 < n := by
  by_contra hn
  obtain rfl : n = 0 := by omega
  exact absurd h.rounded (by decide)

lemma splits_of_layout? {segments : List Segment}
    (h : layout? ((t.memory s).segments t.pipeline.name) = some segments) :
    ∃ n, t.Splits s n ∧ segments = Segment.layout n := by
  unfold layout? at h
  split at h
  · next hl =>
    cases h
    refine ⟨_, ⟨hl.2, fun k => ?_⟩, rfl⟩
    rw [position?, ← TokenMemory.mem_segments_iff, ← List.mem_range, ← hl.1]
  · cases h

lemma Splits.unique {m n : ℕ} (hm : t.Splits s m) (hn : t.Splits s n) : m = n := by
  have h : ∀ k, k < m ↔ k < n := fun k => (hm.created k).symm.trans (hn.created k)
  have := h m
  have := h n
  omega

end TrackingProcessor

end EventProcessing
