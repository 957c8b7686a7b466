import EventProcessing.Segment
import Mathlib.Tactic

namespace EventProcessing.Segment

lemma powerFrom_eq_two_pow (n start steps : ℕ) : ∃ e, powerFrom n start steps = 2 ^ e := by
  induction steps generalizing start with
  | zero => exact ⟨start, Nat.one_shiftLeft start⟩
  | succ steps ih =>
    unfold powerFrom
    split
    · exact ⟨start, Nat.one_shiftLeft start⟩
    · exact ih (start + 1)

lemma two_pow_of_roundedCount? {count n : ℕ} (h : roundedCount? count = some n) :
    ∃ e, n = 2 ^ e ∧ n < 2 ^ 32 := by
  unfold roundedCount? at h
  dsimp only at h
  split at h
  · next hlt =>
    obtain ⟨e, he⟩ := powerFrom_eq_two_pow (max count 1) 0 32
    rw [he] at h hlt
    exact ⟨e, (Option.some.inj h).symm, by rw [← Option.some.inj h]; exact hlt⟩
  · cases h

lemma toNat_id_of_mem_layout {n : ℕ} (hn : n < 2 ^ 32) {segment : Segment}
    (h : segment ∈ layout n) : segment.id.toNat < n := by
  obtain ⟨i, hi, rfl⟩ := List.mem_map.mp h
  have hlt := List.mem_range.mp hi
  rw [UInt32.toNat_ofNat_of_lt' (by simpa using hlt.trans hn)]
  exact hlt

lemma nodup_layout {n : ℕ} (hn : n < 2 ^ 32) : (layout n).Nodup := by
  refine List.nodup_range.map_on fun i hi j hj h => ?_
  have hid := congrArg UInt32.toNat (congrArg Segment.id h)
  rw [List.mem_range] at hi hj
  rwa [UInt32.toNat_ofNat_of_lt' (by simp only [UInt32.size]; omega),
    UInt32.toNat_ofNat_of_lt' (by simp only [UInt32.size]; omega)] at hid

lemma eq_of_mem_layout {n : ℕ} {x y : Segment} (hx : x ∈ layout n) (hy : y ∈ layout n)
    (h : x.id = y.id) : x = y := by
  obtain ⟨i, -, rfl⟩ := List.mem_map.mp hx
  obtain ⟨j, -, rfl⟩ := List.mem_map.mp hy
  exact congrArg (Segment.mk · _) h

lemma covers_iff {n : ℕ} {segment : Segment} (h : segment ∈ layout n) (key : String) :
    segment.covers key = true ↔
      UInt32.ofNat (n - 1) = 0 ∨ keyHash key &&& UInt32.ofNat (n - 1) = segment.id := by
  obtain ⟨i, -, rfl⟩ := List.mem_map.mp h
  simp [covers]

lemma le_one_of_mask_eq_zero {n : ℕ} (hn : n < 2 ^ 32) (h : UInt32.ofNat (n - 1) = 0) :
    n ≤ 1 := by
  have hzero := congrArg UInt32.toNat h
  rw [UInt32.toNat_ofNat_of_lt' (by simp only [UInt32.size]; omega)] at hzero
  change n - 1 = 0 at hzero
  omega

lemma unique_of_covers {n : ℕ} (hn : n < 2 ^ 32) {x y : Segment} (hx : x ∈ layout n)
    (hy : y ∈ layout n) {key : String} (hcx : x.covers key = true) (hcy : y.covers key = true) :
    x = y := by
  have hone : UInt32.ofNat (n - 1) = 0 → x.id = y.id := by
    intro hmask
    have hle := le_one_of_mask_eq_zero hn hmask
    have hxlt := toNat_id_of_mem_layout hn hx
    have hylt := toNat_id_of_mem_layout hn hy
    exact UInt32.toNat_inj.mp (by omega)
  apply eq_of_mem_layout hx hy
  rcases (covers_iff hx key).mp hcx with hmask | hcx
  · exact hone hmask
  · rcases (covers_iff hy key).mp hcy with hmask | hcy
    · exact hone hmask
    · exact hcx.symm.trans hcy

lemma exists_covers {n : ℕ} (h : roundedCount? n = some n) (key : String) :
    ∃ segment ∈ layout n, segment.covers key = true := by
  obtain ⟨e, rfl, hlt⟩ := two_pow_of_roundedCount? h
  have hpos : 0 < 2 ^ e := by positivity
  have hmod : (keyHash key).toNat % 2 ^ e < 2 ^ e := Nat.mod_lt _ hpos
  have hmem : (⟨UInt32.ofNat ((keyHash key).toNat % 2 ^ e), UInt32.ofNat (2 ^ e - 1)⟩ : Segment) ∈
      layout (2 ^ e) := List.mem_map.mpr ⟨_, List.mem_range.mpr hmod, rfl⟩
  refine ⟨_, hmem, (covers_iff hmem key).mpr (.inr (UInt32.toNat_inj.mp ?_))⟩
  rw [UInt32.toNat_and, UInt32.toNat_ofNat_of_lt' (by simp only [UInt32.size]; omega),
    UInt32.toNat_ofNat_of_lt' (by simp only [UInt32.size]; omega), Nat.and_two_pow_sub_one_eq_mod]

lemma powerFrom_eq_two_pow_clog {n start steps : ℕ} (hs : start ≤ Nat.clog 2 n)
    (hn : n ≤ 2 ^ (start + steps)) : powerFrom n start steps = 2 ^ Nat.clog 2 n := by
  induction steps generalizing start with
  | zero =>
    have hle : Nat.clog 2 n ≤ start := Nat.clog_le_of_le_pow hn
    rw [powerFrom, Nat.one_shiftLeft, le_antisymm hs hle]
  | succ steps ih =>
    rw [powerFrom, Nat.one_shiftLeft]
    split
    · next hle => rw [le_antisymm hs (Nat.clog_le_of_le_pow hle)]
    · next hlt =>
      have hnext : start < Nat.clog 2 n := (Nat.lt_clog_iff_pow_lt one_lt_two).mpr (by omega)
      exact ih hnext (by rwa [Nat.add_assoc, Nat.add_comm 1])

lemma roundedCount?_eq {count : ℕ} (h : count ≤ 2 ^ 31) :
    roundedCount? count = some (2 ^ Nat.clog 2 (max count 1)) := by
  have hle : max count 1 ≤ 2 ^ 31 := by omega
  have hpower : powerFrom (max count 1) 0 32 = 2 ^ Nat.clog 2 (max count 1) :=
    powerFrom_eq_two_pow_clog (Nat.zero_le _) (hle.trans (Nat.pow_le_pow_right two_pos (by omega)))
  have hlt : 2 ^ Nat.clog 2 (max count 1) < UInt32.size :=
    (Nat.pow_le_pow_right two_pos (Nat.clog_le_of_le_pow hle)).trans_lt (by decide)
  rw [roundedCount?]
  rw [hpower, if_pos hlt]

lemma isLeast_two_pow_clog (n : ℕ) :
    IsLeast {p | ∃ e, p = 2 ^ e ∧ n ≤ p} (2 ^ Nat.clog 2 n) := by
  refine ⟨⟨_, rfl, Nat.le_pow_clog one_lt_two n⟩, ?_⟩
  rintro _ ⟨e, rfl, hle⟩
  exact Nat.pow_le_pow_right two_pos (Nat.clog_le_of_le_pow hle)

lemma roundedCount?_two_pow {e : ℕ} (h : 2 ^ e < 2 ^ 32) :
    roundedCount? (2 ^ e) = some (2 ^ e) := by
  have he : e < 32 := (Nat.pow_lt_pow_iff_right (by decide)).mp h
  have hle : 2 ^ e ≤ 2 ^ 31 := Nat.pow_le_pow_right two_pos (by omega)
  have hmax : max (2 ^ e) 1 = 2 ^ e := max_eq_left Nat.one_le_two_pow
  rw [roundedCount?_eq hle, hmax, Nat.clog_pow 2 e one_lt_two]

structure Partition (n : ℕ) (segments : List Segment) : Prop where
  ids : segments.map (fun segment => segment.id.toNat) = List.range n
  masks : ∀ segment ∈ segments, segment.mask.toNat = n - 1
  owner : ∀ key, segments.countP (fun segment => segment.covers key) = 1

lemma partition_layout {n : ℕ} (h : roundedCount? n = some n) : Partition n (layout n) := by
  obtain ⟨_, -, hlt⟩ := two_pow_of_roundedCount? h
  constructor
  case ids =>
    refine List.ext_getElem (by simp [layout]) fun i hi _ => ?_
    have hin : i < n := by simpa [layout] using hi
    have hi32 : i < UInt32.size := hin.trans hlt
    simp [layout, UInt32.toNat_ofNat_of_lt' hi32]
  case masks =>
    intro segment hm
    obtain ⟨i, -, rfl⟩ := List.mem_map.mp hm
    exact UInt32.toNat_ofNat_of_lt' (by simp only [UInt32.size]; omega)
  case owner =>
    intro key
    obtain ⟨segment, hm, hcovers⟩ := exists_covers h key
    have hsame : ∀ other ∈ layout n, other.covers key = true ↔ (other == segment) = true := by
      intro other ho
      rw [beq_iff_eq]
      refine ⟨fun hc => unique_of_covers hlt ho hm hc hcovers, ?_⟩
      rintro rfl
      exact hcovers
    rw [List.countP_congr hsame]
    exact List.count_eq_one_of_mem (nodup_layout hlt) hm

lemma split_of_rounded {n : ℕ} (h : roundedCount? n = some n) : split n = .ok (layout n) := by
  rw [split, h]

end EventProcessing.Segment
