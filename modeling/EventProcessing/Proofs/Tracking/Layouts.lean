import EventProcessing.Proofs.Tracking.Rounds
import EventProcessing.Proofs.Tracking.Runs

namespace EventProcessing

section

variable {σ : Type} {p : Processor σ} {t : TrackingProcessor σ} {s s' : System σ} {depth : ℕ}
  {segments : List Segment}

namespace TrackingProcessor

lemma layout?_eq_some {ids : List ℕ} (h : layout? ids = some segments) :
    Segment.roundedCount? ids.length = some ids.length ∧ segments = Segment.layout ids.length := by
  unfold layout? at h
  split at h
  · next hl => exact ⟨hl.2, (Option.some.inj h).symm⟩
  · cases h

lemma claimed_eq_split (h : t.claimSegments depth s = some (.ok segments, s')) :
    Segment.split ((t.memory s').segments t.pipeline.name).length = .ok segments ∧
      Segment.Partition ((t.memory s').segments t.pipeline.name).length segments := by
  obtain ⟨-, -, hlayout⟩ := claimSegments_cases h
  obtain ⟨hrounded, rfl⟩ := layout?_eq_some (hlayout segments rfl)
  exact ⟨Segment.split_of_rounded hrounded, Segment.partition_layout hrounded⟩

end TrackingProcessor

namespace Processor

lemma Spawns.existsUnique_owner {n : ℕ} {ids : List ℕ}
    (hs : Spawns (work p.self.id t) (Segment.layout n) ids s s')
    (hn : Segment.roundedCount? n = some n) (key : String) :
    ∃! id, id ∈ ids ∧ ∃ work, s'.workOf id = some work ∧ work.segment.covers key = true := by
  obtain ⟨_, -, hlt⟩ := Segment.two_pow_of_roundedCount? hn
  have hworks : ∀ i segment, (Segment.layout n)[i]? = some segment →
      s'.workOf (s.nextId + i) = some (work p.self.id t segment) := by
    intro i segment hi
    rw [System.workOf, hs.new i segment hi, Option.map_some]
  obtain ⟨segment, hm, hcovers⟩ := Segment.exists_covers hn key
  obtain ⟨i, hi⟩ := List.mem_iff_getElem?.mp hm
  have hlen := (List.getElem?_eq_some_iff.mp hi).1
  refine ⟨s.nextId + i, ⟨?_, _, hworks i segment hi, hcovers⟩, ?_⟩
  · rw [hs.ids, List.mem_range'_1]
    omega
  · rintro id ⟨hid, other, hother, hcovers'⟩
    rw [hs.ids, List.mem_range'_1] at hid
    obtain ⟨j, rfl⟩ := Nat.exists_eq_add_of_le hid.1
    have hj : (Segment.layout n)[j]? = some (Segment.layout n)[j] := by
      rw [List.getElem?_eq_getElem]
    rw [hworks j _ hj] at hother
    cases hother
    have hsame := Segment.unique_of_covers hlt (List.mem_of_getElem? hj) hm hcovers' hcovers
    rw [hsame] at hj
    rw [(List.getElem?_inj hlen (Segment.nodup_layout hlt)).mp (hi.trans hj.symm)]

end Processor

end

/-- Each key belongs to one segment of a split, to one of those that are claimed from a store, and
so to one of the workers that a start hires. -/
theorem one_segment_owns_each_key {σ : Type} :
    (∀ count ≤ 2 ^ 31, ∃ n segments, Segment.split count = .ok segments ∧
      IsLeast {p | ∃ e, p = 2 ^ e ∧ max count 1 ≤ p} n ∧ Segment.Partition n segments) ∧
    (∀ (t : TrackingProcessor σ) depth s segments s',
      t.claimSegments depth s = some (.ok segments, s') →
        Segment.split ((t.memory s').segments t.pipeline.name).length = .ok segments ∧
        Segment.Partition ((t.memory s').segments t.pipeline.name).length segments) ∧
    ∀ (p : Processor σ) (t : TrackingProcessor σ) depth s s', p.kind = .tracking t →
      (s.processor p.self.id).workers = none → p.start depth s = some (.ok (), s') →
        ∃ ids, (s'.processor p.self.id).workers = some ids ∧ ∀ key, ∃! id, id ∈ ids ∧
          ∃ work, s'.workOf id = some work ∧ work.segment.covers key = true := by
  refine ⟨fun count h => ?_, fun t depth s segments s' h => t.claimed_eq_split h, ?_⟩
  · have hmax : max count 1 ≤ 2 ^ 31 := by omega
    have hlt : 2 ^ Nat.clog 2 (max count 1) < 2 ^ 32 :=
      Nat.pow_lt_pow_right one_lt_two (Nat.lt_succ_of_le (Nat.clog_le_of_le_pow hmax))
    refine ⟨_, Segment.layout _, ?_, Segment.isLeast_two_pow_clog (max count 1),
      Segment.partition_layout (Segment.roundedCount?_two_pow hlt)⟩
    rw [Segment.split, Segment.roundedCount?_eq h]
  · intro p t depth s s' hk hnone h
    unfold Processor.start at h
    rw [hk] at h
    cases Processor.begins_of_startTracking h with
    | running hr hw =>
      rw [hnone] at hw
      cases hw
    | @hired segments ids ready hired line hr hw hkept hc hs =>
      obtain ⟨-, -, hlayout⟩ := TrackingProcessor.claimSegments_cases hc
      obtain ⟨hrounded, rfl⟩ := TrackingProcessor.layout?_eq_some (hlayout segments rfl)
      refine ⟨ids, by rw [System.processor_setProcessor], fun key => ?_⟩
      exact hs.existsUnique_owner hrounded key

theorem sample_segments_own_each_key :
    (∃ n segments, Segment.split 3 = .ok segments ∧
      IsLeast {p | ∃ e, p = 2 ^ e ∧ max 3 1 ≤ p} n ∧ Segment.Partition n segments) ∧
    Segment.Partition 1 [Segment.root] ∧
    ∃ ids, ((Sample.started Sample.sound).processor 0).workers = some ids ∧
      ∀ key, ∃! id, id ∈ ids ∧
        ∃ work, (Sample.started Sample.sound).workOf id = some work ∧
          work.segment.covers key = true := by
  obtain ⟨hsplit, hclaimed, hstarted⟩ := one_segment_owns_each_key (σ := Unit)
  refine ⟨hsplit 3 (by decide), ?_, ?_⟩
  · have hc := hclaimed (Sample.tracking Sample.sound) 1 Sample.logged [.root] _
      (Sample.claimSegments_eq _ _ _ Sample.logged rfl 1)
    have hm : (TrackingProcessor.memory (Sample.tracking Sample.sound)
        (Sample.created Sample.logged)).segments "sample" = [0] := Sample.segments_created
    rw [show (Sample.tracking Sample.sound).pipeline.name = "sample" from rfl, hm] at hc
    exact hc.2
  · exact hstarted (Sample.processor Sample.sound) _ 1 Sample.logged _ rfl rfl
      (Sample.start_eq _ _ _)

end EventProcessing
