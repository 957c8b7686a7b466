import EventProcessing.Proofs.Fleet.Crews
import EventProcessing.Proofs.Fleet.Mirrors

/-! The workers of one processor in two systems, paired by their places. The numbers of the two in a
pair need not be the same, since other processors hire between them. -/

namespace EventProcessing.Fleet

variable {ι σ : Type} {τ : ι → Type} (fleet : Fleet ι σ) (part : (i : ι) → σ → τ i) (i : ι)

structure Paired (pairs : List (ℕ × ℕ)) (s r : System σ) : Prop where
  workers : ∀ e ∈ pairs, s.workers.get? e.1 = r.workers.get? e.2
  apart : ∀ e ∈ pairs, ∀ e' ∈ pairs, e.1 = e'.1 ↔ e.2 = e'.2
  fresh : ∀ e ∈ pairs, e.1 < s.nextId ∧ e.2 < r.nextId
  running : ∃ running : Option (List (ℕ × ℕ)), (∀ told ∈ running, told ⊆ pairs) ∧
    (s.processor (fleet.id i)).workers = running.map (List.map Prod.fst) ∧
    (r.processor (fleet.id i)).workers = running.map (List.map Prod.snd)
  stopping : ∃ stopping ⊆ pairs, (s.processor (fleet.id i)).stopping = stopping.map Prod.fst ∧
    (r.processor (fleet.id i)).stopping = stopping.map Prod.snd

variable {fleet part i} {depth : ℕ} {pairs : List (ℕ × ℕ)} {s s' r r' : System σ}

namespace Paired

lemma isSome_workers (h : fleet.Paired i pairs s r) :
    (s.processor (fleet.id i)).workers.isSome = (r.processor (fleet.id i)).workers.isSome := by
  obtain ⟨running, -, hs, hr⟩ := h.running
  rw [hs, hr, Option.isSome_map, Option.isSome_map]

lemma workers_eq_none (h : fleet.Paired i pairs s r)
    (hw : (s.processor (fleet.id i)).workers = none) :
    (r.processor (fleet.id i)).workers = none := by
  rw [← Option.isNone_iff_eq_none, ← Option.isSome_eq_false_iff, ← h.isSome_workers, hw]
  rfl

lemma isFinished_eq (h : fleet.Paired i pairs s r) {e : ℕ × ℕ} (he : e ∈ pairs) :
    Processor.isFinished s e.1 = Processor.isFinished r e.2 := by
  rw [Processor.isFinished, h.workers e he, Processor.isFinished]

lemma exists_kept (h : fleet.Paired i pairs s r) :
    ∃ kept ⊆ pairs, (fleet.processor i).kept s = kept.map Prod.fst ∧
      (fleet.processor i).kept r = kept.map Prod.snd := by
  obtain ⟨stopping, hsub, hs, hr⟩ := h.stopping
  have hsame : stopping.filter (fun e => !Processor.isFinished s e.1) =
      stopping.filter fun e => !Processor.isFinished r e.2 :=
    List.filter_congr fun e he => by rw [h.isFinished_eq (hsub he)]
  refine ⟨stopping.filter fun e => !Processor.isFinished s e.1,
    fun e he => hsub (List.mem_of_mem_filter he), ?_, ?_⟩
  · change (s.processor (fleet.id i)).stopping.filter _ = _
    rw [hs, List.filter_map]
    rfl
  · change (r.processor (fleet.id i)).stopping.filter _ = _
    rw [hr, List.filter_map, hsame]
    rfl

lemma kept_eq_nil_iff (h : fleet.Paired i pairs s r) :
    (fleet.processor i).kept s = [] ↔ (fleet.processor i).kept r = [] := by
  obtain ⟨kept, -, hs, hr⟩ := h.exists_kept
  rw [hs, hr, List.map_eq_nil_iff, List.map_eq_nil_iff]

lemma congr (h : fleet.Paired i pairs s r) (hw : s'.workers = s.workers)
    (hw' : r'.workers = r.workers) (hn : s.nextId ≤ s'.nextId) (hn' : r.nextId ≤ r'.nextId)
    (hs : s'.processor (fleet.id i) = s.processor (fleet.id i))
    (hr : r'.processor (fleet.id i) = r.processor (fleet.id i)) :
    fleet.Paired i pairs s' r' := by
  constructor
  case workers =>
    rw [hw, hw']
    exact h.workers
  case apart => exact h.apart
  case fresh => exact fun e he =>
    ⟨(h.fresh e he).1.trans_le hn, (h.fresh e he).2.trans_le hn'⟩
  case running =>
    rw [hs, hr]
    exact h.running
  case stopping =>
    rw [hs, hr]
    exact h.stopping

lemma calm (h : fleet.Paired i pairs s r) (hs : System.Calm s s') (hr : System.Calm r r') :
    fleet.Paired i pairs s' r' :=
  h.congr hs.workers hr.workers hs.nextId hr.nextId (hs.processor_eq _) (hr.processor_eq _)

lemma pruned (h : fleet.Paired i pairs s r) :
    fleet.Paired i pairs ((fleet.processor i).pruned s) ((fleet.processor i).pruned r) := by
  refine ⟨h.workers, h.apart, h.fresh, ?_, ?_⟩
  · rw [processor_pruned, processor_pruned]
    exact h.running
  · rw [processor_pruned, processor_pruned]
    exact h.exists_kept

/-- The workers that both systems hire next, each with its number in either. -/
def next (s r : System σ) (count : ℕ) : List (ℕ × ℕ) :=
  (List.range count).map fun n => (s.nextId + n, r.nextId + n)

lemma fst_next (s r : System σ) (count : ℕ) :
    (next s r count).map Prod.fst = List.range' s.nextId count := by
  rw [next, List.map_map, List.range'_eq_map_range]
  rfl

lemma snd_next (s r : System σ) (count : ℕ) :
    (next s r count).map Prod.snd = List.range' r.nextId count := by
  rw [next, List.map_map, List.range'_eq_map_range]
  rfl

lemma mem_next {count : ℕ} {e : ℕ × ℕ} (h : e ∈ next s r count) :
    ∃ n < count, e = (s.nextId + n, r.nextId + n) := by
  obtain ⟨n, hn, rfl⟩ := List.mem_map.mp h
  exact ⟨n, List.mem_range.mp hn, rfl⟩

lemma apart_next (h : fleet.Paired i pairs s r) (count : ℕ) :
    ∀ e ∈ pairs ++ next s r count, ∀ e' ∈ pairs ++ next s r count, e.1 = e'.1 ↔ e.2 = e'.2 := by
  intro e he e' he'
  rcases List.mem_append.mp he with he | he
  · have hfresh := h.fresh e he
    rcases List.mem_append.mp he' with he' | he'
    · exact h.apart e he e' he'
    · obtain ⟨n, -, rfl⟩ := mem_next he'
      dsimp only
      omega
  · obtain ⟨n, -, rfl⟩ := mem_next he
    rcases List.mem_append.mp he' with he' | he'
    · have hfresh := h.fresh e' he'
      dsimp only
      omega
    · obtain ⟨n', -, rfl⟩ := mem_next he'
      dsimp only
      omega

lemma hired {f : Segment → SegmentWork σ} {segments : List Segment} {ids ids' : List ℕ}
    {line line' : TraceLine} {state state' : ProcessorState σ} (h : fleet.Paired i pairs s r)
    (hs : Processor.Spawns f segments ids s s') (hr : Processor.Spawns f segments ids' r r')
    (hw : state.workers = some ids) (hw' : state'.workers = some ids')
    (hk : state.stopping = (s.processor (fleet.id i)).stopping)
    (hk' : state'.stopping = (r.processor (fleet.id i)).stopping) :
    fleet.Paired i (pairs ++ next s r segments.length)
      ((s'.addTrace line).setProcessor (fleet.id i) state)
      ((r'.addTrace line').setProcessor (fleet.id i) state') := by
  constructor
  case workers =>
    intro e he
    change s'.workers.get? e.1 = r'.workers.get? e.2
    rcases List.mem_append.mp he with he | he
    · have hfresh := h.fresh e he
      rw [hs.old _ (.inl hfresh.1), hr.old _ (.inl hfresh.2), h.workers e he]
    · obtain ⟨n, hn, rfl⟩ := mem_next he
      have hsome : segments[n]? = some segments[n] := List.getElem?_eq_getElem hn
      rw [hs.new n _ hsome, hr.new n _ hsome]
  case apart => exact h.apart_next _
  case fresh =>
    intro e he
    change e.1 < s'.nextId ∧ e.2 < r'.nextId
    rw [hs.nextId, hr.nextId]
    rcases List.mem_append.mp he with he | he
    · have hfresh := h.fresh e he
      omega
    · obtain ⟨n, hn, rfl⟩ := mem_next he
      dsimp only
      omega
  case running =>
    refine ⟨some (next s r segments.length), ?_, ?_, ?_⟩
    · rintro _ ⟨⟩
      exact List.subset_append_right _ _
    · rw [System.processor_setProcessor, hw, hs.ids, Option.map_some, fst_next]
    · rw [System.processor_setProcessor, hw', hr.ids, Option.map_some, snd_next]
  case stopping =>
    obtain ⟨stopping, hsub, hstops, hstops'⟩ := h.stopping
    refine ⟨stopping, List.Subset.trans hsub (List.subset_append_left _ _), ?_, ?_⟩
    · rw [System.processor_setProcessor, hk, hstops]
    · rw [System.processor_setProcessor, hk', hstops']

lemma contains_eq (h : fleet.Paired i pairs s r) {told : List (ℕ × ℕ)} (ht : told ⊆ pairs)
    {e : ℕ × ℕ} (he : e ∈ pairs) :
    (told.map Prod.fst).contains e.1 = (told.map Prod.snd).contains e.2 := by
  rw [Bool.eq_iff_iff, List.contains_iff_mem, List.contains_iff_mem, List.mem_map, List.mem_map]
  constructor
  · rintro ⟨e', he', heq⟩
    exact ⟨e', he', (h.apart e' (ht he') e he).mp heq⟩
  · rintro ⟨e', he', heq⟩
    exact ⟨e', he', (h.apart e' (ht he') e he).mpr heq⟩

lemma halted (h : fleet.Paired i pairs s r) {told : List (ℕ × ℕ)} (ht : told ⊆ pairs) :
    fleet.Paired i pairs ((fleet.processor i).halted (told.map Prod.fst) s)
      ((fleet.processor i).halted (told.map Prod.snd) r) := by
  constructor
  case workers =>
    intro e he
    refine (get?_wake_eq _ _ _).trans (.trans ?_ (get?_wake_eq _ _ _).symm)
    rw [h.workers e he, h.contains_eq ht he]
  case apart => exact h.apart
  case fresh => exact h.fresh
  case running =>
    refine ⟨none, fun _ h => (by cases h), ?_, ?_⟩
    · rw [processor_halted]
      rfl
    · rw [processor_halted]
      rfl
  case stopping =>
    obtain ⟨stopping, hsub, hstops, hstops'⟩ := h.stopping
    refine ⟨stopping ++ told, List.append_subset.mpr ⟨hsub, ht⟩, ?_, ?_⟩
    · rw [processor_halted, hstops, List.map_append]
    · rw [processor_halted, hstops', List.map_append]

lemma finished (h : fleet.Paired i pairs s r) {e : ℕ × ℕ} (he : e ∈ pairs)
    (worker : Worker σ) (line : TraceLine) :
    fleet.Paired i pairs ({ s with workers := s.workers.put e.1 worker }.addTrace line)
      ({ r with workers := r.workers.put e.2 worker }.addTrace line) := by
  refine ⟨fun e' he' => ?_, h.apart, h.fresh, h.running, h.stopping⟩
  change (s.workers.put e.1 worker).get? e'.1 = (r.workers.put e.2 worker).get? e'.2
  by_cases heq : e'.1 = e.1
  · rw [heq, (h.apart e' he' e he).mp heq, Table.get?_put_self, Table.get?_put_self]
  · have hne : e'.2 ≠ e.2 := fun h' => heq ((h.apart e' he' e he).mpr h')
    rw [Table.get?_put_of_ne _ _ heq, Table.get?_put_of_ne _ _ hne, h.workers e' he']

end Paired

end EventProcessing.Fleet
