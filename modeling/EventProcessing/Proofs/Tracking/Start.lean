import EventProcessing.Proofs.Tracking.Step

namespace EventProcessing

variable {σ : Type} {depth : ℕ}

structure System.Steady (s s' : System σ) : Prop where
  workers : s'.workers = s.workers
  logs : ∀ bus, Bus.Extends (s.bus bus).log (s'.bus bus).log

namespace System

lemma Frame.steady {s s' : System σ} (h : Frame s s') : Steady s s' := ⟨h.workers, h.logs⟩

lemma Steady.trans {a b c : System σ} (hab : Steady a b) (hbc : Steady b c) : Steady a c :=
  ⟨hbc.workers.trans hab.workers, fun bus => (hab.logs bus).trans (hbc.logs bus)⟩

lemma steady_setTokenMemory (s : System σ) (id : ℕ) (memory : TokenMemory) :
    Steady s (s.setTokenMemory id memory) := ⟨rfl, fun _ => .refl _⟩

end System

namespace TrackingProcessor

variable {t : TrackingProcessor σ} {s s' : System σ}

def memory (t : TrackingProcessor σ) (s : System σ) : TokenMemory :=
  s.tokenMemory t.tokens.self.id

lemma memory_eq_of_frame (h : System.Frame s s') : t.memory s' = t.memory s :=
  h.tokenMemory_eq _

structure Opens (t : TrackingProcessor σ) (count : ℕ) (initial : Option Token) : Prop where
  count : Segment.roundedCount? t.settings.segmentCount = some count
  tail : t.settings.initialPosition = .tail → initial = none

def Creates (t : TrackingProcessor σ) (before after : TokenMemory) : Prop :=
  before.segments t.pipeline.name = [] ∧
    ∃ count initial, t.Opens count initial ∧ after = before.create t.pipeline.name initial count

lemma initialToken_cases {initial : Option Token}
    (h : t.initialToken depth s = some (initial, s')) :
    s = s' ∧ (t.settings.initialPosition = .tail → initial = none) := by
  cases hp : t.settings.initialPosition with
  | tail =>
    simp only [initialToken, hp] at h
    cases h
    exact ⟨rfl, fun _ => rfl⟩
  | head =>
    simp only [initialToken, hp] at h
    cases h
    exact ⟨rfl, fun h => by cases h⟩

lemma segments_of_begin {count : ℕ} {initial : Option Token} {begun : System σ}
    {r : Except Failure (List ℕ)} (ho : t.Opens count initial)
    (hb : t.tokens.begin t.pipeline.name count initial depth s = some (.ok (), begun))
    (h : t.tokens.segments t.pipeline.name depth begun = some (r, s')) :
    System.Steady s s' ∧ t.Creates (t.memory s) (t.memory s') ∧
      ∀ ids, r = .ok ids → (t.memory s').segments t.pipeline.name = ids := by
  obtain ⟨hframe, hr⟩ := TokenStore.segments_cases h
  have hm := memory_eq_of_frame (t := t) hframe
  obtain ⟨middle, hmiddle, -, hempty, rfl⟩ | ⟨-, f, hf⟩ := TokenStore.begin_cases hb
  · have hcreated := System.steady_setTokenMemory middle t.tokens.self.id
      ((s.tokenMemory t.tokens.self.id).create t.pipeline.name initial count)
    refine ⟨(hmiddle.steady.trans hcreated).trans hframe.steady,
      ⟨hempty, count, initial, ho, hm.trans ?_⟩, fun ids hids => ?_⟩
    · rw [memory, System.tokenMemory_setTokenMemory]
      rfl
    · obtain rfl | ⟨f, rfl, -⟩ := hr
      · cases hids
        rw [hm]
        rfl
      · cases hids
  · cases hf

lemma claimIds_cases {r : Except Failure (List ℕ)} (h : t.claimIds depth s = some (r, s')) :
    System.Steady s s' ∧ (t.memory s' = t.memory s ∨ t.Creates (t.memory s) (t.memory s')) ∧
      ∀ ids, r = .ok ids → (t.memory s').segments t.pipeline.name = ids := by
  obtain ⟨found, asked, hs, h⟩ := Run.bind_eq_some.mp h
  obtain ⟨hframe, hfound⟩ := TokenStore.segments_cases hs
  have hm := memory_eq_of_frame (t := t) hframe
  rcases found with f | (_ | ⟨id, ids⟩)
  · cases h
    exact ⟨hframe.steady, .inl hm, fun _ h => by cases h⟩
  · dsimp only at h
    cases hc : Segment.roundedCount? t.settings.segmentCount with
    | none =>
      rw [hc] at h
      cases h
      exact ⟨hframe.steady, .inl hm, fun _ h => by cases h⟩
    | some count =>
      rw [hc] at h
      obtain ⟨initial, positioned, hi, h⟩ := Run.bind_eq_some.mp h
      obtain ⟨rfl, htail⟩ := initialToken_cases hi
      obtain ⟨outcome, begun, hb, h⟩ := Run.bind_eq_some.mp h
      cases outcome with
      | error f =>
        cases h
        obtain ⟨_, -, hf, -⟩ | ⟨hbegun, -⟩ := TokenStore.begin_cases hb
        · cases hf
        · exact ⟨(hframe.trans hbegun).steady, .inl (memory_eq_of_frame (hframe.trans hbegun)),
            fun _ h => by cases h⟩
      | ok _ =>
        obtain ⟨hsteady, hcreates, hids⟩ := segments_of_begin ⟨hc, htail⟩ hb h
        rw [hm] at hcreates
        exact ⟨hframe.steady.trans hsteady, .inr hcreates, hids⟩
  · cases h
    refine ⟨hframe.steady, .inl hm, fun ids hids => ?_⟩
    cases hids
    obtain hfound | ⟨f, hfound, -⟩ := hfound
    · rw [hm]
      exact (Except.ok.inj hfound).symm
    · cases hfound

lemma claimSegments_cases {r : Except Failure (List Segment)}
    (h : t.claimSegments depth s = some (r, s')) :
    System.Steady s s' ∧ (t.memory s' = t.memory s ∨ t.Creates (t.memory s) (t.memory s')) ∧
      ∀ segments, r = .ok segments →
        layout? ((t.memory s').segments t.pipeline.name) = some segments := by
  obtain ⟨found, claimed, hc, h⟩ := Run.bind_eq_some.mp h
  obtain ⟨hsteady, hm, hids⟩ := claimIds_cases hc
  cases found with
  | error f =>
    cases h
    exact ⟨hsteady, hm, fun _ h => by cases h⟩
  | ok ids =>
    dsimp only at h
    cases hl : layout? ids with
    | none =>
      rw [hl] at h
      cases h
      exact ⟨hsteady, hm, fun _ h => by cases h⟩
    | some segments =>
      rw [hl] at h
      cases h
      refine ⟨hsteady, hm, fun _ h => ?_⟩
      cases h
      rw [hids ids rfl, hl]

end TrackingProcessor

namespace Processor

variable {p : Processor σ} {t : TrackingProcessor σ} {s s' : System σ}

lemma updateState_eq {f : ProcessorState σ → ProcessorState σ}
    (h : p.updateState f depth s = some ((), s')) :
    s' = s.setProcessor p.self.id (f (s.processor p.self.id)) := by
  cases h
  rfl

structure Spawns (f : Segment → SegmentWork σ) (segments : List Segment) (ids : List ℕ)
    (s s' : System σ) : Prop where
  shared : s'.shared = s.shared
  hasRuntime : s'.hasRuntime = s.hasRuntime
  tokens : s'.tokens = s.tokens
  buses : s'.buses = s.buses
  processors : s'.processors = s.processors
  nextId : s'.nextId = s.nextId + segments.length
  ids : ids = List.range' s.nextId segments.length
  old : ∀ id, id < s.nextId ∨ s.nextId + segments.length ≤ id →
    s'.workers.get? id = s.workers.get? id
  new : ∀ n segment, segments[n]? = some segment →
    s'.workers.get? (s.nextId + n) = some { work := f segment }

lemma spawn_cases {work : SegmentWork σ} {id : ℕ} (h : spawn work depth s = some (id, s')) :
    id = s.nextId ∧ s' = { s with
      nextId := s.nextId + 1
      workers := s.workers.put s.nextId { work }
      ready := s.ready ++ [s.nextId] } := by
  cases h
  exact ⟨rfl, rfl⟩

lemma spawns_of_spawnAll {f : Segment → SegmentWork σ} {segments : List Segment} {ids : List ℕ}
    (h : (segments.mapM fun segment => spawn (f segment)) depth s = some (ids, s')) :
    Spawns f segments ids s s' := by
  induction segments generalizing s ids with
  | nil =>
    cases h
    exact ⟨rfl, rfl, rfl, rfl, rfl, rfl, rfl, fun _ _ => rfl, fun _ _ h => by simp at h⟩
  | cons segment rest ih =>
    rw [List.mapM_cons] at h
    obtain ⟨id, middle, hs, h⟩ := Run.bind_eq_some.mp h
    obtain ⟨others, last, hr, h⟩ := Run.bind_eq_some.mp h
    obtain ⟨rfl, rfl⟩ := Run.pure_eq_some.mp h
    obtain ⟨rfl, rfl⟩ := spawn_cases hs
    obtain ⟨hshared, hruntime, ht, hb, hp, hn, rfl, hold, hnew⟩ := ih hr
    dsimp only at hshared hruntime ht hb hp hn hold hnew
    have hlength : (segment :: rest).length = rest.length + 1 := rfl
    constructor
    case shared => exact hshared
    case hasRuntime => exact hruntime
    case tokens => exact ht
    case buses => exact hb
    case processors => exact hp
    case nextId => omega
    case ids => rw [hlength, List.range'_succ]
    case old =>
      intro id hid
      rw [hold id (by omega), Table.get?_put_of_ne _ _ (by omega)]
    case new =>
      intro n other hother
      cases n with
      | zero =>
        cases hother
        rw [hold _ (by omega), Nat.add_zero, Table.get?_put_self]
      | succ n =>
        have hrest := hnew n other hother
        rwa [Nat.add_assoc, Nat.add_comm 1] at hrest

lemma Spawns.processor_eq {f : Segment → SegmentWork σ} {segments : List Segment} {ids : List ℕ}
    (h : Spawns f segments ids s s') (id : ℕ) : s'.processor id = s.processor id := by
  rw [System.processor, h.processors, System.processor]

lemma Spawns.worker_cases {f : Segment → SegmentWork σ} {segments : List Segment} {ids : List ℕ}
    (h : Spawns f segments ids s s') {id : ℕ} {worker : Worker σ}
    (hw : s'.workers.get? id = some worker) : s.workers.get? id = some worker ∨
      ∃ n segment, segments[n]? = some segment ∧ id = s.nextId + n ∧ id ∈ ids ∧
        worker = { work := f segment } := by
  by_cases hid : s.nextId ≤ id ∧ id < s.nextId + segments.length
  · obtain ⟨n, rfl⟩ := Nat.exists_eq_add_of_le hid.1
    have hn : n < segments.length := by omega
    have hsome : segments[n]? = some segments[n] := List.getElem?_eq_getElem hn
    rw [h.new n _ hsome] at hw
    cases hw
    refine .inr ⟨n, segments[n], hsome, rfl, ?_, rfl⟩
    rw [h.ids, List.mem_range'_1]
    omega
  · rw [h.old id (by omega)] at hw
    exact .inl hw

def kept (p : Processor σ) (s : System σ) : List ℕ :=
  (s.processor p.self.id).stopping.filter fun worker => !isFinished s worker

def pruned (p : Processor σ) (s : System σ) : System σ :=
  s.setProcessor p.self.id { s.processor p.self.id with stopping := p.kept s }

inductive Begins (p : Processor σ) (t : TrackingProcessor σ) (depth : ℕ) (s : System σ) :
    Outcome → System σ → Prop
  | noRuntime (hr : s.hasRuntime = false) : Begins p t depth s (.error (.noRuntime p.name)) s
  | running (hr : s.hasRuntime = true) (hw : (s.processor p.self.id).workers.isSome = true) :
      Begins p t depth s (.ok ()) s
  | stillStopping (hr : s.hasRuntime = true) (hw : (s.processor p.self.id).workers = none)
      (hk : p.kept s ≠ []) : Begins p t depth s (.error (.stillStopping p.name)) (p.pruned s)
  | refused {failure : Failure} {s' : System σ} (hr : s.hasRuntime = true)
      (hw : (s.processor p.self.id).workers = none) (hk : p.kept s = [])
      (hc : t.claimSegments depth (p.pruned s) = some (.error failure, s')) :
      Begins p t depth s (.error failure) s'
  | hired {segments : List Segment} {ids : List ℕ} {ready hired : System σ} {line : TraceLine}
      (hr : s.hasRuntime = true) (hw : (s.processor p.self.id).workers = none)
      (hk : p.kept s = [])
      (hc : t.claimSegments depth (p.pruned s) = some (.ok segments, ready))
      (hs : Spawns (work p.self.id t) segments ids ready hired) :
      Begins p t depth s (.ok ()) ((hired.addTrace line).setProcessor p.self.id
        { (hired.processor p.self.id) with workers := some ids })

theorem begins_of_startTracking {outcome : Outcome}
    (h : p.startTracking t depth s = some (outcome, s')) : Begins p t depth s outcome s' := by
  obtain ⟨_, _, hsys, h⟩ := Run.bind_eq_some.mp h
  cases hsys
  obtain ⟨state, _, hstate, h⟩ := Run.bind_eq_some.mp h
  cases hstate
  split at h
  · next hr =>
    cases h
    exact .noRuntime (by simpa using hr)
  next hr =>
  rw [Bool.not_eq_true, Bool.not_eq_false'] at hr
  split at h
  · next hw =>
    cases h
    exact .running hr hw
  next hw =>
  rw [Bool.not_eq_true, Option.isSome_eq_false_iff, Option.isNone_iff_eq_none] at hw
  obtain ⟨_, _, hu, h⟩ := Run.bind_eq_some.mp h
  obtain rfl := updateState_eq hu
  split at h
  · next hk =>
    cases h
    exact .stillStopping hr hw (by simpa [kept] using hk)
  next hk =>
  have hkept : p.kept s = [] := by simpa [kept] using hk
  obtain ⟨claimed, ready, hc, h⟩ := Run.bind_eq_some.mp h
  cases claimed with
  | error failure =>
    cases h
    exact .refused hr hw hkept hc
  | ok segments =>
    obtain ⟨ids, hired, hs, h⟩ := Run.bind_eq_some.mp h
    obtain ⟨_, _, htrace, h⟩ := Run.bind_eq_some.mp h
    cases htrace
    obtain ⟨_, _, hu, h⟩ := Run.bind_eq_some.mp h
    obtain rfl := updateState_eq hu
    obtain ⟨rfl, rfl⟩ := Run.pure_eq_some.mp h
    exact .hired hr hw hkept hc (spawns_of_spawnAll hs)

structure Hires (f : Segment → SegmentWork σ) (segments : List Segment) (s s' : System σ) :
    Prop where
  tokens : s'.tokens = s.tokens
  buses : s'.buses = s.buses
  workers : ∀ id worker, s'.workers.get? id = some worker →
    s.workers.get? id = some worker ∨ ∃ segment ∈ segments, worker.work = f segment

lemma Spawns.hires {f : Segment → SegmentWork σ} {segments : List Segment} {ids : List ℕ}
    (h : Spawns f segments ids s s') : Hires f segments s s' := by
  refine ⟨h.tokens, h.buses, fun id worker hw => ?_⟩
  rcases h.worker_cases hw with hw | ⟨n, segment, hn, -, -, rfl⟩
  · exact .inl hw
  · exact .inr ⟨segment, List.mem_of_getElem? hn, rfl⟩

structure Starts (p : Processor σ) (t : TrackingProcessor σ) (s s' : System σ) : Prop where
  logs : ∀ bus, Bus.Extends (s.bus bus).log (s'.bus bus).log
  memory : t.memory s' = t.memory s ∨ t.Creates (t.memory s) (t.memory s')
  workers : ∀ id worker, s'.workers.get? id = some worker → s.workers.get? id = some worker ∨
    ∃ segments segment,
      TrackingProcessor.layout? ((t.memory s').segments t.pipeline.name) = some segments ∧
      segment ∈ segments ∧ worker.work = work p.self.id t segment

lemma Starts.congr {s s' r r' : System σ} (h : Starts p t s s') (htokens : r.tokens = s.tokens)
    (hbuses : r.buses = s.buses) (hworkers : r.workers = s.workers)
    (htokens' : r'.tokens = s'.tokens) (hbuses' : r'.buses = s'.buses)
    (hworkers' : r'.workers = s'.workers) : Starts p t r r' := by
  have hm : t.memory r = t.memory s := by
    rw [TrackingProcessor.memory, System.tokenMemory, htokens]
    rfl
  have hm' : t.memory r' = t.memory s' := by
    rw [TrackingProcessor.memory, System.tokenMemory, htokens']
    rfl
  constructor
  · intro bus
    rw [System.bus, System.bus, hbuses, hbuses']
    exact h.logs bus
  · rw [hm, hm']
    exact h.memory
  · rw [hm', hworkers, hworkers']
    exact h.workers

lemma Starts.refl (s : System σ) : Starts p t s s :=
  ⟨fun _ => .refl _, .inl rfl, fun _ _ h => .inl h⟩

lemma Starts.hire {middle : System σ} {segments : List Segment} (h : Starts p t s middle)
    (hh : Hires (work p.self.id t) segments middle s')
    (hl : TrackingProcessor.layout? ((t.memory middle).segments t.pipeline.name) =
      some segments) : Starts p t s s' := by
  have hm : t.memory s' = t.memory middle := by
    rw [TrackingProcessor.memory, System.tokenMemory, hh.tokens]
    rfl
  constructor
  · intro bus
    rw [System.bus, System.bus, hh.buses]
    exact h.logs bus
  · rw [hm]
    exact h.memory
  · intro id worker hid
    rw [hm]
    rcases hh.workers id worker hid with hid | ⟨segment, hsegment, hw⟩
    · exact h.workers id worker hid
    · exact .inr ⟨segments, segment, hl, hsegment, hw⟩

theorem starts_of_startTracking {outcome : Outcome}
    (h : p.startTracking t depth s = some (outcome, s')) : Starts p t s s' := by
  have hclaimed : ∀ claimed ready, t.claimSegments depth (p.pruned s) = some (claimed, ready) →
      Starts p t s ready := by
    intro claimed ready hc
    obtain ⟨hsteady, hm, -⟩ := TrackingProcessor.claimSegments_cases hc
    refine ⟨hsteady.logs, hm, fun id worker hw => .inl ?_⟩
    rw [hsteady.workers] at hw
    exact hw
  cases begins_of_startTracking h with
  | noRuntime hr => exact .refl s
  | running hr hw => exact .refl s
  | stillStopping hr hw hk => exact (Starts.refl s).congr rfl rfl rfl rfl rfl rfl
  | refused hr hw hk hc => exact hclaimed _ _ hc
  | hired hr hw hk hc hs =>
    obtain ⟨-, -, hl⟩ := TrackingProcessor.claimSegments_cases hc
    have hhired := (hclaimed _ _ hc).hire hs.hires (hl _ rfl)
    exact hhired.congr rfl rfl rfl rfl rfl rfl

end Processor

end EventProcessing
