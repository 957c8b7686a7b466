import EventProcessing.Proofs.Segments
import EventProcessing.Proofs.Tracking.Positions
import EventProcessing.Schedule

/-! Nobody hires but a start: what a store, a source and a batch are asked to do leaves the workers
and the processors as they were. A start that gets through hires one worker for each segment. -/

namespace EventProcessing

variable {σ α β : Type} {depth : ℕ}

namespace System

variable {s s' : System σ}

lemma processor_setProcessor (s : System σ) (id : ℕ) (state : ProcessorState σ) :
    (s.setProcessor id state).processor id = state := by
  simp [processor, setProcessor]

structure Calm (s s' : System σ) : Prop where
  workers : s'.workers = s.workers
  processors : s'.processors = s.processors
  nextId : s.nextId ≤ s'.nextId

instance : IsPreorder (System σ) Calm where
  refl _ := ⟨rfl, rfl, le_rfl⟩
  trans _ _ _ hab hbc := ⟨hbc.workers.trans hab.workers, hbc.processors.trans hab.processors,
    hab.nextId.trans hbc.nextId⟩

lemma Calm.processor_eq (h : Calm s s') (id : ℕ) : s'.processor id = s.processor id := by
  rw [processor, h.processors]
  rfl

lemma admits_calm : Admits (Calm (σ := σ)) where
  set _ _ := ⟨rfl, rfl, le_rfl⟩
  fresh _ := ⟨rfl, rfl, Nat.le_succ _⟩
  trace _ _ := ⟨rfl, rfl, le_rfl⟩
  count _ _ := ⟨rfl, rfl, le_rfl⟩
  setBus _ _ _ _ := ⟨rfl, rfl, le_rfl⟩

end System

abbrev Run.Calm (m : Run σ α) : Prop := m.Keeps System.Calm

lemma Run.Calm.lift (program : Program σ α) : Run.Calm (liftM program : Run σ α) :=
  fun _ _ _ _ h => System.admits_calm.of_run h

namespace System

structure Stores (R : System σ → System σ → Prop) : Prop extends Admits R where
  setTokenMemory : ∀ s id memory, R s (s.setTokenMemory id memory)

lemma stores_calm : Stores (Calm (σ := σ)) where
  toAdmits := admits_calm
  setTokenMemory _ _ _ := ⟨rfl, rfl, le_rfl⟩

variable {R : System σ → System σ → Prop} [IsPreorder (System σ) R] (hR : Stores R)

include hR

lemma Stores.keeps_lift (program : Program σ α) : (liftM program : Run σ α).Keeps R :=
  fun _ _ _ _ h => hR.of_run h

end System

section Stays

variable {R : System σ → System σ → Prop}

structure TokenStore.Stays (R : System σ → System σ → Prop) (name : String)
    (store : TokenStore σ) : Prop where
  gate : ∀ call, (liftM (store.gate call) : Run σ Outcome).Keeps R
  stored : ∀ s segment token, R s (s.setTokenMemory store.self.id
    ((s.tokenMemory store.self.id).store name segment token))
  created : ∀ s initial count, R s (s.setTokenMemory store.self.id
    ((s.tokenMemory store.self.id).create name initial count))

variable [IsPreorder (System σ) R]

lemma System.Stores.stays (hR : System.Stores R) (name : String) (store : TokenStore σ) :
    store.Stays R name :=
  ⟨fun _ => hR.keeps_lift _, fun s _ _ => hR.setTokenMemory s _ _,
    fun s _ _ => hR.setTokenMemory s _ _⟩

namespace TokenStore.Stays

variable {store : TokenStore σ} {name : String} (h : store.Stays R name)

include h

lemma fetch (segment : ℕ) : (store.fetch name segment).Keeps R := by
  refine .bind (h.gate _) fun outcome => ?_
  cases outcome with
  | error failure => exact .pure _
  | ok _ => exact .bind (.bind .system fun _ => .pure _) fun _ => .pure _

lemma segments : (store.segments name).Keeps R := by
  refine .bind (h.gate _) fun outcome => ?_
  cases outcome with
  | error failure => exact .pure _
  | ok _ => exact .bind (.bind .system fun _ => .pure _) fun _ => .pure _

lemma put (segment : ℕ) (token : Token) : (store.put name segment token).Keeps R := by
  refine .bind (h.gate _) fun outcome => ?_
  cases outcome with
  | error failure => exact .pure _
  | ok _ =>
    intro depth s value s' hput
    cases hput
    exact h.stored s segment token

lemma begin (count : ℕ) (initial : Option Token) : (store.begin name count initial).Keeps R := by
  refine .bind (h.gate _) fun outcome => ?_
  cases outcome with
  | error failure => exact .pure _
  | ok _ =>
    intro depth s value s' hbegin
    obtain ⟨_, _, hmemory, hbegin⟩ := Run.bind_eq_some.mp hbegin
    cases hmemory
    cases hb : (s.tokenMemory store.self.id).begin? name count initial with
    | error failure =>
      rw [hb] at hbegin
      cases hbegin
      exact refl s
    | ok memory =>
      rw [hb] at hbegin
      cases hbegin
      unfold TokenMemory.begin? at hb
      split at hb
      · cases hb
        exact h.created s initial count
      · cases hb

end TokenStore.Stays

lemma EventSource.keeps_read {source : EventSource σ}
    (h : (liftM source.gate : Run σ Outcome).Keeps R) (after : Option Token) (max : ℕ) :
    (source.read after max).Keeps R := by
  refine .bind h fun outcome => ?_
  cases outcome with
  | error failure => exact .pure _
  | ok _ => exact .bind .system fun _ => .pure _

namespace TrackingProcessor

variable {t : TrackingProcessor σ}

lemma keeps_initialToken (t : TrackingProcessor σ) : t.initialToken.Keeps R := by
  unfold initialToken
  split
  · exact .pure _
  · exact .bind .system fun _ => .pure _

variable (h : t.tokens.Stays R t.pipeline.name)

include h

lemma keeps_claimIds : t.claimIds.Keeps R := by
  refine .bind h.segments fun found => ?_
  rcases found with failure | (_ | ⟨id, ids⟩)
  · exact .pure _
  · dsimp only
    split
    · exact .pure _
    · refine .bind (keeps_initialToken t) fun initial => .bind (h.begin _ _) fun outcome => ?_
      cases outcome with
      | error failure => exact .pure _
      | ok _ => exact h.segments
  · exact .pure _

lemma keeps_claimSegments : t.claimSegments.Keeps R := by
  refine .bind (keeps_claimIds h) fun found => ?_
  cases found with
  | error failure => exact .pure _
  | ok ids =>
    dsimp only
    split
    · exact .pure _
    · exact .pure _

end TrackingProcessor

lemma SegmentWork.keeps_step (hR : System.Stores R) (work : SegmentWork σ) :
    work.step.Keeps R := by
  have hstays : work.tokens.Stays R work.pipeline.name := hR.stays _ _
  refine .bind (hstays.fetch _) fun fetched => ?_
  cases fetched with
  | error failure => exact .pure _
  | ok token =>
    refine .bind (EventSource.keeps_read (hR.keeps_lift _) _ _) fun batch => ?_
    cases batch with
    | error failure => exact .pure _
    | ok batch =>
      dsimp only
      split
      · exact .pure _
      · refine .bind .system fun s => .bind (hR.keeps_lift _) fun outcome => ?_
        cases outcome with
        | error failure => exact .pure _
        | ok _ =>
          refine .bind (hstays.put _ _) fun stored => ?_
          cases stored with
          | error failure => exact .pure _
          | ok _ => exact .pure _

end Stays

lemma SegmentWork.calm_step (work : SegmentWork σ) : work.step.Calm :=
  keeps_step System.stores_calm work

lemma TrackingProcessor.calm_claimSegments (t : TrackingProcessor σ) : t.claimSegments.Calm :=
  keeps_claimSegments (System.stores_calm.stays _ _)

lemma TrackingProcessor.nodup_of_claimSegments {t : TrackingProcessor σ} {s s' : System σ}
    {segments : List Segment} (h : t.claimSegments depth s = some (.ok segments, s')) :
    segments.Nodup := by
  obtain ⟨-, -, hl⟩ := claimSegments_cases h
  obtain ⟨n, hn, rfl⟩ := splits_of_layout? (hl segments rfl)
  obtain ⟨_, _, hlt⟩ := Segment.two_pow_of_roundedCount? hn.rounded
  exact Segment.nodup_layout hlt

namespace Processor

variable {p : Processor σ} {t : TrackingProcessor σ} {s s' : System σ}

lemma startTracking_of_noRuntime (hr : s.hasRuntime = false) :
    p.startTracking t depth s = some (.error (.noRuntime p.name), s) := by
  unfold startTracking
  refine Run.bind_eq_some.mpr ⟨s, s, rfl, Run.bind_eq_some.mpr ⟨_, s, rfl, ?_⟩⟩
  rw [if_pos (by simp [hr])]
  rfl

lemma startTracking_of_running (hr : s.hasRuntime = true)
    (hw : (s.processor p.self.id).workers.isSome = true) :
    p.startTracking t depth s = some (.ok (), s) := by
  unfold startTracking
  refine Run.bind_eq_some.mpr ⟨s, s, rfl, Run.bind_eq_some.mpr ⟨_, s, rfl, ?_⟩⟩
  rw [if_neg (by simp [hr]), if_pos hw]
  rfl

lemma startTracking_of_kept (hr : s.hasRuntime = true)
    (hw : (s.processor p.self.id).workers = none) (hk : p.kept s ≠ []) :
    p.startTracking t depth s = some (.error (.stillStopping p.name), p.pruned s) := by
  unfold startTracking
  refine Run.bind_eq_some.mpr ⟨s, s, rfl, Run.bind_eq_some.mpr ⟨_, s, rfl, ?_⟩⟩
  rw [if_neg (by simp [hr]), if_neg (by simp [hw])]
  refine Run.bind_eq_some.mpr ⟨(), p.pruned s, rfl, ?_⟩
  rw [if_pos (by simpa [kept] using hk)]
  rfl

lemma exists_spawnAll (f : Segment → SegmentWork σ) (segments : List Segment) (s : System σ) :
    ∃ ids s', (segments.mapM fun segment => spawn (f segment)) depth s = some (ids, s') := by
  induction segments generalizing s with
  | nil => exact ⟨[], s, rfl⟩
  | cons segment rest ih =>
    obtain ⟨id, middle, hs⟩ : ∃ id middle, spawn (f segment) depth s = some (id, middle) :=
      ⟨_, _, rfl⟩
    obtain ⟨ids, s', hr⟩ := ih middle
    refine ⟨id :: ids, s', ?_⟩
    rw [List.mapM_cons]
    exact Run.bind_eq_some.mpr ⟨id, middle, hs, Run.bind_eq_some.mpr ⟨ids, s', hr, rfl⟩⟩

lemma startTracking_of_refused {failure : Failure} (hr : s.hasRuntime = true)
    (hw : (s.processor p.self.id).workers = none) (hk : p.kept s = [])
    (hc : t.claimSegments depth (p.pruned s) = some (.error failure, s')) :
    p.startTracking t depth s = some (.error failure, s') := by
  unfold startTracking
  refine Run.bind_eq_some.mpr ⟨s, s, rfl, Run.bind_eq_some.mpr ⟨_, s, rfl, ?_⟩⟩
  rw [if_neg (by simp [hr]), if_neg (by simp [hw])]
  refine Run.bind_eq_some.mpr ⟨(), p.pruned s, rfl, ?_⟩
  rw [if_neg (by simpa [kept] using hk)]
  exact Run.bind_eq_some.mpr ⟨_, _, hc, rfl⟩

lemma startTracking_of_claimed {segments : List Segment} {ready : System σ}
    (hr : s.hasRuntime = true) (hw : (s.processor p.self.id).workers = none) (hk : p.kept s = [])
    (hc : t.claimSegments depth (p.pruned s) = some (.ok segments, ready)) :
    ∃ ids hired line, Spawns (work p.self.id t) segments ids ready hired ∧
      p.startTracking t depth s = some (.ok (), (hired.addTrace line).setProcessor p.self.id
        { hired.processor p.self.id with workers := some ids }) := by
  obtain ⟨ids, hired, hs⟩ : ∃ ids hired, (segments.mapM fun segment =>
      spawn (work p.self.id t segment)) depth ready = some (ids, hired) :=
    exists_spawnAll (work p.self.id t) segments ready
  refine ⟨ids, hired, .event .info "tracking event processor started"
    [("processor", p.name), ("segments", toString ids.length)], spawns_of_spawnAll hs, ?_⟩
  unfold startTracking
  refine Run.bind_eq_some.mpr ⟨s, s, rfl, Run.bind_eq_some.mpr ⟨_, s, rfl, ?_⟩⟩
  rw [if_neg (by simp [hr]), if_neg (by simp [hw])]
  refine Run.bind_eq_some.mpr ⟨(), p.pruned s, rfl, ?_⟩
  rw [if_neg (by simpa [kept] using hk)]
  exact Run.bind_eq_some.mpr ⟨_, _, hc, Run.bind_eq_some.mpr ⟨ids, hired, hs, rfl⟩⟩

def halted (p : Processor σ) (told : List ℕ) (s : System σ) : System σ :=
  ((wake requestStop told s).setProcessor p.self.id { s.processor p.self.id with
    workers := none
    stopping := (s.processor p.self.id).stopping ++ told }).addTrace
      (.event .info "tracking event processor stopped" [("processor", p.name)])

lemma shutDownTracking_eq : p.shutDownTracking depth s =
    some (.ok (), (s.processor p.self.id).workers.elim s fun told => p.halted told s) := by
  cases hw : (s.processor p.self.id).workers with
  | none =>
    refine Run.bind_eq_some.mpr ⟨_, s, rfl, ?_⟩
    rw [hw]
    rfl
  | some told =>
    refine Run.bind_eq_some.mpr ⟨_, s, rfl, ?_⟩
    rw [hw]
    rfl

end Processor

lemma Schedule.finish_eq {id : ℕ} {worker : Worker σ} {s : System σ}
    (hw : s.workers.get? id = some worker) : finish id worker.work depth s =
      some ((), { s with workers := s.workers.put id { worker with finished := true } }.addTrace
        (.event .debug "segment worker stopped" worker.work.label)) := by
  refine Run.bind_eq_some.mpr ⟨(), _, rfl, ?_⟩
  dsimp only
  rw [hw]
  rfl

end EventProcessing
