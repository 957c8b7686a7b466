import EventProcessing.Proofs.Tracking.Effects
import EventProcessing.Proofs.Tracking.Rounds

/-! The workers of one tracking processor over its starts and shutdowns. A worker that was told to
stop stands in the list of the stopping until it has finished, or until a wait takes it from there;
a start looks at nobody but those in the list. -/

namespace EventProcessing

variable {σ α : Type} {depth : ℕ}

def Alive (p : Processor σ) (s : System σ) (id : ℕ) (segment : Segment) : Prop :=
  ∃ worker, s.workers.get? id = some worker ∧ worker.work.processor = p.self.id ∧
    worker.work.segment = segment ∧ worker.finished = false

def Awaited (waits : List (List ℕ)) (id : ℕ) : Prop := ∃ handles ∈ waits, id ∈ handles

structure Aside (p : Processor σ) (s s' : System σ) : Prop where
  alive : ∀ id segment, Alive p s' id segment → Alive p s id segment
  workers : (s'.processor p.self.id).workers = (s.processor p.self.id).workers
  stopping : (s'.processor p.self.id).stopping = (s.processor p.self.id).stopping
  nextId : s.nextId ≤ s'.nextId

instance (p : Processor σ) : IsPreorder (System σ) (Aside p) where
  refl _ := ⟨fun _ _ h => h, rfl, rfl, le_rfl⟩
  trans _ _ _ hab hbc :=
    ⟨fun id segment h => hab.alive id segment (hbc.alive id segment h),
      hbc.workers.trans hab.workers, hbc.stopping.trans hab.stopping, hab.nextId.trans hbc.nextId⟩

/-- One thing in the life of a tracking processor, with the waits that are open before and after it.
A wait opens when it takes the list. It is over once all that it took have finished; one that is
dropped stays open. -/
inductive Happens (p : Processor σ) :
    System σ → List (List ℕ) → System σ → List (List ℕ) → Prop
  | start {s s' : System σ} {waits : List (List ℕ)} {depth : ℕ} {outcome : Outcome}
      (h : p.start depth s = some (outcome, s')) : Happens p s waits s' waits
  | shutDown {s s' : System σ} {waits : List (List ℕ)} {depth : ℕ} {outcome : Outcome}
      (h : p.shutDown depth s = some (outcome, s')) : Happens p s waits s' waits
  | await {s s' : System σ} {waits : List (List ℕ)} {depth : ℕ} {handles : List ℕ}
      (h : p.takeStopping depth s = some (handles, s')) : Happens p s waits s' (handles :: waits)
  | awaited {s : System σ} {before after : List (List ℕ)} {handles : List ℕ}
      (h : ∀ id ∈ handles, Processor.isFinished s id = true) :
      Happens p s (before ++ handles :: after) s (before ++ after)
  | turn {s s' : System σ} {waits : List (List ℕ)} {depth id : ℕ} {goesOn : Bool}
      (h : Schedule.turn id depth s = some (goesOn, s')) : Happens p s waits s' waits
  | aside {s s' : System σ} {waits : List (List ℕ)} (h : Aside p s s') : Happens p s waits s' waits

inductive Lives (p : Processor σ) (s₀ : System σ) : List (List ℕ) → System σ → Prop
  | init : Lives p s₀ [] s₀
  | next {s s' : System σ} {waits waits' : List (List ℕ)} (hl : Lives p s₀ waits s)
      (hs : Happens p s waits s' waits') : Lives p s₀ waits' s'

structure Staffed (p : Processor σ) (waits : List (List ℕ)) (s : System σ) : Prop where
  fresh : ∀ id segment, Alive p s id segment → id < s.nextId
  listed : ∀ id segment, Alive p s id segment → ¬ Awaited waits id →
    id ∈ (s.processor p.self.id).workers.getD [] ∨ id ∈ (s.processor p.self.id).stopping
  apart : ∀ id other segment, Alive p s id segment → Alive p s other segment → id ≠ other →
    Awaited waits id ∨ Awaited waits other

section Turns

variable {p : Processor σ} {s s' : System σ}

lemma aside_of_calm (h : System.Calm s s') : Aside p s s' := by
  refine ⟨fun id segment halive => ?_, ?_, ?_, h.nextId⟩
  · obtain ⟨worker, hw, hrest⟩ := halive
    rw [h.workers] at hw
    exact ⟨worker, hw, hrest⟩
  · rw [h.processor_eq]
  · rw [h.processor_eq]

lemma allows_aside : Schedule.Allows (Aside p) where
  beside h := aside_of_calm ⟨h.workers, h.processors, h.nextId.ge⟩
  change {s id worker changed} hw hchanged := by
    refine ⟨fun other segment h => ?_, rfl, rfl, le_rfl⟩
    obtain ⟨changed, hc, hp, hs, hf⟩ := h
    by_cases ho : other = id
    · subst ho
      rw [Table.get?_put_self] at hc
      cases hc
      rw [hchanged.work] at hp hs
      refine ⟨worker, hw, hp, hs, ?_⟩
      rw [← Bool.not_eq_true] at hf ⊢
      exact fun h => hf (hchanged.finished h)
    · rw [Table.get?_put_of_ne _ _ ho] at hc
      exact ⟨changed, hc, hp, hs, hf⟩
  step _ h := aside_of_calm (SegmentWork.calm_step _ _ _ _ _ h)

end Turns

section Life

variable {p : Processor σ} {t : TrackingProcessor σ} {s s' s₀ : System σ}
  {waits waits' : List (List ℕ)} {outcome : Outcome}

lemma Alive.not_finished {id : ℕ} {segment : Segment} (h : Alive p s id segment) :
    Processor.isFinished s id = false := by
  obtain ⟨worker, hw, -, -, hf⟩ := h
  rw [Processor.isFinished, hw]
  exact hf

lemma Staffed.mem_kept (h : Staffed p waits s) (hw : (s.processor p.self.id).workers = none)
    {id : ℕ} {segment : Segment} (ha : Alive p s id segment) (hn : ¬ Awaited waits id) :
    id ∈ p.kept s := by
  have hlisted := h.listed id segment ha hn
  rw [hw] at hlisted
  have hstopping := hlisted.resolve_left List.not_mem_nil
  exact List.mem_filter.mpr ⟨hstopping, by rw [ha.not_finished]; rfl⟩

lemma Staffed.aside (h : Staffed p waits s) (ha : Aside p s s') : Staffed p waits s' where
  fresh id segment hid := (h.fresh id segment (ha.alive id segment hid)).trans_le ha.nextId
  listed id segment hid hn := by
    rw [ha.workers, ha.stopping]
    exact h.listed id segment (ha.alive id segment hid) hn
  apart id other segment hid ho :=
    h.apart id other segment (ha.alive id segment hid) (ha.alive other segment ho)

lemma Staffed.pruned (h : Staffed p waits s) (hw : (s.processor p.self.id).workers = none) :
    Staffed p waits (p.pruned s) where
  fresh := h.fresh
  listed id segment hid hn := by
    have hkept := h.mem_kept hw hid hn
    refine .inr ?_
    rw [Processor.pruned, System.processor_setProcessor]
    exact hkept
  apart := h.apart

lemma Processor.Spawns.alive_cases {f : Segment → SegmentWork σ} {segments : List Segment}
    {ids : List ℕ} (h : Spawns f segments ids s s') (hf : ∀ segment, (f segment).segment = segment)
    {id : ℕ} {segment : Segment} (ha : Alive p s' id segment) :
    Alive p s id segment ∨ ∃ n, segments[n]? = some segment ∧ id = s.nextId + n ∧ id ∈ ids := by
  obtain ⟨worker, hw, hp, hs, hg⟩ := ha
  rcases h.worker_cases hw with hw | ⟨n, other, hn, hid, hm, rfl⟩
  · exact .inl ⟨worker, hw, hp, hs, hg⟩
  · rw [hf] at hs
    exact .inr ⟨n, hs ▸ hn, hid, hm⟩

lemma Staffed.hired {segments : List Segment} {ids : List ℕ} {ready hired : System σ}
    {line : TraceLine} (h : Staffed p waits ready) (hnone : ∀ id segment, Alive p ready id segment →
      Awaited waits id) (hd : segments.Nodup)
    (hs : Processor.Spawns (Processor.work p.self.id t) segments ids ready hired) :
    Staffed p waits ((hired.addTrace line).setProcessor p.self.id
      { (hired.processor p.self.id) with workers := some ids }) := by
  -- A worker is one of those that a wait has taken, or it is new and has its segment for itself.
  have hcases : ∀ id segment, Alive p hired id segment → Alive p ready id segment ∨
      ∃ n, segments[n]? = some segment ∧ id = ready.nextId + n ∧ id ∈ ids :=
    fun id segment ha => hs.alive_cases (fun _ => rfl) ha
  constructor
  case fresh =>
    intro id segment ha
    change id < hired.nextId
    rw [hs.nextId]
    rcases hcases id segment ha with ha | ⟨n, hn, rfl, -⟩
    · exact (h.fresh id segment ha).trans_le (Nat.le_add_right _ _)
    · have hlt := (List.getElem?_eq_some_iff.mp hn).1
      omega
  case listed =>
    intro id segment ha hn
    refine .inl ?_
    rw [System.processor_setProcessor]
    rcases hcases id segment ha with ha | ⟨n, -, -, hm⟩
    · exact absurd (hnone id segment ha) hn
    · exact hm
  case apart =>
    intro id other segment ha ho hne
    rcases hcases id segment ha with ha | ⟨n, hn, rfl, -⟩
    · exact .inl (hnone id segment ha)
    · rcases hcases other segment ho with ho | ⟨m, hm, rfl, -⟩
      · exact .inr (hnone other segment ho)
      · have hlt := (List.getElem?_eq_some_iff.mp hn).1
        obtain rfl := (List.getElem?_inj hlt hd).mp (hn.trans hm.symm)
        exact absurd rfl hne

lemma Staffed.awaits_all (h : Staffed p waits s) (hw : (s.processor p.self.id).workers = none)
    (hk : p.kept s = []) (id : ℕ) (segment : Segment) (ha : Alive p s id segment) :
    Awaited waits id := by
  by_contra hn
  have hm := h.mem_kept hw ha hn
  rw [hk] at hm
  cases hm

lemma Staffed.started (h : Staffed p waits s) (hb : Processor.Begins p t depth s outcome s') :
    Staffed p waits s' := by
  cases hb with
  | noRuntime hr => exact h
  | running hr hw => exact h
  | stillStopping hr hw hk => exact h.pruned hw
  | refused hr hw hk hc =>
    exact (h.pruned hw).aside (aside_of_calm (t.calm_claimSegments _ _ _ _ hc))
  | hired hr hw hk hc hs =>
    have hready := aside_of_calm (p := p) (t.calm_claimSegments _ _ _ _ hc)
    refine ((h.pruned hw).aside hready).hired (fun id segment ha => ?_)
      (TrackingProcessor.nodup_of_claimSegments hc) hs
    exact h.awaits_all hw hk id segment (hready.alive id segment ha)

lemma alive_of_wake {told : List ℕ} {id : ℕ} {segment : Segment}
    (h : Alive p (Processor.wake Processor.requestStop told s) id segment) :
    Alive p s id segment := by
  obtain ⟨worker, hw, hp, hs, hf⟩ := h
  rw [get?_wake_eq] at hw
  obtain ⟨other, hother, rfl⟩ := Option.map_eq_some_iff.mp hw
  refine ⟨other, hother, ?_⟩
  by_cases ht : told.contains id = true
  · rw [if_pos ht] at hp hs hf
    exact ⟨hp, hs, hf⟩
  · rw [if_neg ht] at hp hs hf
    exact ⟨hp, hs, hf⟩

lemma Staffed.stopped (h : Staffed p waits s)
    (hs : p.shutDownTracking depth s = some (outcome, s')) : Staffed p waits s' := by
  rw [Processor.shutDownTracking_eq] at hs
  cases hw : (s.processor p.self.id).workers with
  | none =>
    rw [hw] at hs
    cases hs
    exact h
  | some told =>
    rw [hw] at hs
    cases hs
    refine ⟨fun id segment ha => h.fresh id segment (alive_of_wake ha), fun id segment ha hn => ?_,
      fun id other segment ha ho => h.apart id other segment (alive_of_wake ha) (alive_of_wake ho)⟩
    have hlisted := h.listed id segment (alive_of_wake ha) hn
    rw [hw] at hlisted
    refine .inr ?_
    change id ∈ (((Processor.wake Processor.requestStop told s).setProcessor p.self.id _).processor
      p.self.id).stopping
    rw [System.processor_setProcessor]
    exact List.mem_append.mpr hlisted.symm

lemma Staffed.taken {handles : List ℕ} (h : Staffed p waits s)
    (ht : p.takeStopping depth s = some (handles, s')) : Staffed p (handles :: waits) s' := by
  cases ht
  have hmore : ∀ id, Awaited waits id →
      Awaited ((s.processor p.self.id).stopping :: waits) id := by
    rintro id ⟨handles, hm, hid⟩
    exact ⟨handles, List.mem_cons_of_mem _ hm, hid⟩
  refine ⟨h.fresh, fun id segment ha hn => ?_, fun id other segment ha ho hne => ?_⟩
  · have hlisted := h.listed id segment ha fun hawaited => hn (hmore id hawaited)
    refine .inl ?_
    rw [System.processor_setProcessor]
    exact hlisted.resolve_right fun hm => hn ⟨_, List.mem_cons_self, hm⟩
  · exact (h.apart id other segment ha ho hne).imp (hmore id) (hmore other)

lemma Staffed.over {before after : List (List ℕ)} {handles : List ℕ}
    (h : Staffed p (before ++ handles :: after) s)
    (hf : ∀ id ∈ handles, Processor.isFinished s id = true) : Staffed p (before ++ after) s := by
  have hless : ∀ id segment, Alive p s id segment → Awaited (before ++ handles :: after) id →
      Awaited (before ++ after) id := by
    rintro id segment ha ⟨others, hm, hid⟩
    refine ⟨others, ?_, hid⟩
    rcases List.mem_append.mp hm with hm | hm
    · exact List.mem_append_left _ hm
    · rcases List.mem_cons.mp hm with rfl | hm
      · have hfinished := hf id hid
        rw [ha.not_finished] at hfinished
        cases hfinished
      · exact List.mem_append_right _ hm
  refine ⟨h.fresh, fun id segment ha hn => ?_, fun id other segment ha ho hne => ?_⟩
  · exact h.listed id segment ha fun hawaited => hn (hless id segment ha hawaited)
  · exact (h.apart id other segment ha ho hne).imp (hless id segment ha) (hless other segment ho)

lemma Staffed.next (hk : p.kind = .tracking t) (h : Staffed p waits s)
    (hs : Happens p s waits s' waits') : Staffed p waits' s' := by
  cases hs with
  | start hs =>
    rw [Processor.start, hk] at hs
    exact h.started (Processor.begins_of_startTracking hs)
  | shutDown hs =>
    rw [Processor.shutDown, hk] at hs
    exact h.stopped hs
  | await ht => exact h.taken ht
  | awaited hf => exact h.over hf
  | turn ht => exact h.aside (Schedule.keeps_turn allows_aside _ _ _ _ _ ht)
  | aside ha => exact h.aside ha

theorem staffed_of_lives (hk : p.kind = .tracking t) (hi : ∀ id segment, ¬ Alive p s₀ id segment)
    (hl : Lives p s₀ waits s) : Staffed p waits s := by
  induction hl with
  | init =>
    exact ⟨fun id segment h => absurd h (hi id segment),
      fun id segment h => absurd h (hi id segment),
      fun id _ segment h => absurd h (hi id segment)⟩
  | next _ hs ih => exact ih.next hk hs

structure Meets (p : Processor σ) (waits : List (List ℕ)) (s : System σ) : Prop where
  hires : ∀ depth outcome s', p.start depth s = some (outcome, s') →
    (∃ id segment, Alive p s' id segment ∧ ¬ Alive p s id segment) →
    ∀ id segment, Alive p s id segment → Awaited waits id
  stillStopping : s.hasRuntime = true → (s.processor p.self.id).workers = none →
    (∃ id segment, Alive p s id segment ∧ ¬ Awaited waits id) → ∀ depth, ∃ s',
      p.start depth s = some (.error (.stillStopping p.name), s') ∧ s'.workers = s.workers
  running : s.hasRuntime = true → (s.processor p.self.id).workers.isSome = true → ∀ depth,
    p.start depth s = some (.ok (), s)
  noRuntime : s.hasRuntime = false → ∀ depth,
    p.start depth s = some (.error (.noRuntime p.name), s)
  apart : ∀ id other segment, Alive p s id segment → Alive p s other segment → id ≠ other →
    Awaited waits id ∨ Awaited waits other

/-- A start hires only when every worker that it can see has finished, and while one has not it says
so: two workers of one segment are at work together only if an open wait has taken one of them. -/
theorem meets_of_lives (hk : p.kind = .tracking t) (hi : ∀ id segment, ¬ Alive p s₀ id segment)
    (hl : Lives p s₀ waits s) : Meets p waits s := by
  have hstaffed := staffed_of_lives hk hi hl
  have hstart : p.start = p.startTracking t := by rw [Processor.start, hk]
  constructor
  case hires =>
    rw [hstart]
    rintro depth outcome s' hs ⟨id, segment, hnew, hold⟩
    cases Processor.begins_of_startTracking hs with
    | noRuntime hr => exact absurd hnew hold
    | running hr hw => exact absurd hnew hold
    | stillStopping hr hw hk => exact absurd hnew hold
    | refused hr hw hk hc =>
      exact absurd ((aside_of_calm (t.calm_claimSegments _ _ _ _ hc)).alive id segment hnew) hold
    | hired hr hw hk hc hs => exact hstaffed.awaits_all hw hk
  case stillStopping =>
    rw [hstart]
    rintro hr hw ⟨id, segment, ha, hn⟩ depth
    have hkept := List.ne_nil_of_mem (hstaffed.mem_kept hw ha hn)
    exact ⟨p.pruned s, Processor.startTracking_of_kept hr hw hkept, rfl⟩
  case running =>
    rw [hstart]
    exact fun hr hw depth => Processor.startTracking_of_running hr hw
  case noRuntime =>
    rw [hstart]
    exact fun hr depth => Processor.startTracking_of_noRuntime hr
  case apart => exact hstaffed.apart

end Life

def Stays (s s' : System σ) : Prop :=
  ∀ id, Processor.isFinished s id = true → Processor.isFinished s' id = true

namespace Schedule

variable {p : Processor σ} {s s' s₀ : System σ} {waits : List (List ℕ)} {fuel id : ℕ}

instance : IsPreorder (System σ) Stays where
  refl _ _ h := h
  trans _ _ _ hab hbc id h := hbc id (hab id h)

lemma stays_of_workers (h : s'.workers = s.workers) : Stays s s' := by
  intro id hf
  rwa [Processor.isFinished, h]

lemma allows_stays : Allows (Stays (σ := σ)) where
  beside h := stays_of_workers h.workers
  change {s id worker changed} hw hchanged := by
    intro other h
    unfold Processor.isFinished at h ⊢
    by_cases ho : other = id
    · subst ho
      rw [hw] at h
      rw [Table.get?_put_self]
      exact hchanged.finished h
    · rwa [Table.get?_put_of_ne _ _ ho]
  step _ h := stays_of_workers (SegmentWork.calm_step _ _ _ _ _ h).workers

lemma done_of_roundsUntil {done : System σ → Bool} {value : Unit}
    (h : roundsUntil done fuel depth s = some (value, s')) : done s' = true := by
  induction fuel generalizing s with
  | zero => cases h
  | succ fuel ih =>
    obtain ⟨_, _, hs, h⟩ := Run.bind_eq_some.mp h
    cases hs
    split at h
    · next hd =>
      cases h
      exact hd
    · obtain ⟨_, middle, -, h⟩ := Run.bind_eq_some.mp h
      exact ih h

lemma finished_of_awaitWorker {value : Unit}
    (h : awaitWorker fuel id depth s = some (value, s')) : Processor.isFinished s' id = true := by
  obtain ⟨_, _, hs, h⟩ := Run.bind_eq_some.mp h
  cases hs
  split at h
  · next hf => exact keeps_passWait allows_stays _ _ _ _ h id hf
  · obtain ⟨_, middle, hrounds, h⟩ := Run.bind_eq_some.mp h
    exact keeps_endWait allows_stays _ _ _ _ h id (done_of_roundsUntil hrounds)

lemma finished_of_awaitWorkers {ids : List ℕ} {value : PUnit}
    (h : (ids.forM (awaitWorker fuel)) depth s = some (value, s')) :
    ∀ id ∈ ids, Processor.isFinished s' id = true := by
  induction ids generalizing s with
  | nil => exact fun _ h => by cases h
  | cons first rest ih =>
    obtain ⟨_, middle, hfirst, h⟩ := Run.bind_eq_some.mp h
    have hrest : Stays middle s' := keeps_awaitWorkers allows_stays _ _ _ _ _ _ h
    exact List.forall_mem_cons.mpr ⟨hrest first (finished_of_awaitWorker hfirst), ih h⟩

theorem lives_run {program : Program σ α} {value : α} (hl : Lives p s₀ waits s)
    (h : System.run depth program s = some (value, s')) : Lives p s₀ waits s' :=
  .next hl (.aside (aside_of_calm (System.admits_calm.of_run h)))

theorem lives_runFor {milliseconds : ℕ} {value : Unit} (hl : Lives p s₀ waits s)
    (h : runFor milliseconds fuel depth s = some (value, s')) : Lives p s₀ waits s' :=
  .next hl (.aside (keeps_runFor allows_aside _ _ _ _ _ _ h))

theorem lives_awaitTermination {value : Unit} (hl : Lives p s₀ waits s)
    (h : awaitTermination p fuel depth s = some (value, s')) : Lives p s₀ waits s' := by
  obtain ⟨handles, middle, htake, h⟩ := Run.bind_eq_some.mp h
  have hopen : Lives p s₀ (handles :: waits) middle := .next hl (.await htake)
  have hwaited : Lives p s₀ (handles :: waits) s' :=
    .next hopen (.aside (keeps_awaitWorkers allows_aside _ _ _ _ _ _ h))
  have hover : Happens p s' ([] ++ handles :: waits) s' ([] ++ waits) :=
    .awaited (finished_of_awaitWorkers h)
  exact .next hwaited hover

end Schedule

namespace Sample

def stopped : System Unit where
  shared := ()
  nextId := 1
  buses := logged.buses
  tokens := [(0, [(("sample", 0), none)])]
  processors := [(0, { stopping := [0] })]
  workers := [(0, { work := work sound, stopRequested := true })]
  ready := [0]
  trace := (started sound).trace ++
    [.event .info "tracking event processor stopped" [("processor", "sample")]]

def takenFrom : System Unit := { stopped with processors := [(0, {})] }

lemma claimSegments_taken (depth : ℕ) : (tracking sound).claimSegments depth
    ((processor sound).pruned takenFrom) =
      some (.ok [.root], (processor sound).pruned takenFrom) := by
  have hids : (TokenStore.inMemory 0).segments "sample" depth ((processor sound).pruned takenFrom) =
      some (.ok [0], (processor sound).pruned takenFrom) := by
    change some (Except.ok (TokenMemory.segments [(("sample", 0), none)] "sample"), _) = _
    rw [segments_created]
  have hl : TrackingProcessor.layout? [0] = some [Segment.root] := by decide
  refine Run.bind_eq_some.mpr ⟨.ok [0], (processor sound).pruned takenFrom,
    Run.bind_eq_some.mpr ⟨_, _, hids, rfl⟩, ?_⟩
  dsimp only
  rw [hl]
  rfl

lemma lives_started : Lives (processor sound) logged [] (started sound) :=
  .next .init (.start (start_eq _ _ _))

lemma lives_stopped : Lives (processor sound) logged [] stopped := by
  have hs : (processor sound).shutDown 1 (started sound) = some (.ok (), stopped) := rfl
  exact .next lives_started (.shutDown hs)

lemma lives_taken : Lives (processor sound) logged [[0]] takenFrom := by
  have ht : (processor sound).takeStopping 1 stopped = some ([0], takenFrom) := rfl
  exact .next lives_stopped (.await ht)

lemma no_worker_logged (id : ℕ) (segment : Segment) :
    ¬ Alive (processor sound) logged id segment := by
  rintro ⟨worker, h, -⟩
  cases h

lemma alive_stopped : Alive (processor sound) stopped 0 .root := ⟨_, rfl, rfl, rfl, rfl⟩

lemma alive_takenFrom : Alive (processor sound) takenFrom 0 .root := ⟨_, rfl, rfl, rfl, rfl⟩

lemma restarted : ∃ s, (processor sound).start 1 takenFrom = some (.ok (), s) ∧
    Alive (processor sound) s 0 .root ∧ Alive (processor sound) s 1 .root := by
  obtain ⟨ids, hired, line, hs, hstart⟩ := Processor.startTracking_of_claimed rfl rfl rfl
    (claimSegments_taken 1)
  refine ⟨_, hstart, ?_, ?_⟩
  · refine ⟨{ work := work sound, stopRequested := true }, ?_, rfl, rfl, rfl⟩
    exact (hs.old 0 (.inl (by decide))).trans rfl
  · exact ⟨{ work := work sound }, hs.new 0 .root rfl, rfl, rfl, rfl⟩

end Sample

theorem stopped_meets : ∃ s',
    Lives (Sample.processor Sample.sound) Sample.logged [] Sample.stopped ∧
    Alive (Sample.processor Sample.sound) Sample.stopped 0 .root ∧
    (Sample.processor Sample.sound).start 1 Sample.stopped =
      some (.error (.stillStopping "sample"), s') ∧
    s'.workers = Sample.stopped.workers := by
  have hmeets := meets_of_lives rfl Sample.no_worker_logged Sample.lives_stopped
  have hnone : ¬ Awaited [] 0 := by
    rintro ⟨_, h, -⟩
    cases h
  obtain ⟨s', hs, hw⟩ := hmeets.stillStopping rfl rfl ⟨0, .root, Sample.alive_stopped, hnone⟩ 1
  exact ⟨s', Sample.lives_stopped, Sample.alive_stopped, hs, hw⟩

/-- A wait that is given up has emptied the list all the same: the next start hires, and the worker
that was told to stop is still at work beside the new one. -/
theorem start_beside_worker :
    (Sample.processor Sample.sound).start 1 Sample.logged =
        some (.ok (), Sample.started Sample.sound) ∧
    (Sample.processor Sample.sound).shutDown 1 (Sample.started Sample.sound) =
        some (.ok (), Sample.stopped) ∧
    (Sample.processor Sample.sound).takeStopping 1 Sample.stopped =
        some ([0], Sample.takenFrom) ∧
    Lives (Sample.processor Sample.sound) Sample.logged [[0]] Sample.takenFrom ∧
    Alive (Sample.processor Sample.sound) Sample.takenFrom 0 .root ∧
    ∃ s, (Sample.processor Sample.sound).start 1 Sample.takenFrom = some (.ok (), s) ∧
      Alive (Sample.processor Sample.sound) s 0 .root ∧
      Alive (Sample.processor Sample.sound) s 1 .root :=
  ⟨Sample.start_eq _ _ _, rfl, rfl, Sample.lives_taken, Sample.alive_takenFrom, Sample.restarted⟩

end EventProcessing
