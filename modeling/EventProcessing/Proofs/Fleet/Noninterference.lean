import EventProcessing.Proofs.Fleet.Pairs

namespace EventProcessing.Fleet

variable {ι σ : Type} {τ : ι → Type} (fleet : Fleet ι σ) (part : (i : ι) → σ → τ i) (i : ι)

structure Still (s s' : System σ) : Prop where
  shared : s'.shared = s.shared
  buses : s'.buses = s.buses
  tokens : s'.tokens = s.tokens
  hasRuntime : s'.hasRuntime = s.hasRuntime
  chain : (s'.processor (fleet.id i)).chain = (s.processor (fleet.id i)).chain

structure Twins (pairs : List (ℕ × ℕ)) (c d : Stage ι σ) : Prop where
  alike : fleet.Alike part i c.system d.system
  paired : fleet.Paired i pairs c.system d.system
  crew : c.crew i = pairs.map Prod.fst
  crew' : d.crew i = pairs.map Prod.snd
  seen : c.seen i = d.seen i

variable {fleet part i} {depth : ℕ} {pairs : List (ℕ × ℕ)} {s s' r r' : System σ}

lemma Alike.still (h : fleet.Alike part i s r) (hs : fleet.Still i s s')
    (hr : fleet.Still i r r') : fleet.Alike part i s' r' := by
  constructor
  case same =>
    refine ⟨?_, fun bus => ?_⟩
    · rw [hs.shared, hr.shared, h.same.part]
    · have hbus := h.same.buses bus
      rwa [System.bus, System.bus, ← hs.buses, ← hr.buses] at hbus
  case memory =>
    have hmemory := h.memory
    unfold TrackingProcessor.memory System.tokenMemory at hmemory ⊢
    rwa [hs.tokens, hr.tokens]
  case hasRuntime => rw [hs.hasRuntime, hr.hasRuntime, h.hasRuntime]
  case chain => rw [hs.chain, hr.chain, h.chain]
  case obeys =>
    rw [hs.chain]
    exact h.obeys

lemma still_pruned : fleet.Still i s ((fleet.processor i).pruned s) :=
  ⟨rfl, rfl, rfl, rfl, by rw [processor_pruned]⟩

lemma still_halted (told : List ℕ) : fleet.Still i s ((fleet.processor i).halted told s) :=
  ⟨rfl, rfl, rfl, rfl, by rw [processor_halted]⟩

lemma still_hired {segments : List Segment} {ids : List ℕ} {f : Segment → SegmentWork σ}
    {line : TraceLine} {state : ProcessorState σ} (h : Processor.Spawns f segments ids s s')
    (hc : state.chain = (s.processor (fleet.id i)).chain) :
    fleet.Still i s ((s'.addTrace line).setProcessor (fleet.id i) state) :=
  ⟨h.shared, h.buses, h.tokens, h.hasRuntime, by rw [System.processor_setProcessor, hc]⟩

lemma hired_of_none {new : List ℕ} (hw : (s.processor (fleet.id i)).workers = none)
    (hw' : (s'.processor (fleet.id i)).workers = some new) : fleet.hired i s s' = new := by
  unfold hired
  rw [hw, hw']
  rfl

lemma workers_of_claims {claimed : Except Failure (List Segment)}
    (h : (fleet.tracking i).claimSegments depth ((fleet.processor i).pruned s) =
      some (claimed, s')) :
    (s'.processor (fleet.id i)).workers = (s.processor (fleet.id i)).workers := by
  rw [(TrackingProcessor.calm_claimSegments _ _ _ _ _ h).processor_eq, processor_pruned]

lemma exists_claims (hp : fleet.Private part) (ha : fleet.Alike part i s r)
    (hpair : fleet.Paired i pairs s r) {claimed : Except Failure (List Segment)}
    (h : (fleet.tracking i).claimSegments depth ((fleet.processor i).pruned s) =
      some (claimed, s')) :
    ∃ r', (fleet.tracking i).claimSegments depth ((fleet.processor i).pruned r) =
        some (claimed, r') ∧
      fleet.Alike part i s' r' ∧ fleet.Paired i pairs s' r' := by
  obtain ⟨r', h', ha'⟩ :=
    (mirrors_claimSegments hp).follows (ha.still still_pruned still_pruned) h
  exact ⟨r', h', ha', hpair.pruned.calm (TrackingProcessor.calm_claimSegments _ _ _ _ _ h)
    (TrackingProcessor.calm_claimSegments _ _ _ _ _ h')⟩

lemma exists_start (hp : fleet.Private part) (ha : fleet.Alike part i s r)
    (hpair : fleet.Paired i pairs s r) {outcome : Outcome}
    (h : (fleet.processor i).start depth s = some (outcome, s')) :
    ∃ r' new, (fleet.processor i).start depth r = some (outcome, r') ∧
      fleet.hired i s s' = new.map Prod.fst ∧ fleet.hired i r r' = new.map Prod.snd ∧
      fleet.Alike part i s' r' ∧ fleet.Paired i (pairs ++ new) s' r' := by
  rw [start_eq] at h ⊢
  cases Processor.begins_of_startTracking h with
  | noRuntime hr =>
    exact ⟨r, [], Processor.startTracking_of_noRuntime (ha.hasRuntime ▸ hr),
      hired_of_workers_eq rfl, hired_of_workers_eq rfl, ha, by rwa [List.append_nil]⟩
  | running hr hw =>
    exact ⟨r, [], Processor.startTracking_of_running (ha.hasRuntime ▸ hr)
      (hpair.isSome_workers.symm.trans hw), hired_of_workers_eq rfl, hired_of_workers_eq rfl, ha,
      by rwa [List.append_nil]⟩
  | stillStopping hr hw hk =>
    refine ⟨_, [], Processor.startTracking_of_kept (ha.hasRuntime ▸ hr) (hpair.workers_eq_none hw)
      (hpair.kept_eq_nil_iff.not.mp hk), hired_of_workers_eq ?_, hired_of_workers_eq ?_,
      ha.still still_pruned still_pruned, ?_⟩
    · rw [processor_pruned]
    · rw [processor_pruned]
    · rw [List.append_nil]
      exact hpair.pruned
  | refused hr hw hk hc =>
    obtain ⟨r', hc', ha', hpair'⟩ := exists_claims hp ha hpair hc
    exact ⟨r', [], Processor.startTracking_of_refused (ha.hasRuntime ▸ hr)
      (hpair.workers_eq_none hw) (hpair.kept_eq_nil_iff.mp hk) hc',
      hired_of_workers_eq (workers_of_claims hc), hired_of_workers_eq (workers_of_claims hc'), ha',
      by rwa [List.append_nil]⟩
  | @hired segments ids ready done line hr hw hk hc hs =>
    obtain ⟨ready', hc', ha', hpair'⟩ := exists_claims hp ha hpair hc
    obtain ⟨ids', done', line', hs', hstart⟩ := Processor.startTracking_of_claimed
      (ha.hasRuntime ▸ hr) (hpair.workers_eq_none hw) (hpair.kept_eq_nil_iff.mp hk) hc'
    have hdone : done.processor (fleet.processor i).self.id = ready.processor (fleet.id i) :=
      hs.processor_eq _
    have hdone' : done'.processor (fleet.processor i).self.id = ready'.processor (fleet.id i) :=
      hs'.processor_eq _
    refine ⟨_, Paired.next ready ready' segments.length, hstart, ?_, ?_, ?_, ?_⟩
    · rw [Paired.fst_next, ← hs.ids]
      exact hired_of_none hw (congrArg ProcessorState.workers (System.processor_setProcessor _ _ _))
    · rw [Paired.snd_next, ← hs'.ids]
      exact hired_of_none (hpair.workers_eq_none hw)
        (congrArg ProcessorState.workers (System.processor_setProcessor _ _ _))
    · exact ha'.still (still_hired hs (by rw [hdone])) (still_hired hs' (by rw [hdone']))
    · exact hpair'.hired hs hs' rfl rfl (by rw [hdone]) (by rw [hdone'])

lemma exists_shutDown (ha : fleet.Alike part i s r) (hpair : fleet.Paired i pairs s r)
    {outcome : Outcome} (h : (fleet.processor i).shutDown depth s = some (outcome, s')) :
    ∃ r', (fleet.processor i).shutDown depth r = some (outcome, r') ∧
      fleet.Alike part i s' r' ∧ fleet.Paired i pairs s' r' := by
  rw [shutDown_eq] at h ⊢
  obtain ⟨running, hsub, hs, hr⟩ := hpair.running
  rw [hs] at h
  rw [hr]
  cases running with
  | none =>
    cases h
    exact ⟨r, rfl, ha, hpair⟩
  | some told =>
    cases h
    exact ⟨_, rfl, ha.still (still_halted _) (still_halted _), hpair.halted (hsub told rfl)⟩

lemma exists_attempt (hp : fleet.Private part) (ha : fleet.Alike part i s r)
    (hpair : fleet.Paired i pairs s r) {segment : Segment} {processed : Bool}
    (h : Schedule.attempt (fleet.work i segment) depth s = some (processed, s')) :
    ∃ r', Schedule.attempt (fleet.work i segment) depth r = some (processed, r') ∧
      fleet.Alike part i s' r' ∧ fleet.Paired i pairs s' r' := by
  obtain ⟨result, middle, hs, h⟩ := Run.bind_eq_some.mp h
  obtain ⟨middle', hr, hmiddle⟩ := (mirrors_step hp segment).follows ha hs
  have hpairs : fleet.Paired i pairs middle middle' :=
    hpair.calm (SegmentWork.calm_step _ _ _ _ _ hs) (SegmentWork.calm_step _ _ _ _ _ hr)
  cases result with
  | error failure =>
    cases h
    refine ⟨_, Run.bind_eq_some.mpr ⟨_, _, hr, rfl⟩, ?_, ?_⟩
    · exact hmiddle.still ⟨rfl, rfl, rfl, rfl, rfl⟩ ⟨rfl, rfl, rfl, rfl, rfl⟩
    · exact hpairs.congr rfl rfl le_rfl le_rfl rfl rfl
  | ok _ =>
    cases h
    exact ⟨_, Run.bind_eq_some.mpr ⟨_, _, hr, rfl⟩, hmiddle, hpairs⟩

section Account

variable (hp : fleet.Private part) (ha : fleet.Alike part i s r) {segment : Segment}

include hp ha

lemma exists_fetch {fetched : Except Failure (Option Token)}
    (h : (fleet.work i segment).fetch depth s = some (fetched, s')) :
    ∃ r', (fleet.work i segment).fetch depth r = some (fetched, r') ∧ fleet.Alike part i s' r' :=
  (mirrors_fetch hp _).follows ha h

lemma exists_reads {token : Option Token} {batch : List TrackedEvent} {start : System σ}
    (h : (fleet.work i segment).Reads depth s token batch start) :
    ∃ start', (fleet.work i segment).Reads depth r token batch start' ∧
      fleet.Alike part i start start' := by
  obtain ⟨middle, hf, hr⟩ := h
  obtain ⟨middle', hf', ha'⟩ := exists_fetch hp ha hf
  obtain ⟨start', hr', hstart⟩ := (mirrors_read hp _ _).follows ha' hr
  exact ⟨start', ⟨middle', hf', hr'⟩, hstart⟩

lemma notes_eq (token : Option Token) (batch : List TrackedEvent) (result : Except Failure Bool) :
    Attempt.notes ⟨fleet.work i segment, depth, token, batch, s, result⟩ =
      Attempt.notes ⟨fleet.work i segment, depth, token, batch, r, result⟩ := by
  obtain ⟨outcome, _, _, notes, hs, hr, -⟩ := (hp.pipeline i).watched ha.obeys
    (batch.map TrackedEvent.message) segment depth s r [] ha.same
  rw [ha.chain] at hr
  rw [Attempt.notes_eq hs, Attempt.notes_eq hr]

variable {result : Except Failure Bool}

lemma account_of_reads {token : Option Token} {batch : List TrackedEvent} {start : System σ}
    (hb : batch ≠ []) (h : (fleet.work i segment).Reads depth s token batch start) :
    ((fleet.work i segment).attempt? depth s result).map Attempt.account =
      ((fleet.work i segment).attempt? depth r result).map Attempt.account := by
  obtain ⟨start', h', hstart⟩ := exists_reads hp ha h
  rw [attempt?_of_reads h hb, attempt?_of_reads h' hb, Option.map_some, Option.map_some,
    Attempt.account, Attempt.account, notes_eq hp hstart]

lemma account_eq (h : (fleet.work i segment).step depth s = some (result, s')) :
    ((fleet.work i segment).attempt? depth s result).map Attempt.account =
      ((fleet.work i segment).attempt? depth r result).map Attempt.account := by
  cases SegmentWork.steps_of_step h with
  | unfetched hf =>
    obtain ⟨_, hf', -⟩ := exists_fetch hp ha hf
    rw [attempt?_of_unfetched hf, attempt?_of_unfetched hf']
  | unread hf hr =>
    obtain ⟨_, hf', ha'⟩ := exists_fetch hp ha hf
    obtain ⟨_, hr', -⟩ := (mirrors_read hp _ _).follows ha' hr
    rw [attempt?_of_unread hf hr, attempt?_of_unread hf' hr']
  | idle hr =>
    obtain ⟨_, hr', -⟩ := exists_reads hp ha hr
    rw [attempt?_of_idle hr, attempt?_of_idle hr']
  | failed hr hb hd => exact account_of_reads hp ha hb hr
  | unstored hr hl hd hs | stored hr hl hd hs =>
    exact account_of_reads hp ha (SegmentWork.ne_nil_of_headToken? hl) hr

end Account

section Stages

variable {c c' d : Stage ι σ} {operation : Operation ι}

lemma worker?_eq {f : ℕ × ℕ → ℕ} (h : c.crew i = pairs.map f) (place : ℕ) :
    c.worker? i place = pairs[place]?.bind fun e =>
      (c.system.workers.get? (f e)).map fun worker => (f e, worker) := by
  unfold Stage.worker?
  rw [h, List.getElem?_map]
  cases pairs[place]? with
  | none => rfl
  | some e =>
    cases hw : c.system.workers.get? (f e) with
    | none => simp [hw]
    | some worker => simp [hw]

lemma worker?_cases {f : ℕ × ℕ → ℕ} (h : c.crew i = pairs.map f) {place id : ℕ}
    {worker : Worker σ} (hw : c.worker? i place = some (id, worker)) :
    ∃ e, pairs[place]? = some e ∧ id = f e ∧ c.system.workers.get? (f e) = some worker := by
  rw [worker?_eq h] at hw
  obtain ⟨e, he, hw⟩ := Option.bind_eq_some_iff.mp hw
  obtain ⟨found, hfound, hw⟩ := Option.map_eq_some_iff.mp hw
  cases hw
  exact ⟨e, he, rfl, hfound⟩

namespace Twins

variable (h : fleet.Twins part i pairs c d)

include h

lemma exists_worker {place id : ℕ} {worker : Worker σ}
    (hw : c.worker? i place = some (id, worker)) :
    ∃ e ∈ pairs, id = e.1 ∧ c.system.workers.get? e.1 = some worker ∧
      d.system.workers.get? e.2 = some worker ∧ d.worker? i place = some (e.2, worker) := by
  obtain ⟨e, he, rfl, hs⟩ := worker?_cases h.crew hw
  have hmem := List.mem_of_getElem? he
  have hr := (h.paired.workers e hmem).symm.trans hs
  refine ⟨e, hmem, rfl, hs, hr, ?_⟩
  rw [worker?_eq h.crew', he, Option.bind_some, hr]
  rfl

lemma idle {place : ℕ}
    (hidle : ∀ id worker, c.worker? i place = some (id, worker) → worker.finished = true)
    (id : ℕ) (worker : Worker σ) (hw : d.worker? i place = some (id, worker)) :
    worker.finished = true := by
  obtain ⟨e, he, rfl, hr⟩ := worker?_cases h.crew' hw
  have hs := (h.paired.workers e (List.mem_of_getElem? he)).trans hr
  refine hidle e.1 worker ?_
  rw [worker?_eq h.crew, he, Option.bind_some, hs]
  rfl

variable [DecidableEq ι] (hp : fleet.Private part) (hm : fleet.Manned part c)

include hp hm

lemma aside {j : ι} (hc : fleet.Performs depth c operation c') (hj : operation.owner = some j)
    (hi : i ≠ j) : fleet.Twins part i pairs c' d := by
  have hturns := hm.turns hp hc hj
  have hconfined := hturns.confined
  have hstate := hconfined.states i hi
  constructor
  case alike =>
    constructor
    case same =>
      refine ⟨?_, fun bus => ?_⟩
      · rw [hconfined.parts i hi, h.alike.same.part]
      · rw [hconfined.buses, h.alike.same.buses]
    case memory => rw [hconfined.memory i hi, h.alike.memory]
    case hasRuntime => rw [hconfined.hasRuntime, h.alike.hasRuntime]
    case chain => rw [hstate, h.alike.chain]
    case obeys =>
      rw [hstate]
      exact h.alike.obeys
  case paired =>
    constructor
    case workers =>
      intro e he
      have hid : e.1 ∈ c.crew i := by
        rw [h.crew]
        exact List.mem_map_of_mem he
      obtain ⟨worker, segment, hw, hwork⟩ := (hm.crew i).work e.1 hid
      rw [hconfined.workers e.1 worker (h.paired.fresh e he).1 hw
        (by rw [hwork]; exact fleet.id_ne hi), ← h.paired.workers e he, hw]
    case apart => exact h.paired.apart
    case fresh =>
      exact fun e he => ⟨(h.paired.fresh e he).1.trans_le hconfined.nextId,
        (h.paired.fresh e he).2⟩
    case running =>
      rw [hstate]
      exact h.paired.running
    case stopping =>
      rw [hstate]
      exact h.paired.stopping
  case crew => rw [hturns.crew i hi, h.crew]
  case crew' => exact h.crew'
  case seen => rw [hturns.seen i hi, h.seen]

omit hp

lemma published {bus : BusId} {events : List EventMessage}
    (hc : fleet.Performs depth c (.publish bus events) c') :
    ∃ d', fleet.Performs depth d (.publish bus events) d' ∧ fleet.Twins part i pairs c' d' := by
  cases hc with
  | @published _ _ outcome s hs =>
  obtain ⟨_, _, hs', hparts, hbuses⟩ := exists_publish (hm.subscribers bus) (depth_of_publish hs)
  rw [hs] at hs'
  cases hs'
  have hsame := h.alike.same
  have hsubscribers := hm.subscribers bus
  have hdepth := depth_of_publish hs
  rw [hsame.buses] at hsubscribers hdepth
  obtain ⟨_, r, hr, hparts', hbuses'⟩ := exists_publish hsubscribers hdepth
  have hframe := System.frame_run hs
  have hframe' := System.frame_run hr
  have hcalm := System.admits_calm.of_run hs
  have hcalm' := System.admits_calm.of_run hr
  refine ⟨_, .published hr, ?_, h.paired.calm hcalm hcalm', h.crew, h.crew', h.seen⟩
  constructor
  case same =>
    refine ⟨?_, fun other => ?_⟩
    · rw [hparts, hparts', hsame.part]
    · rw [hbuses, hbuses', hsame.buses]
      by_cases hb : other = bus
      · rw [hb, System.bus_setBus_self, System.bus_setBus_self]
      · rw [System.bus_setBus_of_ne _ _ hb, System.bus_setBus_of_ne _ _ hb, hsame.buses]
  case memory =>
    rw [TrackingProcessor.memory_eq_of_frame hframe, h.alike.memory,
      TrackingProcessor.memory_eq_of_frame hframe']
  case hasRuntime => rw [hframe.hasRuntime, h.alike.hasRuntime, hframe'.hasRuntime]
  case chain => rw [hcalm.processor_eq, h.alike.chain, hcalm'.processor_eq]
  case obeys =>
    rw [hcalm.processor_eq]
    exact h.alike.obeys

include hp

lemma own (hc : fleet.Performs depth c operation c') (ho : operation.owner = some i) :
    ∃ d' pairs', fleet.Performs depth d operation d' ∧ fleet.Twins part i pairs' c' d' := by
  cases hc with
  | published => cases ho
  | started hs =>
    cases ho
    obtain ⟨r, new, hr, hnew, hnew', ha, hpair⟩ := exists_start hp h.alike h.paired hs
    refine ⟨_, pairs ++ new, .started hr, ha, hpair, ?_, ?_, ?_⟩
    · dsimp only
      rw [Function.update_self, h.crew, hnew, List.map_append]
    · dsimp only
      rw [Function.update_self, h.crew', hnew', List.map_append]
    · dsimp only
      rw [Function.update_self, Function.update_self, h.seen]
  | stopped hs =>
    cases ho
    obtain ⟨r, hr, ha, hpair⟩ := exists_shutDown h.alike h.paired hs
    refine ⟨_, pairs, .stopped hr, ha, hpair, h.crew, h.crew', ?_⟩
    dsimp only
    rw [Function.update_self, Function.update_self, h.seen]
  | idle hidle =>
    cases ho
    exact ⟨d, pairs, .idle (h.idle hidle), h⟩
  | ended hw hf he hs =>
    cases ho
    obtain ⟨e, hmem, rfl, hc, hd, hw'⟩ := h.exists_worker hw
    rw [Schedule.finish_eq hc] at hs
    cases hs
    refine ⟨_, pairs, .ended hw' hf he (Schedule.finish_eq hd), ?_, h.paired.finished hmem _ _,
      h.crew, h.crew', h.seen⟩
    exact h.alike.still ⟨rfl, rfl, rfl, rfl, rfl⟩ ⟨rfl, rfl, rfl, rfl, rfl⟩
  | stepped hw hf he hs hattempt =>
    cases ho
    obtain ⟨e, hmem, rfl, hc, -, hw'⟩ := h.exists_worker hw
    have hid : e.1 ∈ c.crew i := (mem_crew hw).1
    obtain ⟨worker, segment, hworker, hwork⟩ := (hm.crew i).work e.1 hid
    rw [hc] at hworker
    cases hworker
    rw [hwork] at hs hattempt
    obtain ⟨_, hr, -⟩ := (mirrors_step hp segment).follows h.alike hs
    obtain ⟨r, hattempt', ha, hpair⟩ := exists_attempt hp h.alike h.paired hattempt
    rw [← hwork] at hr hattempt'
    refine ⟨_, pairs, .stepped hw' hf he hr hattempt', ha, hpair, h.crew, h.crew', ?_⟩
    dsimp only
    rw [Function.update_self, Function.update_self, h.seen, hwork, account_eq hp h.alike hs]

lemma concerned (hc : fleet.Performs depth c operation c') (ho : operation.concerns i = true) :
    ∃ d' pairs', fleet.Performs depth d operation d' ∧ fleet.Twins part i pairs' c' d' := by
  cases hj : operation.owner with
  | none =>
    cases operation with
    | start | shutDown | step => cases hj
    | publish bus events =>
      obtain ⟨d', hd, htwins⟩ := h.published hm hc
      exact ⟨d', pairs, hd, htwins⟩
  | some j =>
    rw [Operation.concerns, hj, Option.all_some, decide_eq_true_iff] at ho
    exact h.own hp hm hc (ho ▸ hj)

lemma unconcerned (hc : fleet.Performs depth c operation c') (ho : operation.concerns i ≠ true) :
    fleet.Twins part i pairs c' d := by
  cases hj : operation.owner with
  | none => exact absurd (by rw [Operation.concerns, hj, Option.all_none]) ho
  | some j =>
    rw [Operation.concerns, hj, Option.all_some, Ne, decide_eq_true_iff] at ho
    exact h.aside hp hm hc hj (Ne.symm ho)

end Twins

lemma twins_of_run [DecidableEq ι] (hp : fleet.Private part) {operations : List (Operation ι)}
    (h : fleet.Twins part i pairs c d) (hm : fleet.Manned part c)
    (hrun : fleet.run depth operations c = some c') :
    ∃ d' pairs', fleet.run depth (operations.filter (Operation.concerns i)) d = some d' ∧
      fleet.Twins part i pairs' c' d' := by
  induction operations generalizing c d pairs with
  | nil =>
    cases hrun
    exact ⟨d, pairs, rfl, h⟩
  | cons operation rest ih =>
    rw [run_cons] at hrun
    obtain ⟨middle, hperform, hrest⟩ := Option.bind_eq_some_iff.mp hrun
    have hperforms := performs_of_perform hperform
    have hmanned := hm.performs hp hperforms
    by_cases hconcerns : operation.concerns i = true
    · obtain ⟨next, _, hd, htwins⟩ := h.concerned hp hm hperforms hconcerns
      obtain ⟨d', pairs', hrun', htwins'⟩ := ih htwins hmanned hrest
      refine ⟨d', pairs', ?_, htwins'⟩
      rw [List.filter_cons_of_pos hconcerns, run_cons, perform_of_performs hd, Option.bind_some,
        hrun']
    · rw [List.filter_cons_of_neg hconcerns]
      exact ih (h.unconcerned hp hm hperforms hconcerns) hmanned hrest

end Stages

section Answers

variable {ids : List ℕ} {c : Stage ι σ}

lemma Employed.alike (h : fleet.Employed part i ids s) : fleet.Alike part i s s :=
  ⟨⟨rfl, fun _ => rfl⟩, rfl, rfl, rfl, h.chain⟩

lemma Employed.start_answers (h : fleet.Employed part i ids s) (hp : fleet.Private part)
    (depth : ℕ) : ∃ outcome s', (fleet.processor i).start depth s = some (outcome, s') := by
  rw [start_eq]
  cases hr : s.hasRuntime with
  | false => exact ⟨_, _, Processor.startTracking_of_noRuntime hr⟩
  | true =>
  cases hw : (s.processor (fleet.id i)).workers with
  | some running =>
    exact ⟨_, _, Processor.startTracking_of_running hr (congrArg Option.isSome hw)⟩
  | none =>
  by_cases hk : (fleet.processor i).kept s = []
  · obtain ⟨claimed, ready, _, hc, -⟩ := mirrors_claimSegments hp depth _ _
      (h.alike.still still_pruned still_pruned)
    cases claimed with
    | error failure => exact ⟨_, _, Processor.startTracking_of_refused hr hw hk hc⟩
    | ok segments =>
      obtain ⟨ids, hired, line, -, hstart⟩ := Processor.startTracking_of_claimed hr hw hk hc
      exact ⟨_, _, hstart⟩
  · exact ⟨_, _, Processor.startTracking_of_kept hr hw hk⟩

lemma Employed.step_answers (h : fleet.Employed part i ids s) (hp : fleet.Private part)
    (depth : ℕ) {id : ℕ} (hid : id ∈ ids) {worker : Worker σ}
    (hw : s.workers.get? id = some worker) :
    ∃ result middle, worker.work.step depth s = some (result, middle) := by
  obtain ⟨other, segment, ho, hwork⟩ := h.work id hid
  rw [hw] at ho
  cases ho
  obtain ⟨result, middle, _, hs, -⟩ := mirrors_step hp segment depth s s h.alike
  exact ⟨result, middle, by rwa [hwork]⟩

lemma attempt_answers {work : SegmentWork σ} {result : Except Failure Bool}
    (h : work.step depth s = some (result, s')) :
    ∃ processed s'', Schedule.attempt work depth s = some (processed, s'') := by
  cases result with
  | error failure => exact ⟨_, _, Run.bind_eq_some.mpr ⟨_, _, h, rfl⟩⟩
  | ok processed => exact ⟨_, _, Run.bind_eq_some.mpr ⟨_, _, h, rfl⟩⟩

variable [DecidableEq ι]

lemma Manned.exists_performs (hm : fleet.Manned part c) (hp : fleet.Private part)
    (operation : Operation ι) : ∃ c', fleet.Performs (depth + 1) c operation c' := by
  cases operation with
  | publish bus events =>
    obtain ⟨_, _, h, -⟩ := exists_publish (hm.subscribers bus) fun h => absurd h depth.succ_ne_zero
    exact ⟨_, .published h⟩
  | start i =>
    obtain ⟨_, _, h⟩ := (hm.crew i).start_answers hp (depth + 1)
    exact ⟨_, .started h⟩
  | shutDown i => exact ⟨_, .stopped (shutDown_eq i)⟩
  | step i place =>
    by_cases hidle : ∀ id worker, c.worker? i place = some (id, worker) → worker.finished = true
    · exact ⟨c, .idle hidle⟩
    · simp only [not_forall] at hidle
      obtain ⟨id, worker, hw, hf⟩ := hidle
      rw [Bool.not_eq_true] at hf
      obtain ⟨hid, hworker⟩ := mem_crew hw
      cases he : worker.mustEnd with
      | true => exact ⟨_, .ended hw hf he (Schedule.finish_eq hworker)⟩
      | false =>
        obtain ⟨_, _, hs⟩ := (hm.crew i).step_answers hp (depth + 1) hid hworker
        obtain ⟨_, _, hattempt⟩ := attempt_answers hs
        exact ⟨_, .stepped hw hf he hs hattempt⟩

lemma Manned.exists_run (hm : fleet.Manned part c) (hp : fleet.Private part)
    (operations : List (Operation ι)) : ∃ c', fleet.run (depth + 1) operations c = some c' := by
  induction operations generalizing c with
  | nil => exact ⟨c, rfl⟩
  | cons operation rest ih =>
    obtain ⟨middle, hperforms⟩ := hm.exists_performs hp operation
    obtain ⟨c', hrest⟩ := ih (hm.performs hp hperforms)
    exact ⟨c', by rw [run_cons, perform_of_performs hperforms, Option.bind_some, hrest]⟩

end Answers

variable (fleet part)

structure Unstarted (s : System σ) : Prop where
  workers : ∀ i, (s.processor (fleet.id i)).workers = none
  stopping : ∀ i, (s.processor (fleet.id i)).stopping = []
  chain : ∀ i, ∀ interceptor ∈ (s.processor (fleet.id i)).chain, interceptor.Obeys (.own part i)
  subscribers : ∀ bus, ∀ subscriber ∈ (s.bus bus).subscribers, subscriber.Neutral part

variable {fleet part}

lemma Unstarted.manned (h : fleet.Unstarted part s) : fleet.Manned part (Stage.start s) where
  crew i := by
    refine ⟨fun id hid => ?_, fun id hid => ?_, fun running hr => ?_, h.chain i⟩
    · cases hid
    · cases hid
    · rw [Stage.start, h.workers i] at hr
      cases hr
  subscribers := h.subscribers

lemma Unstarted.twins (h : fleet.Unstarted part s) (i : ι) :
    fleet.Twins part i [] (Stage.start s) (Stage.start s) where
  alike := ⟨⟨rfl, fun _ => rfl⟩, rfl, rfl, rfl, h.chain i⟩
  paired := by
    refine ⟨fun e he => ?_, fun e he => ?_, fun e he => ?_, ⟨none, ?_, h.workers i, h.workers i⟩,
      ⟨[], List.Subset.refl _, h.stopping i, h.stopping i⟩⟩
    · cases he
    · cases he
    · cases he
    · exact fun _ h => by cases h
  crew := rfl
  crew' := rfl
  seen := rfl

/-- Whatever becomes of a fleet, what is seen of a processor and what is stored for it are the same
when the starts, the shutdowns and the steps of all others are left out. -/
theorem tracking_processors_do_not_interfere [DecidableEq ι] (hp : fleet.Private part)
    (hs : fleet.Unstarted part s) (depth : ℕ) (operations : List (Operation ι)) (i : ι) :
    ∃ c d, fleet.run (depth + 1) operations (Stage.start s) = some c ∧
      fleet.run (depth + 1) (operations.filter (Operation.concerns i)) (Stage.start s) = some d ∧
      c.seen i = d.seen i ∧
      ∀ k, (fleet.tracking i).position? c.system k = (fleet.tracking i).position? d.system k := by
  obtain ⟨c, hc⟩ := hs.manned.exists_run hp operations
  obtain ⟨d, pairs, hd, htwins⟩ := twins_of_run hp (hs.twins i) hs.manned hc
  exact ⟨c, d, hc, hd, htwins.seen, htwins.alike.get?_eq⟩

end EventProcessing.Fleet

namespace EventProcessing

namespace Sample

def counting (i : Bool) : EventHandler (Bool → ℕ) where
  label := "handler"
  typeName := "Handler"
  package := ""
  declaredGroup := none
  tag := .null
  canHandle _ := true
  handle _ _ := do
    Program.modify fun counts => Function.update counts i (counts i + 1)
    return .ok ()

def counter (i : Bool) : Pipeline (Bool → ℕ) where
  name := if i then "second" else "first"
  invoker := .group ⟨[counting i], .propagating 0, .sequential 0⟩
  errorHandler := .propagating 0
  rollback := .anyError 0
  transactions := .none 0
  monitor := .silent

def trackingCounter (i : Bool) : TrackingProcessor (Bool → ℕ) where
  pipeline := counter i
  source := .ofBus 0
  tokens := .inMemory 0
  settings := {}

def counters : Fleet Bool (Bool → ℕ) where
  processor i := ⟨⟨i.toNat, "sample"⟩, (counter i).name, .tracking (trackingCounter i)⟩
  tracking := trackingCounter
  kind _ := rfl
  selves := by decide
  names := by decide

def counts (i : Bool) (shared : Bool → ℕ) : ℕ := shared i

lemma counting_obeys (i : Bool) (event : EventMessage) (unit : UnitOfWork) :
    (ProgramLogic.own (fun i => counts i) i).Runs ((counting i).handle event unit) := by
  intro depth s r hsame
  refine ⟨.ok (), _, _, rfl, rfl, ⟨?_, hsame.buses⟩, ⟨fun j hj => ?_, fun _ => rfl⟩, trivial⟩
  · have hpart : s.shared i = r.shared i := hsame.part
    simp [counts, hpart]
  · simp [counts, hj]

lemma counters_private : counters.Private fun i => counts i where
  pipeline i := by
    constructor
    case start => exact ProgramLogic.pure _ ⟨ProgramLogic.runs_pure _, ProgramLogic.runs_pure _⟩
    case ingest =>
      exact fun _ => ProgramLogic.pure _ ⟨ProgramLogic.runs_pure _,
        fun _ => ProgramLogic.runs_pure _, ProgramLogic.runs_pure _⟩
    case invoker =>
      constructor
      case handle =>
        intro handler hm event unit
        obtain rfl := List.mem_singleton.mp hm
        exact counting_obeys i event unit
      case onError => exact fun _ _ _ _ => ProgramLogic.runs_pure _
    case weigh => exact fun _ => ProgramLogic.runs_pure _
    case consult => exact fun _ => ProgramLogic.runs_pure _
  source _ := ProgramLogic.runs_pure _
  tokens _ _ := ProgramLogic.runs_pure _

lemma counters_unstarted : counters.Unstarted (fun i => counts i) { shared := fun _ => 0 } :=
  ⟨fun _ => rfl, fun _ => rfl, fun _ _ h => (by cases h), fun _ _ h => (by cases h)⟩

end Sample

theorem sample_counters_do_not_interfere : ∃ c d,
    Sample.counters.run 1 [.start true, .start false, .publish 0 [Sample.event "first"],
      .step false 0, .step true 0, .shutDown false] (Stage.start { shared := fun _ => 0 }) =
        some c ∧
      Sample.counters.run 1 [.start true, .publish 0 [Sample.event "first"], .step true 0]
        (Stage.start { shared := fun _ => 0 }) = some d ∧
      c.seen true = d.seen true ∧ ∀ k, (Sample.trackingCounter true).position? c.system k =
        (Sample.trackingCounter true).position? d.system k :=
  Fleet.tracking_processors_do_not_interfere Sample.counters_private Sample.counters_unstarted 0 _
    true

end EventProcessing
