import EventProcessing.Proofs.Fleet.Sparing

namespace EventProcessing

variable {ι σ : Type} {τ : ι → Type}

/-- The subscriber answers whatever it is sent, and leaves the parts and the buses alone. -/
def Subscriber.Neutral (part : (i : ι) → σ → τ i) (subscriber : Subscriber σ) : Prop :=
  ∀ depth events s, ∃ outcome s', System.deliver (depth + 1) subscriber events s =
    some (outcome, s') ∧ (∀ i, part i s'.shared = part i s.shared) ∧ ∀ bus, s'.bus bus = s.bus bus

namespace Fleet

variable (fleet : Fleet ι σ) (part : (i : ι) → σ → τ i)

structure Employed (i : ι) (ids : List ℕ) (s : System σ) : Prop where
  work : ∀ id ∈ ids, ∃ worker segment, s.workers.get? id = some worker ∧
    worker.work = fleet.work i segment
  fresh : ∀ id ∈ ids, id < s.nextId
  running : ∀ running, (s.processor (fleet.id i)).workers = some running → ∀ id ∈ running, id ∈ ids
  chain : ∀ interceptor ∈ (s.processor (fleet.id i)).chain, interceptor.Obeys (.own part i)

structure Manned (c : Stage ι σ) : Prop where
  crew : ∀ i, fleet.Employed part i (c.crew i) c.system
  subscribers : ∀ bus, ∀ subscriber ∈ (c.system.bus bus).subscribers, subscriber.Neutral part

variable {fleet part} {i j : ι} {ids : List ℕ} {depth : ℕ} {s s' : System σ}

lemma Employed.spared (h : fleet.Employed part i ids s) (hc : fleet.Confined part j s s')
    (hne : i ≠ j) : fleet.Employed part i ids s' := by
  have hstate := hc.states i hne
  constructor
  case work =>
    intro id hid
    obtain ⟨worker, segment, hw, hwork⟩ := h.work id hid
    refine ⟨worker, segment, hc.workers id worker (h.fresh id hid) hw ?_, hwork⟩
    rw [hwork]
    exact fleet.id_ne hne
  case fresh => exact fun id hid => (h.fresh id hid).trans_le hc.nextId
  case running => rw [hstate]; exact h.running
  case chain => rw [hstate]; exact h.chain

lemma Employed.congr (h : fleet.Employed part i ids s) (hw : s'.workers = s.workers)
    (hn : s.nextId ≤ s'.nextId)
    (hs : (s'.processor (fleet.id i)).workers = (s.processor (fleet.id i)).workers)
    (hc : (s'.processor (fleet.id i)).chain = (s.processor (fleet.id i)).chain) :
    fleet.Employed part i ids s' := by
  constructor
  case work => rw [hw]; exact h.work
  case fresh => exact fun id hid => (h.fresh id hid).trans_le hn
  case running => rw [hs]; exact h.running
  case chain => rw [hc]; exact h.chain

lemma Employed.calm (h : fleet.Employed part i ids s) (hc : System.Calm s s') :
    fleet.Employed part i ids s' :=
  h.congr hc.workers hc.nextId (by rw [hc.processor_eq]) (by rw [hc.processor_eq])

lemma start_eq (i : ι) : (fleet.processor i).start =
    (fleet.processor i).startTracking (fleet.tracking i) := by
  unfold Processor.start
  rw [fleet.kind i]

lemma confined_spawns {segments : List Segment} {hired : List ℕ} {f : Segment → SegmentWork σ}
    (h : Processor.Spawns f segments hired s s') : fleet.Confined part j s s' where
  parts i _ := by rw [h.shared]
  buses bus := by rw [System.bus, h.buses, System.bus]
  memory i _ := by rw [TrackingProcessor.memory, System.tokenMemory, h.tokens]; rfl
  hasRuntime := h.hasRuntime
  states i _ := by rw [System.processor, h.processors, System.processor]
  nextId := by rw [h.nextId]; omega
  workers id worker hid hw _ := by rw [h.old id (.inl hid), hw]

lemma confined_start (hp : fleet.Private part) {outcome : Outcome}
    (h : (fleet.processor j).start depth s = some (outcome, s')) :
    fleet.Confined part j s s' := by
  rw [start_eq] at h
  have hpruned : fleet.Confined part j s ((fleet.processor j).pruned s) := confined_setProcessor _
  cases Processor.begins_of_startTracking h with
  | noRuntime hr => exact refl s
  | running hr hw => exact refl s
  | stillStopping hr hw hk => exact hpruned
  | refused hr hw hk hc =>
    exact trans_of (fleet.Confined part j) hpruned (keeps_claimSegments hp _ _ _ _ hc)
  | @hired segments ids ready hired line hr hw hk hc hs =>
    have hclaimed := trans_of (fleet.Confined part j) hpruned (keeps_claimSegments hp _ _ _ _ hc)
    have hspawned := trans_of (fleet.Confined part j) hclaimed (confined_spawns hs)
    apply trans_of (fleet.Confined part j) hspawned
    exact trans_of (fleet.Confined part j) (confined_addTrace line) (confined_setProcessor _)

lemma processor_pruned (i : ι) : ((fleet.processor i).pruned s).processor (fleet.id i) =
    { s.processor (fleet.id i) with stopping := (fleet.processor i).kept s } :=
  System.processor_setProcessor _ _ _

lemma hired_of_workers_eq
    (h : (s'.processor (fleet.id i)).workers = (s.processor (fleet.id i)).workers) :
    fleet.hired i s s' = [] := by
  unfold hired
  rw [h]
  cases (s.processor (fleet.id i)).workers <;> rfl

lemma Employed.hired {segments : List Segment} {new : List ℕ} {ready : System σ}
    {state : ProcessorState σ} {line : TraceLine} (h : fleet.Employed part i ids ready)
    (hs : Processor.Spawns (fleet.work i) segments new ready s)
    (hw : state.workers = some new)
    (hc : state.chain = (ready.processor (fleet.id i)).chain) :
    fleet.Employed part i (ids ++ new) ((s.addTrace line).setProcessor (fleet.id i) state) := by
  have hstate : ((s.addTrace line).setProcessor (fleet.id i) state).processor (fleet.id i) =
      state := System.processor_setProcessor _ _ _
  constructor
  case work =>
    intro id hid
    rcases List.mem_append.mp hid with hid | hid
    · obtain ⟨worker, segment, hold, hwork⟩ := h.work id hid
      exact ⟨worker, segment, (hs.old id (.inl (h.fresh id hid))).trans hold, hwork⟩
    · rw [hs.ids, List.mem_range'_1] at hid
      obtain ⟨n, rfl⟩ := Nat.exists_eq_add_of_le hid.1
      have hn : n < segments.length := by omega
      exact ⟨_, segments[n], hs.new n _ (List.getElem?_eq_getElem hn), rfl⟩
  case fresh =>
    intro id hid
    have hnext : ((s.addTrace line).setProcessor (fleet.id i) state).nextId =
        ready.nextId + segments.length := hs.nextId
    rcases List.mem_append.mp hid with hid | hid
    · have hlt := h.fresh id hid
      omega
    · rw [hs.ids, List.mem_range'_1] at hid
      omega
  case running =>
    rw [hstate, hw]
    rintro _ ⟨⟩ id hid
    exact List.mem_append_right ids hid
  case chain =>
    rw [hstate, hc]
    exact h.chain

lemma Employed.start (h : fleet.Employed part i ids s) {outcome : Outcome}
    (hrun : (fleet.processor i).start depth s = some (outcome, s')) :
    fleet.Employed part i (ids ++ fleet.hired i s s') s' := by
  rw [start_eq] at hrun
  have hself : ((fleet.processor i).pruned s).processor (fleet.id i) =
    { s.processor (fleet.id i) with stopping := (fleet.processor i).kept s } := processor_pruned i
  have hpruned : fleet.Employed part i ids ((fleet.processor i).pruned s) :=
    h.congr rfl le_rfl (by rw [hself]) (by rw [hself])
  cases Processor.begins_of_startTracking hrun with
  | noRuntime hr => rwa [hired_of_workers_eq rfl, List.append_nil]
  | running hr hw => rwa [hired_of_workers_eq rfl, List.append_nil]
  | stillStopping hr hw hk => rwa [hired_of_workers_eq (by rw [hself]), List.append_nil]
  | refused hr hw hk hc =>
    have hcalm := TrackingProcessor.calm_claimSegments _ _ _ _ _ hc
    rw [hired_of_workers_eq (by rw [hcalm.processor_eq, hself]), List.append_nil]
    exact hpruned.calm hcalm
  | @hired segments new ready done line hr hw hk hc hs =>
    have hcalm := TrackingProcessor.calm_claimSegments _ _ _ _ _ hc
    have hdone := hs.processor_eq (fleet.id i)
    have hnew : fleet.hired i s ((done.addTrace line).setProcessor (fleet.id i)
        { done.processor (fleet.id i) with workers := some new }) = new := by
      have hnone : (s.processor (fleet.id i)).workers = none := hw
      unfold Fleet.hired
      rw [hnone, System.processor_setProcessor]
      rfl
    change fleet.Employed part i (ids ++ fleet.hired i s ((done.addTrace line).setProcessor
      (fleet.id i) { done.processor (fleet.id i) with workers := some new })) _
    rw [hnew]
    have hchain : (done.processor (fleet.id i)).chain = (ready.processor (fleet.id i)).chain :=
      congrArg ProcessorState.chain hdone
    exact (hpruned.calm hcalm).hired hs rfl hchain

lemma shutDown_eq (i : ι) : (fleet.processor i).shutDown depth s =
    some (.ok (), (s.processor (fleet.id i)).workers.elim s
      fun told => (fleet.processor i).halted told s) := by
  unfold Processor.shutDown
  rw [fleet.kind i]
  exact Processor.shutDownTracking_eq

lemma processor_halted (i : ι) (told : List ℕ) :
    ((fleet.processor i).halted told s).processor (fleet.id i) = { s.processor (fleet.id i) with
      workers := none
      stopping := (s.processor (fleet.id i)).stopping ++ told } :=
  System.processor_setProcessor _ _ _

lemma Employed.confined_shutDown (h : fleet.Employed part j ids s) {outcome : Outcome}
    (hrun : (fleet.processor j).shutDown depth s = some (outcome, s')) :
    fleet.Confined part j s s' := by
  rw [shutDown_eq] at hrun
  cases hw : (s.processor (fleet.id j)).workers with
  | none =>
    rw [hw] at hrun
    cases hrun
    exact refl s
  | some told =>
    rw [hw] at hrun
    cases hrun
    refine ⟨fun _ _ => rfl, fun _ => rfl, fun _ _ => rfl, rfl, fun i hi => ?_, le_rfl, ?_⟩
    · unfold System.processor
      exact congrArg (Option.getD · _) (Table.get?_put_of_ne _ _ (fleet.id_ne hi))
    · intro id worker _ hworker hp
      have hnot : told.contains id = false := by
        by_contra hin
        rw [Bool.not_eq_false, List.contains_iff_mem] at hin
        obtain ⟨other, segment, ho, hwork⟩ := h.work id (h.running told hw id hin)
        rw [hworker] at ho
        cases ho
        exact hp (by rw [hwork]; rfl)
      refine (get?_wake_eq _ told id).trans ?_
      rw [hworker, hnot]
      rfl

lemma Employed.shutDown (h : fleet.Employed part i ids s) {outcome : Outcome}
    (hrun : (fleet.processor i).shutDown depth s = some (outcome, s')) :
    fleet.Employed part i ids s' := by
  rw [shutDown_eq] at hrun
  cases hw : (s.processor (fleet.id i)).workers with
  | none =>
    rw [hw] at hrun
    cases hrun
    exact h
  | some told =>
    rw [hw] at hrun
    cases hrun
    constructor
    case work =>
      intro id hid
      obtain ⟨worker, segment, hworker, hwork⟩ := h.work id hid
      refine ⟨_, segment, (get?_wake_eq _ told id).trans (congrArg _ hworker), ?_⟩
      split
      · exact hwork
      · exact hwork
    case fresh => exact h.fresh
    case running =>
      intro running hr
      rw [Option.elim_some, processor_halted] at hr
      cases hr
    case chain =>
      rw [Option.elim_some, processor_halted]
      exact h.chain

lemma Employed.finish {id : ℕ} {worker : Worker σ} (h : fleet.Employed part i ids s)
    (hw : s.workers.get? id = some worker)
    (hrun : Schedule.finish id worker.work depth s = some ((), s')) :
    fleet.Employed part i ids s' := by
  rw [Schedule.finish_eq hw] at hrun
  cases hrun
  refine ⟨fun other ho => ?_, h.fresh, h.running, h.chain⟩
  obtain ⟨found, segment, hfound, hwork⟩ := h.work other ho
  by_cases he : other = id
  · subst he
    rw [hw] at hfound
    cases hfound
    exact ⟨_, segment, Table.get?_put_self _ _ _, hwork⟩
  · exact ⟨found, segment, (Table.get?_put_of_ne _ _ he).trans hfound, hwork⟩

lemma confined_finish {id : ℕ} {worker : Worker σ} (hw : s.workers.get? id = some worker)
    (hp : worker.work.processor = fleet.id j)
    (hrun : Schedule.finish id worker.work depth s = some ((), s')) :
    fleet.Confined part j s s' := by
  rw [Schedule.finish_eq hw] at hrun
  cases hrun
  refine ⟨fun _ _ => rfl, fun _ => rfl, fun _ _ => rfl, rfl, fun _ _ => rfl, le_rfl, ?_⟩
  intro other found _ hfound hne
  refine (Table.get?_put_of_ne _ _ ?_).trans hfound
  rintro rfl
  rw [hw] at hfound
  cases hfound
  exact hne hp

lemma Employed.attempt {work : SegmentWork σ} {processed : Bool} (h : fleet.Employed part i ids s)
    (hrun : Schedule.attempt work depth s = some (processed, s')) :
    fleet.Employed part i ids s' := by
  obtain ⟨result, middle, hs, hrun⟩ := Run.bind_eq_some.mp hrun
  have hmiddle := h.calm (SegmentWork.calm_step work _ _ _ _ hs)
  cases result with
  | error failure =>
    cases hrun
    exact hmiddle.congr rfl le_rfl rfl rfl
  | ok _ =>
    cases hrun
    exact hmiddle

lemma Employed.confined_attempt (hp : fleet.Private part) (h : fleet.Employed part j ids s)
    {id : ℕ} (hid : id ∈ ids) {worker : Worker σ} (hw : s.workers.get? id = some worker)
    {processed : Bool} (hrun : Schedule.attempt worker.work depth s = some (processed, s')) :
    fleet.Confined part j s s' := by
  obtain ⟨other, segment, ho, hwork⟩ := h.work id hid
  rw [hw] at ho
  cases ho
  obtain ⟨result, middle, hs, hrun⟩ := Run.bind_eq_some.mp hrun
  have hmiddle : fleet.Confined part j s middle := confined_step hp hwork h.chain hs
  cases result with
  | error failure =>
    cases hrun
    exact trans_of (fleet.Confined part j) hmiddle (confined_addTrace _)
  | ok _ =>
    cases hrun
    exact hmiddle

section Publish

variable {subscriber : Subscriber σ} {subscribers : List (Subscriber σ)}

lemma exists_deliverAll (events : List EventMessage)
    (h : ∀ subscriber ∈ subscribers, subscriber.Neutral part)
    (hd : depth = 0 → subscribers = []) (s : System σ) :
    ∃ outcome s', System.deliverAll (System.deliver depth) events subscribers s =
      some (outcome, s') ∧ (∀ i, part i s'.shared = part i s.shared) ∧
        ∀ bus, s'.bus bus = s.bus bus := by
  induction subscribers generalizing s with
  | nil => exact ⟨.ok (), s, rfl, fun _ => rfl, fun _ => rfl⟩
  | cons subscriber rest ih =>
    obtain ⟨n, rfl⟩ : ∃ n, depth = n + 1 :=
      Nat.exists_eq_succ_of_ne_zero fun h0 => List.cons_ne_nil _ _ (hd h0)
    obtain ⟨first, middle, hfirst, hparts, hbuses⟩ := h subscriber List.mem_cons_self n events s
    cases first with
    | error failure =>
      refine ⟨.error failure, middle, ?_, hparts, hbuses⟩
      exact Option.bind_eq_some_iff.mpr ⟨_, hfirst, rfl⟩
    | ok _ =>
      obtain ⟨outcome, s', hrest, hparts', hbuses'⟩ :=
        ih (fun other ho => h other (List.mem_cons_of_mem _ ho)) (fun h0 => by cases h0) middle
      refine ⟨outcome, s', Option.bind_eq_some_iff.mpr ⟨_, hfirst, hrest⟩, fun i => ?_,
        fun bus => ?_⟩
      · rw [hparts', hparts]
      · rw [hbuses', hbuses]

variable {bus : BusId} {events : List EventMessage}

lemma depth_of_publish {outcome : Outcome}
    (h : System.run depth (Program.publish bus events) s = some (outcome, s')) :
    depth = 0 → events = [] ∨ (s.bus bus).subscribers = [] := by
  rintro rfl
  by_contra hne
  obtain ⟨hevents, hsubscribers⟩ := not_or.mp hne
  obtain ⟨subscriber, rest, hrest⟩ := List.exists_cons_of_ne_nil hsubscribers
  obtain ⟨⟨reply, middle⟩, hpublish, -⟩ := Option.bind_eq_some_iff.mp h
  simp only [System.answer, System.publish, List.isEmpty_iff, hevents, if_false, hrest,
    System.deliverAll] at hpublish
  cases hpublish

lemma exists_publish (h : ∀ subscriber ∈ (s.bus bus).subscribers, subscriber.Neutral part)
    (hd : depth = 0 → events = [] ∨ (s.bus bus).subscribers = []) :
    ∃ outcome s', System.run depth (Program.publish bus events) s = some (outcome, s') ∧
      (∀ i, part i s'.shared = part i s.shared) ∧
      ∀ other, s'.bus other = (s.setBus bus ((s.bus bus).append events)).bus other := by
  by_cases he : events = []
  · subst he
    refine ⟨.ok (), s, rfl, fun _ => rfl, fun other => ?_⟩
    rw [Bus.append_nil]
    by_cases hb : other = bus
    · rw [hb, System.bus_setBus_self]
    · rw [System.bus_setBus_of_ne _ _ hb]
  · have hlogged := exists_deliverAll events h (fun h0 => (hd h0).resolve_left he)
      (s.setBus bus ((s.bus bus).append events))
    obtain ⟨outcome, s', hdeliver, hparts, hbuses⟩ := hlogged
    refine ⟨outcome, s', ?_, hparts, hbuses⟩
    refine Option.bind_eq_some_iff.mpr ⟨(outcome, s'), ?_, rfl⟩
    simpa only [System.answer, System.publish, List.isEmpty_iff, he, if_false] using hdeliver

end Publish

section Performs

variable {c c' : Stage ι σ} {operation : Operation ι}

lemma mem_crew {place id : ℕ} {worker : Worker σ} (h : c.worker? i place = some (id, worker)) :
    id ∈ c.crew i ∧ c.system.workers.get? id = some worker := by
  obtain ⟨other, hid, h⟩ := Option.bind_eq_some_iff.mp h
  obtain ⟨found, hw, h⟩ := Option.bind_eq_some_iff.mp h
  cases h
  exact ⟨List.mem_of_getElem? hid, hw⟩

variable [DecidableEq ι] (fleet part)

structure Turns (j : ι) (c c' : Stage ι σ) : Prop where
  confined : fleet.Confined part j c.system c'.system
  employed : fleet.Employed part j (c'.crew j) c'.system
  crew : ∀ i, i ≠ j → c'.crew i = c.crew i
  seen : ∀ i, i ≠ j → c'.seen i = c.seen i

variable {fleet part}

lemma Manned.turns (hm : fleet.Manned part c) (hp : fleet.Private part)
    (h : fleet.Performs depth c operation c') (hj : operation.owner = some j) :
    fleet.Turns part j c c' := by
  cases h with
  | published => cases hj
  | started h =>
    cases hj
    constructor
    case confined => exact confined_start hp h
    case employed =>
      dsimp only
      rw [Function.update_self]
      exact (hm.crew j).start h
    case crew => exact fun i hi => Function.update_of_ne hi _ _
    case seen => exact fun i hi => Function.update_of_ne hi _ _
  | stopped h =>
    cases hj
    constructor
    case confined => exact (hm.crew j).confined_shutDown h
    case employed => exact (hm.crew j).shutDown h
    case crew => exact fun _ _ => rfl
    case seen => exact fun i hi => Function.update_of_ne hi _ _
  | idle h =>
    cases hj
    exact ⟨refl _, hm.crew j, fun _ _ => rfl, fun _ _ => rfl⟩
  | ended hw hf he h =>
    cases hj
    obtain ⟨hid, hworker⟩ := mem_crew hw
    obtain ⟨other, segment, hother, hwork⟩ := (hm.crew j).work _ hid
    rw [hworker] at hother
    cases hother
    constructor
    case confined => exact confined_finish hworker (by rw [hwork]; rfl) h
    case employed => exact (hm.crew j).finish hworker h
    case crew => exact fun _ _ => rfl
    case seen => exact fun _ _ => rfl
  | stepped hw hf he hs h =>
    cases hj
    obtain ⟨hid, hworker⟩ := mem_crew hw
    constructor
    case confined => exact (hm.crew j).confined_attempt hp hid hworker h
    case employed => exact (hm.crew j).attempt h
    case crew => exact fun _ _ => rfl
    case seen => exact fun i hi => Function.update_of_ne hi _ _

lemma Manned.performs (hm : fleet.Manned part c) (hp : fleet.Private part)
    (h : fleet.Performs depth c operation c') : fleet.Manned part c' := by
  cases ho : operation.owner with
  | some j =>
    have hturns := hm.turns hp h ho
    constructor
    case crew =>
      intro i
      by_cases hi : i = j
      · subst hi
        exact hturns.employed
      · rw [hturns.crew i hi]
        exact (hm.crew i).spared hturns.confined hi
    case subscribers =>
      intro bus
      rw [hturns.confined.buses]
      exact hm.subscribers bus
  | none =>
    cases h with
    | started | stopped | idle | ended | stepped => cases ho
    | @published bus events outcome s h =>
      obtain ⟨_, _, hrun, -, hbuses⟩ :=
        exists_publish (hm.subscribers bus) (depth_of_publish h)
      rw [h] at hrun
      cases hrun
      constructor
      case crew => exact fun i => (hm.crew i).calm (System.admits_calm.of_run h)
      case subscribers =>
        intro other
        change ∀ subscriber ∈ (s.bus other).subscribers, _
        rw [hbuses]
        by_cases hb : other = bus
        · subst hb
          rw [System.bus_setBus_self]
          exact hm.subscribers other
        · rw [System.bus_setBus_of_ne _ _ hb]
          exact hm.subscribers other

end Performs

end Fleet

end EventProcessing
