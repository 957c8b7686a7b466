import EventProcessing.Proofs.Chains
import EventProcessing.Proofs.Subscribing

namespace EventProcessing

variable {σ α : Type} {depth : ℕ} {s s' : System σ}

namespace Bus

variable {bus bus' : Bus (Subscriber σ)} {id other : ℕ} {pipeline : Pipeline σ}

structure Distinct (bus : Bus (Subscriber σ)) : Prop where
  nodup : (bus.subscriptions.map Prod.fst).Nodup
  below : ∀ entry ∈ bus.subscriptions, entry.1 < bus.nextSubscription

lemma Distinct.subscribe (h : bus.Distinct) (subscriber : Subscriber σ) :
    (bus.subscribe subscriber).2.Distinct := by
  constructor
  case nodup =>
    change ((bus.subscriptions ++ [(bus.nextSubscription, subscriber)]).map Prod.fst).Nodup
    rw [List.map_append]
    refine h.nodup.append (List.nodup_singleton _) (List.disjoint_singleton.mpr fun hm => ?_)
    obtain ⟨entry, he, heq⟩ := List.mem_map.mp hm
    exact absurd (h.below entry he) (by omega)
  case below =>
    intro entry he
    change entry.1 < bus.nextSubscription + 1
    rcases List.mem_append.mp he with he | he
    · exact (h.below entry he).trans (Nat.lt_succ_self _)
    · rw [List.mem_singleton.mp he]
      exact Nat.lt_succ_self _

lemma Distinct.filter (h : bus.Distinct) (keep : ℕ × Subscriber σ → Bool) :
    Distinct { bus with subscriptions := bus.subscriptions.filter keep } where
  nodup := h.nodup.sublist (List.filter_sublist.map Prod.fst)
  below entry he := h.below entry (List.mem_of_mem_filter he)

lemma Revises.distinct (hr : Revises bus bus') (h : bus.Distinct) : bus'.Distinct := by
  cases hr with
  | append events => exact ⟨h.nodup, h.below⟩
  | subscribe consumer => exact h.subscribe _
  | withdraw subscription => exact h.filter _

lemma mem_owned {entry : ℕ × Subscriber σ} :
    entry ∈ bus.owned id ↔ entry ∈ bus.subscriptions ∧ entry.2.belongsTo id = true :=
  List.mem_filter

lemma owned_subscribe_self (bus : Bus (Subscriber σ)) (pipeline : Pipeline σ) :
    (bus.subscribe (.processor id pipeline)).2.owned id =
      bus.owned id ++ [(bus.nextSubscription, .processor id pipeline)] := by
  simp [owned, Bus.subscribe, List.filter_append, Subscriber.belongsTo]

lemma owned_subscribe_of_ne (bus : Bus (Subscriber σ)) (pipeline : Pipeline σ) (h : other ≠ id) :
    (bus.subscribe (.processor id pipeline)).2.owned other = bus.owned other := by
  simp [owned, Bus.subscribe, List.filter_append, Subscriber.belongsTo, h.symm]

lemma owned_cancel (bus : Bus (Subscriber σ)) (number : ℕ) :
    (bus.cancel number).owned id = (bus.owned id).filter fun entry => entry.1 != number := by
  simp only [owned, Bus.cancel, List.filter_filter, Bool.and_comm]

lemma owned_cancel_of_ne (h : bus.Distinct) {number : ℕ}
    (hm : (number, .processor id pipeline) ∈ bus.owned id) (hne : other ≠ id) :
    (bus.cancel number).owned other = bus.owned other := by
  rw [owned_cancel, List.filter_eq_self]
  intro entry he
  obtain ⟨hentry, hother⟩ := mem_owned.mp he
  refine bne_iff_ne.mpr fun heq => hne ?_
  have hsame := List.inj_on_of_nodup_map h.nodup hentry (mem_owned.mp hm).1 heq
  rw [hsame] at hother
  exact (beq_iff_eq.mp hother).symm

end Bus

structure Activity where
  subscription : Option ℕ := none
  workers : Option (List ℕ) := none
  running : Bool := false

def ProcessorState.activity (state : ProcessorState σ) : Activity :=
  ⟨state.subscription, state.workers, state.running⟩

namespace System

def activity (s : System σ) (id : ℕ) : Activity := (s.processor id).activity

structure Spares (s s' : System σ) : Prop where
  nextId : s.nextId ≤ s'.nextId
  activity : ∀ id, s'.activity id = s.activity id
  owned : ∀ bus id, (s'.bus bus).owned id = (s.bus bus).owned id
  distinct : ∀ bus, (s.bus bus).Distinct → (s'.bus bus).Distinct
  workers : ∀ id worker, s'.workers.get? id = some worker →
    ∃ earlier, s.workers.get? id = some earlier ∧ earlier.Advances worker

instance : IsPreorder (System σ) Spares where
  refl _ := ⟨le_rfl, fun _ => rfl, fun _ _ => rfl, fun _ h => h, fun _ worker hw =>
    ⟨worker, hw, .refl worker⟩⟩
  trans _ _ _ hab hbc := {
    nextId := hab.nextId.trans hbc.nextId
    activity := fun id => (hbc.activity id).trans (hab.activity id)
    owned := fun bus id => (hbc.owned bus id).trans (hab.owned bus id)
    distinct := fun bus h => hbc.distinct bus (hab.distinct bus h)
    workers := fun id worker hw => by
      obtain ⟨later, hl, hlater⟩ := hbc.workers id worker hw
      obtain ⟨earlier, he, hearlier⟩ := hab.workers id later hl
      exact ⟨earlier, he, hearlier.trans hlater⟩ }

lemma spares_of_eq (hn : s.nextId ≤ s'.nextId) (ha : ∀ id, s'.activity id = s.activity id)
    (hb : s'.buses = s.buses) (hw : s'.workers = s.workers) : Spares s s' := by
  have hbus : ∀ bus, s'.bus bus = s.bus bus := fun bus => by rw [System.bus, hb, System.bus]
  refine ⟨hn, ha, fun bus id => by rw [hbus], fun bus h => by rwa [hbus], fun id worker h => ?_⟩
  rw [hw] at h
  exact ⟨worker, h, .refl worker⟩

lemma stores_spares : Stores (Spares (σ := σ)) where
  set _ _ := spares_of_eq le_rfl (fun _ => rfl) rfl rfl
  fresh _ := spares_of_eq (Nat.le_succ _) (fun _ => rfl) rfl rfl
  trace _ _ := spares_of_eq le_rfl (fun _ => rfl) rfl rfl
  count _ _ := spares_of_eq le_rfl (fun _ => rfl) rfl rfl
  setTokenMemory _ _ _ := spares_of_eq le_rfl (fun _ => rfl) rfl rfl
  setBus s id bus h := by
    refine ⟨le_rfl, fun _ => rfl, fun other owner => ?_, fun other hn => ?_, fun _ worker hw =>
      ⟨worker, hw, .refl worker⟩⟩
    · by_cases ho : other = id
      · subst ho
        rw [bus_setBus_self]
        exact (h.retains owner).owned
      · rw [bus_setBus_of_ne _ _ ho]
    · by_cases ho : other = id
      · subst ho
        rw [bus_setBus_self]
        exact h.distinct hn
      · rwa [bus_setBus_of_ne _ _ ho]

theorem spares_of_run {program : Program σ α} {value : α}
    (h : System.run depth program s = some (value, s')) : Spares s s' :=
  stores_spares.of_run h

structure Deserted (s : System σ) (id : ℕ) : Prop where
  owned : ∀ bus, (s.bus bus).owned id = []
  workers : ∀ number worker, s.workers.get? number = some worker → worker.work.processor = id →
    worker.stopRequested = true

lemma Deserted.spares {id : ℕ} (h : s.Deserted id) (hs : Spares s s') : s'.Deserted id := by
  refine ⟨fun bus => (hs.owned bus id).trans (h.owned bus), fun number worker hw hid => ?_⟩
  obtain ⟨earlier, he, hearlier⟩ := hs.workers number worker hw
  exact hearlier.stopRequested (h.workers number earlier he (hearlier.work ▸ hid))

lemma spares_addTrace (s : System σ) (line : TraceLine) : Spares s (s.addTrace line) :=
  spares_of_eq le_rfl (fun _ => rfl) rfl rfl

lemma spares_wake (s : System σ) (told : List ℕ) {f : Worker σ → Worker σ}
    (hf : ∀ worker : Worker σ, worker.Advances (f worker)) :
    Spares s (Processor.wake f told s) := by
  refine ⟨le_rfl, fun _ => rfl, fun _ _ => rfl, fun _ h => h, fun id worker hw => ?_⟩
  rw [get?_wake_eq] at hw
  obtain ⟨earlier, he, rfl⟩ := Option.map_eq_some_iff.mp hw
  refine ⟨earlier, he, ?_⟩
  split
  · exact hf earlier
  · exact .refl earlier

lemma activity_setProcessor_self (s : System σ) (id : ℕ) (state : ProcessorState σ) :
    (s.setProcessor id state).activity id = state.activity := by
  rw [activity, processor_setProcessor]

lemma activity_setProcessor_of_ne (s : System σ) {id other : ℕ} (state : ProcessorState σ)
    (h : other ≠ id) : (s.setProcessor id state).activity other = s.activity other := by
  rw [activity, processor_setProcessor_of_ne _ _ h, activity]

lemma spares_setProcessor {id : ℕ} {state : ProcessorState σ}
    (h : state.activity = s.activity id) : Spares s (s.setProcessor id state) := by
  refine spares_of_eq le_rfl (fun other => ?_) rfl rfl
  by_cases ho : other = id
  · rw [ho, activity_setProcessor_self, h]
  · rw [activity_setProcessor_of_ne _ _ ho]

end System

namespace Schedule

lemma allows_spares : Allows (System.Spares (σ := σ)) where
  beside h := by
    refine System.spares_of_eq h.nextId.ge (fun id => ?_) h.buses h.workers
    rw [System.activity, System.processor, h.processors]
    rfl
  change {s id worker changed} hw hchanged := by
    refine ⟨le_rfl, fun _ => rfl, fun _ _ => rfl, fun _ h => h, fun other found hfound => ?_⟩
    by_cases ho : other = id
    · subst ho
      rw [Table.get?_put_self] at hfound
      cases hfound
      exact ⟨worker, hw, hchanged⟩
    · rw [Table.get?_put_of_ne _ _ ho] at hfound
      exact ⟨found, hfound, .refl found⟩
  step _ h := SegmentWork.keeps_step System.stores_spares _ _ _ _ _ h

lemma proceed_of_mustEnd {id : ℕ} {worker : Worker σ} (hw : s.workers.get? id = some worker)
    (he : worker.mustEnd = true) (depth : ℕ) :
    ∃ workers, proceed id worker depth s = some (false, { s with workers := workers }.addTrace
      (.event .debug "segment worker stopped" worker.work.label)) := by
  let begun : Worker σ := { worker with started := true, idling := false }
  have hbegun : updateWorker id (fun worker => { worker with started := true, idling := false })
      depth s = some ((), { s with workers := s.workers.put id begun }) := by
    refine congrArg some (congrArg (Prod.mk ()) ?_)
    dsimp only
    rw [hw]
  have hget : Table.get? (s.workers.put id begun) id = some begun := Table.get?_put_self _ _ _
  have hfinish : finish id begun.work depth { s with workers := s.workers.put id begun } =
    some ((), _) := finish_eq hget
  refine ⟨(s.workers.put id begun).put id { begun with finished := true },
    Run.bind_eq_some.mpr ⟨(), _, hbegun, ?_⟩⟩
  rw [if_pos he]
  exact Run.bind_eq_some.mpr ⟨(), _, hfinish, rfl⟩

lemma turn_of_mustEnd {id : ℕ} {worker : Worker σ} (hw : s.workers.get? id = some worker)
    (he : worker.mustEnd = true) (depth : ℕ) :
    ∃ workers lines, turn id depth s =
      some (false, { s with workers := workers, trace := s.trace ++ lines }) := by
  let last : TraceLine := .event .debug "segment worker stopped" worker.work.label
  cases hstarted : worker.started with
  | true =>
    obtain ⟨workers, hend⟩ := proceed_of_mustEnd hw he depth
    refine ⟨workers, [last], Run.bind_eq_some.mpr ⟨s, s, rfl, ?_⟩⟩
    rw [hw]
    dsimp only
    rw [hstarted]
    exact hend
  | false =>
    let first : TraceLine := .event .debug "segment worker started" worker.work.label
    have hfirst : (s.addTrace first).workers.get? id = some worker := hw
    obtain ⟨workers, hend⟩ := proceed_of_mustEnd hfirst he depth
    refine ⟨workers, [first] ++ [last], Run.bind_eq_some.mpr ⟨s, s, rfl, ?_⟩⟩
    rw [hw, ← List.append_assoc]
    dsimp only
    rw [hstarted]
    exact Run.bind_eq_some.mpr ⟨(), s.addTrace first, rfl, hend⟩

theorem spares_runFor (milliseconds fuel : ℕ) :
    (runFor (σ := σ) milliseconds fuel).Keeps System.Spares :=
  keeps_runFor allows_spares milliseconds fuel

end Schedule

namespace Processor

variable (p : Processor σ)

lemma spares_updateState {f : ProcessorState σ → ProcessorState σ}
    (hf : ∀ state, (f state).activity = state.activity) :
    (p.updateState f).Keeps System.Spares :=
  .update fun _ => System.spares_setProcessor (hf _)

lemma spares_state : p.state.Keeps System.Spares := .bind .system fun _ => .pure _

lemma spares_addInterceptor (interceptor : Interceptor σ) :
    (p.addInterceptor interceptor).Keeps System.Spares :=
  spares_updateState p fun _ => rfl

lemma spares_abandon : p.abandon.Keeps System.Spares :=
  .bind (spares_state p) fun _ => .update fun s =>
    s.spares_wake _ fun _ => ⟨rfl, fun h => h, fun h => h⟩

theorem spares_awaitTermination (fuel : ℕ) :
    (Schedule.awaitTermination p fuel).Keeps System.Spares := by
  refine .bind (.bind (spares_state p) fun _ => .bind (spares_updateState p fun _ => rfl) fun _ =>
    .pure _) fun _ => Schedule.keeps_awaitWorkers Schedule.allows_spares fuel _

def Runs (s : System σ) : Prop := p.isRunning (s.processor p.self.id) = true

def listing (s : System σ) (other : BusId) : List (ℕ × Subscriber σ) :=
  match p.kind with
  | .subscribing pipeline bus =>
    if other = bus then
      (s.processor p.self.id).subscription.toList.map (·, .processor p.self.id pipeline)
    else []
  | _ => []

def crew (s : System σ) : List ℕ :=
  match p.kind with
  | .tracking _ => (s.processor p.self.id).workers.getD []
  | _ => []

structure InOrder (s : System σ) : Prop where
  owned : ∀ bus, (s.bus bus).owned p.self.id = p.listing s bus
  workers : ∀ id worker, s.workers.get? id = some worker → worker.work.processor = p.self.id →
    worker.stopRequested = true ∨ id ∈ p.crew s

structure Alters (s s' : System σ) : Prop where
  nextId : s.nextId ≤ s'.nextId
  activity : ∀ id, id ≠ p.self.id → s'.activity id = s.activity id
  owned : ∀ bus id, id ≠ p.self.id → (s'.bus bus).owned id = (s.bus bus).owned id
  distinct : ∀ bus, (s.bus bus).Distinct → (s'.bus bus).Distinct
  workers : ∀ id worker, s'.workers.get? id = some worker →
    (∃ earlier, s.workers.get? id = some earlier ∧ earlier.Advances worker) ∨
      worker.work.processor = p.self.id

variable {p}

section Kinds

variable {pipeline : Pipeline σ} {bus : BusId} {t : TrackingProcessor σ}
  {custom : CustomProcessor σ}

lemma runs_iff_of_subscribing (hk : p.kind = .subscribing pipeline bus) :
    p.Runs s ↔ (s.processor p.self.id).subscription.isSome = true := by
  rw [Runs, isRunning, hk]

lemma listing_of_subscribing (hk : p.kind = .subscribing pipeline bus) (other : BusId) :
    p.listing s other = if other = bus then (s.processor p.self.id).subscription.toList.map
      (·, .processor p.self.id pipeline) else [] := by
  rw [listing, hk]

lemma crew_of_subscribing (hk : p.kind = .subscribing pipeline bus) : p.crew s = [] := by
  rw [crew, hk]

lemma runs_iff_of_tracking (hk : p.kind = .tracking t) :
    p.Runs s ↔ (s.processor p.self.id).workers.isSome = true := by
  rw [Runs, isRunning, hk]

lemma listing_of_tracking (hk : p.kind = .tracking t) (bus : BusId) : p.listing s bus = [] := by
  rw [listing, hk]

lemma crew_of_tracking (hk : p.kind = .tracking t) :
    p.crew s = (s.processor p.self.id).workers.getD [] := by
  rw [crew, hk]

lemma runs_iff_of_custom (hk : p.kind = .custom custom) :
    p.Runs s ↔ (s.processor p.self.id).running = true := by
  rw [Runs, isRunning, hk]

lemma listing_of_custom (hk : p.kind = .custom custom) (bus : BusId) : p.listing s bus = [] := by
  rw [listing, hk]

lemma crew_of_custom (hk : p.kind = .custom custom) : p.crew s = [] := by
  rw [crew, hk]

end Kinds

lemma runs_congr (h : s'.activity p.self.id = s.activity p.self.id) : p.Runs s' ↔ p.Runs s := by
  have hsubscription : (s'.processor p.self.id).subscription =
    (s.processor p.self.id).subscription := congrArg Activity.subscription h
  have hworkers : (s'.processor p.self.id).workers = (s.processor p.self.id).workers :=
    congrArg Activity.workers h
  have hrunning : (s'.processor p.self.id).running = (s.processor p.self.id).running :=
    congrArg Activity.running h
  unfold Runs isRunning
  rw [hsubscription, hworkers, hrunning]

lemma listing_congr (h : s'.activity p.self.id = s.activity p.self.id) (bus : BusId) :
    p.listing s' bus = p.listing s bus := by
  have hsubscription : (s'.processor p.self.id).subscription =
    (s.processor p.self.id).subscription := congrArg Activity.subscription h
  unfold listing
  rw [hsubscription]

lemma crew_congr (h : s'.activity p.self.id = s.activity p.self.id) : p.crew s' = p.crew s := by
  have hworkers : (s'.processor p.self.id).workers = (s.processor p.self.id).workers :=
    congrArg Activity.workers h
  unfold crew
  rw [hworkers]

lemma InOrder.spares (h : p.InOrder s) (hs : s.Spares s') : p.InOrder s' := by
  constructor
  case owned =>
    intro bus
    rw [hs.owned, h.owned, listing_congr (hs.activity _)]
  case workers =>
    intro id worker hw hp
    obtain ⟨earlier, he, hearlier⟩ := hs.workers id worker hw
    rw [crew_congr (hs.activity _)]
    exact (h.workers id earlier he (hearlier.work ▸ hp)).imp_left hearlier.stopRequested

lemma alters_of_spares (h : s.Spares s') : p.Alters s s' :=
  ⟨h.nextId, fun id _ => h.activity id, fun bus id _ => h.owned bus id, h.distinct,
    fun id worker hw => .inl (h.workers id worker hw)⟩

lemma Alters.spares {s'' : System σ} (h : p.Alters s s') (hs : s'.Spares s'') :
    p.Alters s s'' where
  nextId := h.nextId.trans hs.nextId
  activity id hid := (hs.activity id).trans (h.activity id hid)
  owned bus id hid := (hs.owned bus id).trans (h.owned bus id hid)
  distinct bus hd := hs.distinct bus (h.distinct bus hd)
  workers id worker hw := by
    obtain ⟨later, hl, hlater⟩ := hs.workers id worker hw
    rcases h.workers id later hl with ⟨earlier, he, hearlier⟩ | hp
    · exact .inl ⟨earlier, he, hearlier.trans hlater⟩
    · exact .inr (hlater.work ▸ hp)

lemma InOrder.alters {q : Processor σ} (h : q.InOrder s) (ha : p.Alters s s')
    (hne : q.self.id ≠ p.self.id) : q.InOrder s' := by
  have hactivity := ha.activity q.self.id hne
  constructor
  case owned =>
    intro bus
    rw [ha.owned bus _ hne, h.owned, listing_congr hactivity]
  case workers =>
    intro id worker hw hq
    rw [crew_congr hactivity]
    rcases ha.workers id worker hw with ⟨earlier, he, hearlier⟩ | hp
    · exact (h.workers id earlier he (hearlier.work ▸ hq)).imp_left hearlier.stopRequested
    · exact absurd (hq.symm.trans hp) hne

lemma alters_setProcessor (h : s.Spares s') (state : ProcessorState σ) :
    p.Alters s (s'.setProcessor p.self.id state) where
  nextId := h.nextId
  activity id hid := by rw [System.activity_setProcessor_of_ne _ _ hid, h.activity]
  owned bus id _ := h.owned bus id
  distinct := h.distinct
  workers id worker hw := .inl (h.workers id worker hw)

lemma Alters.deserted {id : ℕ} (ha : p.Alters s s') (hne : id ≠ p.self.id)
    (h : s.Deserted id) : s'.Deserted id := by
  refine ⟨fun bus => (ha.owned bus id hne).trans (h.owned bus), fun number worker hw hid => ?_⟩
  rcases ha.workers number worker hw with ⟨earlier, he, hearlier⟩ | hp
  · exact hearlier.stopRequested (h.workers number earlier he (hearlier.work ▸ hid))
  · exact absurd (hid.symm.trans hp) hne

lemma listing_of_not_runs (h : p.IsBuiltIn → ¬ p.Runs s) (bus : BusId) : p.listing s bus = [] := by
  unfold Runs isRunning at h
  unfold listing
  split
  · next hk =>
    have hb : p.IsBuiltIn := fun custom hc => by cases hk.symm.trans hc
    simp only [hk, Option.not_isSome_iff_eq_none] at h
    rw [h hb]
    exact ite_self []
  · rfl

lemma crew_of_not_runs (h : p.IsBuiltIn → ¬ p.Runs s) : p.crew s = [] := by
  unfold Runs isRunning at h
  unfold crew
  split
  · next hk =>
    have hb : p.IsBuiltIn := fun custom hc => by cases hk.symm.trans hc
    simp only [hk, Option.not_isSome_iff_eq_none] at h
    rw [h hb]
    rfl
  · rfl

lemma InOrder.deserted (h : p.InOrder s) (hr : p.IsBuiltIn → ¬ p.Runs s) :
    s.Deserted p.self.id := by
  refine ⟨fun bus => (h.owned bus).trans (listing_of_not_runs hr bus), fun id worker hw hp => ?_⟩
  rcases h.workers id worker hw hp with hstopped | hmem
  · exact hstopped
  · rw [crew_of_not_runs hr] at hmem
    cases hmem

section InOrder

variable {pipeline : Pipeline σ} {bus : BusId}

lemma InOrder.owned_of_runs (h : p.InOrder s) (hk : p.kind = .subscribing pipeline bus)
    (hr : p.Runs s) : ∃ number, (s.processor p.self.id).subscription = some number ∧
      (s.bus bus).owned p.self.id = [(number, .processor p.self.id pipeline)] := by
  obtain ⟨number, hnumber⟩ := Option.isSome_iff_exists.mp ((runs_iff_of_subscribing hk).mp hr)
  refine ⟨number, hnumber, ?_⟩
  rw [h.owned, listing_of_subscribing hk, if_pos rfl, hnumber]
  rfl

lemma InOrder.owned_eq_nil (h : p.InOrder s)
    (hr : ∀ pipeline, p.kind = .subscribing pipeline bus → ¬ p.Runs s) :
    (s.bus bus).owned p.self.id = [] := by
  rw [h.owned]
  cases hk : p.kind with
  | subscribing pipeline other =>
    rw [listing_of_subscribing hk]
    split
    · next he =>
      subst he
      have hidle := hr pipeline hk
      rw [runs_iff_of_subscribing hk, Option.not_isSome_iff_eq_none] at hidle
      rw [hidle]
      rfl
    · rfl
  | tracking t => exact listing_of_tracking hk bus
  | custom custom => exact listing_of_custom hk bus

lemma InOrder.staffed (h : p.InOrder s) {id : ℕ} {worker : Worker σ}
    (hw : s.workers.get? id = some worker) (hp : worker.work.processor = p.self.id) :
    worker.stopRequested = true ∨
      ∃ workers, (s.processor p.self.id).workers = some workers ∧ id ∈ workers := by
  refine (h.workers id worker hw hp).imp_right fun hmem => ?_
  cases hk : p.kind with
  | tracking t =>
    rw [crew_of_tracking hk] at hmem
    cases hworkers : (s.processor p.self.id).workers with
    | none =>
      rw [hworkers] at hmem
      cases hmem
    | some workers =>
      rw [hworkers] at hmem
      exact ⟨workers, rfl, hmem⟩
  | subscribing pipeline bus =>
    rw [crew_of_subscribing hk] at hmem
    cases hmem
  | custom custom =>
    rw [crew_of_custom hk] at hmem
    cases hmem

end InOrder

lemma not_runs_of_inactive (h : s.activity p.self.id = {}) : ¬ p.Runs s := by
  have hsubscription : (s.processor p.self.id).subscription = none :=
    congrArg Activity.subscription h
  have hworkers : (s.processor p.self.id).workers = none := congrArg Activity.workers h
  have hrunning : (s.processor p.self.id).running = false := congrArg Activity.running h
  unfold Runs isRunning
  rw [hsubscription, hworkers, hrunning]
  split <;> exact Bool.false_ne_true

lemma inOrder_of_deserted (h : s.Deserted p.self.id) (hr : ¬ p.Runs s) : p.InOrder s :=
  ⟨fun bus => (h.owned bus).trans (listing_of_not_runs (fun _ => hr) bus).symm,
    fun id worker hw hp => .inl (h.workers id worker hw hp)⟩

structure Undisturbed (p : Processor σ) (s s' : System σ) : Prop where
  activity : s'.activity p.self.id = s.activity p.self.id
  owned : ∀ bus, (s'.bus bus).owned p.self.id = (s.bus bus).owned p.self.id
  workers : ∀ id worker, s'.workers.get? id = some worker → worker.work.processor = p.self.id →
    ∃ earlier, s.workers.get? id = some earlier ∧ earlier.Advances worker

lemma Undisturbed.trans {s'' : System σ} (h : p.Undisturbed s s') (h' : p.Undisturbed s' s'') :
    p.Undisturbed s s'' where
  activity := h'.activity.trans h.activity
  owned bus := (h'.owned bus).trans (h.owned bus)
  workers id worker hw hp := by
    obtain ⟨later, hl, hlater⟩ := h'.workers id worker hw hp
    obtain ⟨earlier, he, hearlier⟩ := h.workers id later hl (hlater.work ▸ hp)
    exact ⟨earlier, he, hearlier.trans hlater⟩

lemma undisturbed_of_spares (h : s.Spares s') : p.Undisturbed s s' :=
  ⟨h.activity _, fun bus => h.owned bus _, fun id worker hw _ => h.workers id worker hw⟩

lemma Alters.undisturbed {q : Processor σ} (h : p.Alters s s') (hne : q.self.id ≠ p.self.id) :
    q.Undisturbed s s' := by
  refine ⟨h.activity _ hne, fun bus => h.owned bus _ hne, fun id worker hw hq => ?_⟩
  exact (h.workers id worker hw).resolve_right fun hp => hne (hq.symm.trans hp)

end Processor

end EventProcessing
