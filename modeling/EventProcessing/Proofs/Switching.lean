import EventProcessing.Proofs.Activity

namespace EventProcessing

variable {σ : Type} {depth : ℕ} {s s' : System σ}

namespace Processor

variable {p : Processor σ}

structure Begun (p : Processor σ) (outcome : Outcome) (s s' : System σ) : Prop where
  alters : p.Alters s s'
  inOrder : p.InOrder s'
  runs : outcome = .ok () → p.Runs s'
  fails : ∀ failure, outcome = .error failure → (p.Runs s' ↔ p.Runs s)
  again : p.IsBuiltIn → p.Runs s → s' = s

structure Ended (p : Processor σ) (outcome : Outcome) (s s' : System σ) : Prop where
  alters : p.Alters s s'
  inOrder : p.InOrder s'
  stops : p.IsBuiltIn → outcome = .ok () ∧ ¬ p.Runs s'

lemma InOrder.revise (h : p.InOrder s) (howned : ∀ bus, (s'.bus bus).owned p.self.id =
    p.listing s' bus) (hworkers : s'.workers = s.workers) (hcrew : ∀ r : System σ, p.crew r = []) :
    p.InOrder s' := by
  refine ⟨howned, fun id worker hw hp => ?_⟩
  rw [hworkers] at hw
  rw [hcrew, ← hcrew s]
  exact h.workers id worker hw hp

lemma begun_of_running (hr : p.Runs s) (h : p.InOrder s) : p.Begun (.ok ()) s s :=
  ⟨alters_of_spares (refl s), h, fun _ => hr, fun _ _ => .rfl, fun _ _ => rfl⟩

lemma begun_of_failed {failure : Failure} (hb : p.IsBuiltIn → ¬ p.Runs s) (hs : s.Spares s')
    (h : p.InOrder s) : p.Begun (.error failure) s s' :=
  ⟨alters_of_spares hs, h.spares hs, (fun hok => by cases hok),
    fun _ _ => runs_congr (hs.activity _), fun hbuiltIn hr => absurd hr (hb hbuiltIn)⟩

section Subscribing

variable {pipeline : Pipeline σ} {bus : BusId} {outcome : Outcome}

variable (p pipeline bus) in
def subscribed (s : System σ) : System σ :=
  ((s.subscribe bus (.processor p.self.id pipeline)).2.setProcessor p.self.id
    { s.processor p.self.id with subscription := some (s.bus bus).nextSubscription }).addTrace
      (.event .info "subscribing event processor started" [("processor", p.name)])

variable (p bus) in
def unsubscribed (number : ℕ) (s : System σ) : System σ :=
  ((s.setProcessor p.self.id { s.processor p.self.id with subscription := none }).cancel bus
    number).addTrace
      (.event .info "subscribing event processor stopped" [("processor", p.name)])

lemma startSubscribing_eq : p.startSubscribing pipeline bus depth s = some (.ok (),
    if (s.processor p.self.id).subscription.isSome then s else p.subscribed pipeline bus s) := by
  refine Run.bind_eq_some.mpr ⟨_, s, rfl, ?_⟩
  split
  · rfl
  · rfl

lemma shutDownSubscribing_eq : p.shutDownSubscribing bus depth s = some (.ok (),
    (s.processor p.self.id).subscription.elim s fun number => p.unsubscribed bus number s) := by
  refine Run.bind_eq_some.mpr ⟨_, s, rfl, ?_⟩
  cases (s.processor p.self.id).subscription with
  | none => rfl
  | some number => rfl

lemma bus_subscribed_self (s : System σ) : (p.subscribed pipeline bus s).bus bus =
    ((s.bus bus).subscribe (.processor p.self.id pipeline)).2 :=
  System.bus_setBus_self _ _ _

lemma bus_subscribed_of_ne (s : System σ) {other : BusId} (h : other ≠ bus) :
    (p.subscribed pipeline bus s).bus other = s.bus other :=
  System.bus_setBus_of_ne _ _ h

lemma bus_unsubscribed_self (number : ℕ) (s : System σ) :
    (p.unsubscribed bus number s).bus bus = (s.bus bus).cancel number :=
  System.bus_setBus_self _ _ _

lemma bus_unsubscribed_of_ne (number : ℕ) (s : System σ) {other : BusId} (h : other ≠ bus) :
    (p.unsubscribed bus number s).bus other = s.bus other :=
  System.bus_setBus_of_ne _ _ h

lemma alters_subscribed (s : System σ) : p.Alters s (p.subscribed pipeline bus s) where
  nextId := le_rfl
  activity id hid := System.activity_setProcessor_of_ne _ _ hid
  owned other id hid := by
    by_cases ho : other = bus
    · rw [ho, bus_subscribed_self, Bus.owned_subscribe_of_ne _ _ hid]
    · rw [bus_subscribed_of_ne _ ho]
  distinct other h := by
    by_cases ho : other = bus
    · subst ho
      rw [bus_subscribed_self]
      exact h.subscribe _
    · rwa [bus_subscribed_of_ne _ ho]
  workers _ worker hw := .inl ⟨worker, hw, .refl worker⟩

lemma alters_unsubscribed {number : ℕ} (hd : (s.bus bus).Distinct)
    (hm : (number, .processor p.self.id pipeline) ∈ (s.bus bus).owned p.self.id) :
    p.Alters s (p.unsubscribed bus number s) where
  nextId := le_rfl
  activity id hid := System.activity_setProcessor_of_ne _ _ hid
  owned other id hid := by
    by_cases ho : other = bus
    · rw [ho, bus_unsubscribed_self, Bus.owned_cancel_of_ne hd hm hid]
    · rw [bus_unsubscribed_of_ne _ _ ho]
  distinct other h := by
    by_cases ho : other = bus
    · subst ho
      rw [bus_unsubscribed_self]
      exact h.filter _
    · rwa [bus_unsubscribed_of_ne _ _ ho]
  workers _ worker hw := .inl ⟨worker, hw, .refl worker⟩

lemma begun_of_startSubscribing (hk : p.kind = .subscribing pipeline bus) (h : p.InOrder s)
    (hrun : p.startSubscribing pipeline bus depth s = some (outcome, s')) :
    p.Begun outcome s s' := by
  rw [startSubscribing_eq] at hrun
  cases hs : (s.processor p.self.id).subscription with
  | some number =>
    rw [hs] at hrun
    cases hrun
    exact begun_of_running ((runs_iff_of_subscribing hk).mpr (by rw [hs]; rfl)) h
  | none =>
    rw [hs] at hrun
    cases hrun
    have hstate : ((p.subscribed pipeline bus s).processor p.self.id).subscription =
        some (s.bus bus).nextSubscription :=
      congrArg ProcessorState.subscription (System.processor_setProcessor _ _ _)
    refine ⟨alters_subscribed s, ?_, fun _ => ?_, (fun _ h => by cases h), fun _ hr => ?_⟩
    · refine h.revise (fun other => ?_) rfl fun _ => crew_of_subscribing hk
      change ((p.subscribed pipeline bus s).bus other).owned p.self.id =
        p.listing (p.subscribed pipeline bus s) other
      have howned := h.owned other
      rw [listing_of_subscribing hk, hs] at howned
      rw [listing_of_subscribing hk, hstate]
      by_cases ho : other = bus
      · subst ho
        rw [bus_subscribed_self, Bus.owned_subscribe_self, howned, if_pos rfl, if_pos rfl]
        rfl
      · rw [bus_subscribed_of_ne _ ho, howned, if_neg ho, if_neg ho]
    · exact (runs_iff_of_subscribing hk).mpr (congrArg Option.isSome hstate)
    · rw [runs_iff_of_subscribing hk, hs] at hr
      cases hr

lemma ended_of_shutDownSubscribing (hk : p.kind = .subscribing pipeline bus) (h : p.InOrder s)
    (hd : ∀ bus, (s.bus bus).Distinct)
    (hrun : p.shutDownSubscribing bus depth s = some (outcome, s')) : p.Ended outcome s s' := by
  rw [shutDownSubscribing_eq] at hrun
  cases hs : (s.processor p.self.id).subscription with
  | none =>
    rw [hs] at hrun
    cases hrun
    refine ⟨alters_of_spares (refl s), h, fun _ => ⟨rfl, ?_⟩⟩
    rw [Option.elim_none, runs_iff_of_subscribing hk, hs]
    simp
  | some number =>
    rw [hs] at hrun
    cases hrun
    have hstate : ((p.unsubscribed bus number s).processor p.self.id).subscription = none :=
      congrArg ProcessorState.subscription (System.processor_setProcessor _ _ _)
    have howned : (s.bus bus).owned p.self.id = [(number, .processor p.self.id pipeline)] := by
      rw [h.owned, listing_of_subscribing hk, hs, if_pos rfl]
      rfl
    have hm : (number, Subscriber.processor p.self.id pipeline) ∈ (s.bus bus).owned p.self.id := by
      rw [howned]
      exact List.mem_singleton_self _
    refine ⟨alters_unsubscribed (hd bus) hm, ?_, fun _ => ⟨rfl, fun hr => ?_⟩⟩
    · refine h.revise (fun other => ?_) rfl fun _ => crew_of_subscribing hk
      rw [Option.elim_some, listing_of_subscribing hk, hstate]
      by_cases ho : other = bus
      · subst ho
        rw [bus_unsubscribed_self, Bus.owned_cancel, howned, if_pos rfl]
        simp
      · have helsewhere := h.owned other
        rw [listing_of_subscribing hk, if_neg ho] at helsewhere
        rw [bus_unsubscribed_of_ne _ _ ho, helsewhere, if_neg ho]
    · rw [Option.elim_some, runs_iff_of_subscribing hk, hstate] at hr
      cases hr

end Subscribing

section Tracking

variable {t : TrackingProcessor σ} {outcome : Outcome}

lemma spares_pruned (s : System σ) : s.Spares (p.pruned s) := System.spares_setProcessor rfl

lemma Spawns.workers {segments : List Segment} {ids : List ℕ} {hired : System σ}
    (h : Spawns (work p.self.id t) segments ids s hired) {id : ℕ} {worker : Worker σ}
    (hw : hired.workers.get? id = some worker) : s.workers.get? id = some worker ∨
      worker.work.processor = p.self.id ∧ id ∈ ids := by
  rcases h.worker_cases hw with hw | ⟨n, segment, -, -, hid, rfl⟩
  · exact .inl hw
  · exact .inr ⟨rfl, hid⟩

section Hired

variable {segments : List Segment} {ids : List ℕ} {ready hired : System σ}

variable (p) in
def manned (ids : List ℕ) (line : TraceLine) (s : System σ) : System σ :=
  (s.addTrace line).setProcessor p.self.id { s.processor p.self.id with workers := some ids }

lemma bus_manned (hs : Spawns (work p.self.id t) segments ids ready hired) (line : TraceLine)
    (bus : BusId) : (p.manned ids line hired).bus bus = ready.bus bus := by
  rw [System.bus, System.bus, ← hs.buses]
  rfl

lemma workers_manned (ids : List ℕ) (line : TraceLine) (s : System σ) :
    ((p.manned ids line s).processor p.self.id).workers = some ids :=
  congrArg ProcessorState.workers (System.processor_setProcessor _ _ _)

lemma alters_manned (hready : s.Spares ready)
    (hs : Spawns (work p.self.id t) segments ids ready hired) (line : TraceLine) :
    p.Alters s (p.manned ids line hired) where
  nextId := hready.nextId.trans (le_of_le_of_eq (Nat.le_add_right _ _) hs.nextId.symm)
  activity id hid := by
    rw [← hready.activity, manned, System.activity_setProcessor_of_ne _ _ hid]
    exact congrArg ProcessorState.activity (hs.processor_eq id)
  owned bus id _ := by rw [bus_manned hs, hready.owned]
  distinct bus hd := by
    rw [bus_manned hs]
    exact hready.distinct bus hd
  workers id worker hw := (hs.workers hw).imp (hready.workers id worker) And.left

lemma inOrder_manned (hk : p.kind = .tracking t) (h : p.InOrder s) (hr : ¬ p.Runs s)
    (hready : s.Spares ready) (hs : Spawns (work p.self.id t) segments ids ready hired)
    (line : TraceLine) : p.InOrder (p.manned ids line hired) := by
  constructor
  case owned =>
    intro bus
    rw [bus_manned hs, hready.owned, h.owned, listing_of_tracking hk, listing_of_tracking hk]
  case workers =>
    intro id worker hw hp
    rw [crew_of_tracking hk, workers_manned]
    rcases hs.workers hw with hold | ⟨-, hid⟩
    · obtain ⟨earlier, he, hearlier⟩ := hready.workers id worker hold
      have hstopped := (h.deserted fun _ => hr).workers id earlier he (hearlier.work ▸ hp)
      exact .inl (hearlier.stopRequested hstopped)
    · exact .inr hid

lemma begun_of_hired (hk : p.kind = .tracking t) (h : p.InOrder s) (hr : ¬ p.Runs s)
    (hready : s.Spares ready) (hs : Spawns (work p.self.id t) segments ids ready hired)
    (line : TraceLine) : p.Begun (.ok ()) s (p.manned ids line hired) where
  alters := alters_manned hready hs line
  inOrder := inOrder_manned hk h hr hready hs line
  runs _ := (runs_iff_of_tracking hk).mpr (congrArg Option.isSome (workers_manned _ _ _))
  fails _ hf := by cases hf
  again _ hruns := absurd hruns hr

end Hired

lemma begun_of_startTracking (hk : p.kind = .tracking t) (h : p.InOrder s)
    (hrun : p.startTracking t depth s = some (outcome, s')) : p.Begun outcome s s' := by
  have hidle : (s.processor p.self.id).workers = none → ¬ p.Runs s := fun hw hr => by
    rw [runs_iff_of_tracking hk, hw] at hr
    cases hr
  have hclaim : ∀ {r ready}, t.claimSegments depth (p.pruned s) = some (r, ready) →
      s.Spares ready := fun hc =>
    trans_of _ (spares_pruned s) (TrackingProcessor.keeps_claimSegments
      (System.stores_spares.stays _ _) _ _ _ _ hc)
  cases begins_of_startTracking hrun with
  | noRuntime hr =>
    exact ⟨alters_of_spares (refl s), h, (fun hok => by cases hok), fun _ _ => .rfl,
      fun _ _ => rfl⟩
  | running hr hw => exact begun_of_running ((runs_iff_of_tracking hk).mpr hw) h
  | stillStopping hr hw hkept => exact begun_of_failed (fun _ => hidle hw) (spares_pruned s) h
  | refused hr hw hkept hc => exact begun_of_failed (fun _ => hidle hw) (hclaim hc) h
  | hired hr hw hkept hc hs => exact begun_of_hired hk h (hidle hw) (hclaim hc) hs _

lemma ended_of_shutDownTracking (hk : p.kind = .tracking t) (h : p.InOrder s)
    (hrun : p.shutDownTracking depth s = some (outcome, s')) : p.Ended outcome s s' := by
  rw [shutDownTracking_eq] at hrun
  cases hw : (s.processor p.self.id).workers with
  | none =>
    rw [hw] at hrun
    cases hrun
    refine ⟨alters_of_spares (refl s), h, fun _ => ⟨rfl, fun hr => ?_⟩⟩
    rw [Option.elim_none, runs_iff_of_tracking hk, hw] at hr
    cases hr
  | some told =>
    rw [hw] at hrun
    cases hrun
    have hwake : s.Spares (wake requestStop told s) :=
      System.spares_wake s told fun _ => ⟨rfl, fun _ => rfl, fun hf => hf⟩
    have hnone : ((p.halted told s).processor p.self.id).workers = none :=
      congrArg ProcessorState.workers (System.processor_setProcessor _ _ _)
    have halters : p.Alters s (p.halted told s) :=
      (alters_setProcessor hwake _).spares (System.spares_addTrace _ _)
    refine ⟨halters, ?_, fun _ => ⟨rfl, fun hr => ?_⟩⟩
    · constructor
      case owned =>
        intro bus
        rw [listing_of_tracking hk, ← listing_of_tracking (s := s) hk]
        exact h.owned bus
      case workers =>
        intro id worker hworker hp
        obtain ⟨earlier, he, rfl⟩ :=
          Option.map_eq_some_iff.mp ((get?_wake_eq requestStop told id).symm.trans hworker)
        by_cases ht : told.contains id = true
        · rw [if_pos ht]
          exact .inl rfl
        · rw [if_neg ht] at hp ⊢
          rcases h.workers id earlier he hp with hstopped | hmem
          · exact .inl hstopped
          · rw [crew_of_tracking hk, hw] at hmem
            exact absurd (List.contains_iff_mem.mpr hmem) ht
    · rw [Option.elim_some, runs_iff_of_tracking hk, hnone] at hr
      cases hr

end Tracking

section Custom

variable {custom : CustomProcessor σ} {outcome : Outcome}

lemma switchCustom_cases {program : Program σ Outcome} {running : Bool}
    (hrun : p.switchCustom program running depth s = some (outcome, s')) :
    (∃ failure, outcome = .error failure) ∧ s.Spares s' ∨ outcome = .ok () ∧ ∃ middle,
      s.Spares middle ∧ s' = middle.setProcessor p.self.id
        { middle.processor p.self.id with running } := by
  obtain ⟨result, middle, hprogram, hrun⟩ := Run.bind_eq_some.mp hrun
  have hmiddle := System.spares_of_run hprogram
  cases result with
  | error failure =>
    cases hrun
    exact .inl ⟨⟨failure, rfl⟩, hmiddle⟩
  | ok _ =>
    cases hrun
    exact .inr ⟨rfl, middle, hmiddle, rfl⟩

lemma InOrder.setProcessor (hk : p.kind = .custom custom) (h : p.InOrder s)
    (state : ProcessorState σ) : p.InOrder (s.setProcessor p.self.id state) := by
  refine h.revise (fun bus => ?_) rfl fun _ => crew_of_custom hk
  rw [listing_of_custom hk, ← listing_of_custom (s := s) hk]
  exact h.owned bus

lemma not_isBuiltIn_of_custom (hk : p.kind = .custom custom) : ¬ p.IsBuiltIn := fun h => h _ hk

lemma begun_of_startCustom (hk : p.kind = .custom custom) (h : p.InOrder s)
    (hrun : p.switchCustom custom.start true depth s = some (outcome, s')) :
    p.Begun outcome s s' := by
  have hb := not_isBuiltIn_of_custom hk
  obtain ⟨⟨failure, rfl⟩, hs⟩ | ⟨rfl, middle, hs, rfl⟩ := switchCustom_cases hrun
  · exact begun_of_failed (fun h => absurd h hb) hs h
  · refine ⟨alters_setProcessor hs _, (h.spares hs).setProcessor hk _, fun _ => ?_,
      (fun _ hf => by cases hf), fun h => absurd h hb⟩
    rw [runs_iff_of_custom hk, System.processor_setProcessor]

lemma ended_of_shutDownCustom (hk : p.kind = .custom custom) (h : p.InOrder s)
    (hrun : p.switchCustom custom.shutDown false depth s = some (outcome, s')) :
    p.Ended outcome s s' := by
  have hb := not_isBuiltIn_of_custom hk
  obtain ⟨-, hs⟩ | ⟨rfl, middle, hs, rfl⟩ := switchCustom_cases hrun
  · exact ⟨alters_of_spares hs, h.spares hs, fun h => absurd h hb⟩
  · exact ⟨alters_setProcessor hs _, (h.spares hs).setProcessor hk _, fun h => absurd h hb⟩

end Custom

theorem begun_of_start {outcome : Outcome} (h : p.InOrder s)
    (hrun : p.start depth s = some (outcome, s')) : p.Begun outcome s s' := by
  cases hk : p.kind with
  | subscribing pipeline bus =>
    simp only [start, hk] at hrun
    exact begun_of_startSubscribing hk h hrun
  | tracking t =>
    simp only [start, hk] at hrun
    exact begun_of_startTracking hk h hrun
  | custom custom =>
    simp only [start, hk] at hrun
    exact begun_of_startCustom hk h hrun

theorem ended_of_shutDown {outcome : Outcome} (hd : ∀ bus, (s.bus bus).Distinct)
    (h : p.InOrder s) (hrun : p.shutDown depth s = some (outcome, s')) :
    p.Ended outcome s s' := by
  cases hk : p.kind with
  | subscribing pipeline bus =>
    simp only [shutDown, hk] at hrun
    exact ended_of_shutDownSubscribing hk h hd hrun
  | tracking t =>
    simp only [shutDown, hk] at hrun
    exact ended_of_shutDownTracking hk h hrun
  | custom custom =>
    simp only [shutDown, hk] at hrun
    exact ended_of_shutDownCustom hk h hrun

theorem exists_shutDown (hb : p.IsBuiltIn) (depth : ℕ) (s : System σ) :
    ∃ s', p.shutDown depth s = some (.ok (), s') := by
  cases hk : p.kind with
  | subscribing pipeline bus =>
    simp only [shutDown, hk]
    exact ⟨_, shutDownSubscribing_eq⟩
  | tracking t =>
    simp only [shutDown, hk]
    exact ⟨_, shutDownTracking_eq⟩
  | custom custom => exact absurd hk (hb custom)

end Processor

end EventProcessing
