import EventProcessing.Processor.Lifecycle
import EventProcessing.Proofs.Tracking.Delivery
import EventProcessing.Proofs.Tracking.Hiring

/-! The runs of a subscribing processor that was started on a new bus: it keeps its place before all
other subscribers, so that each batch is pushed to it as soon as it is logged. -/

namespace EventProcessing

variable {σ α : Type}

def Subscriber.belongsTo (id : ℕ) : Subscriber σ → Bool
  | .consumer _ => false
  | .processor owner _ => owner == id

namespace Bus

variable {bus bus' : Bus (Subscriber σ)} {id : ℕ}

def owned (id : ℕ) (bus : Bus (Subscriber σ)) : List (ℕ × Subscriber σ) :=
  bus.subscriptions.filter fun entry => entry.2.belongsTo id

structure Retains (id : ℕ) (bus bus' : Bus (Subscriber σ)) : Prop where
  owned : bus'.owned id = bus.owned id
  first : ∀ entry rest, bus.subscriptions = entry :: rest → entry.2.belongsTo id = true →
    ∃ others, bus'.subscriptions = entry :: others

lemma retains_of_eq (h : bus'.subscriptions = bus.subscriptions) : Retains id bus bus' := by
  refine ⟨by rw [Bus.owned, h, Bus.owned], fun entry rest he _ => ⟨rest, ?_⟩⟩
  rw [h, he]

lemma Retains.trans {last : Bus (Subscriber σ)} (h : Retains id bus bus')
    (h' : Retains id bus' last) : Retains id bus last := by
  refine ⟨h'.owned.trans h.owned, fun entry rest he ho => ?_⟩
  obtain ⟨others, hothers⟩ := h.first entry rest he ho
  exact h'.first entry others hothers ho

lemma isConsumer_eq_false {subscriber : Subscriber σ} (h : subscriber.belongsTo id = true) :
    subscriber.isConsumer = false := by
  cases subscriber with
  | consumer _ => cases h
  | processor _ _ => rfl

lemma Revises.retains (h : Revises bus bus') (id : ℕ) : Retains id bus bus' := by
  cases h with
  | append events => exact retains_of_eq rfl
  | subscribe consumer =>
    refine ⟨?_, fun entry rest he _ => ⟨_, congrArg (· ++ _) he⟩⟩
    have hnone : List.filter (fun entry : ℕ × Subscriber σ => entry.2.belongsTo id)
        [(bus.nextSubscription, .consumer consumer)] = [] := rfl
    simp only [owned, Bus.subscribe, List.filter_append, hnone, List.append_nil]
  | withdraw subscription =>
    constructor
    case owned =>
      simp only [owned, Bus.withdraw, List.filter_filter]
      refine List.filter_congr fun entry _ => ?_
      cases ho : entry.2.belongsTo id with
      | false => rfl
      | true => simp [isConsumer_eq_false ho]
    case first =>
      intro entry rest he ho
      refine ⟨rest.filter fun s => !(s.1 == subscription && s.2.isConsumer), ?_⟩
      simp only [Bus.withdraw, he]
      rw [List.filter_cons_of_pos (by simp [isConsumer_eq_false ho])]

end Bus

namespace System

variable {s s' : System σ} {id : ℕ}

def Retains (id : ℕ) (s s' : System σ) : Prop := ∀ bus, Bus.Retains id (s.bus bus) (s'.bus bus)

instance : IsPreorder (System σ) (Retains id) where
  refl _ _ := Bus.retains_of_eq rfl
  trans _ _ _ hab hbc bus := (hab bus).trans (hbc bus)

lemma admits_retains : Admits (Retains (σ := σ) id) where
  set _ _ _ := Bus.retains_of_eq rfl
  fresh _ _ := Bus.retains_of_eq rfl
  trace _ _ _ := Bus.retains_of_eq rfl
  count _ _ _ := Bus.retains_of_eq rfl
  setBus s other bus h := by
    intro b
    by_cases hb : b = other
    · subst hb
      rw [bus_setBus_self]
      exact h.retains id
    · rw [bus_setBus_of_ne _ _ hb]
      exact Bus.retains_of_eq rfl

end System

/-- A batch that a publish hands to a subscribing processor, with the number of events that were
logged before it. The system is in `start` when the batch goes to the pipeline. -/
structure Push (σ : Type) where
  pipeline : Pipeline σ
  chain : List (Interceptor σ)
  depth : ℕ
  first : ℕ
  events : List EventMessage
  start : System σ

namespace Push

variable (push : Push σ)

def notes : List Note :=
  match System.run push.depth (push.pipeline.watched push.chain push.events .root)
    (push.start.quiet []) with
  | some (_, s) => s.shared.notes
  | none => []

def calls : List Call := callsFrom push.first push.notes

def Commits : Prop := ∀ failure, .ended (.committed (.error failure)) ∉ push.notes

end Push

section Pushes

variable (id depth first : ℕ) (events : List EventMessage)

def Subscriber.pushes (s : System σ) : Subscriber σ → List (Push σ)
  | .consumer _ => []
  | .processor owner pipeline =>
    if owner = id then [⟨pipeline, (s.processor id).chain, depth - 1, first, events, s⟩] else []

def pushesAlong : List (Subscriber σ) → System σ → List (Push σ)
  | [], _ => []
  | subscriber :: rest, s =>
    subscriber.pushes id depth first events s ++
      match System.deliver depth subscriber events s with
      | some (.ok (), s') => pushesAlong rest s'
      | _ => []

def pushesOf (bus : BusId) (s : System σ) : List (Push σ) :=
  if events.isEmpty then []
  else pushesAlong id depth (s.bus bus).log.length events (s.bus bus).subscribers
    (s.setBus bus ((s.bus bus).append events))

end Pushes

/-- The states behind the start of a subscribing processor, with the batches that are published and
what is pushed to the processor. Nothing is logged but these batches: who handles them does not
publish. -/
inductive Subscribed (p : Processor σ) (bus : BusId) (s₀ : System σ) :
    List (List EventMessage) → List (Push σ) → System σ → Prop
  | start {s : System σ} {depth : ℕ} (h : p.start depth s₀ = some (.ok (), s)) :
      Subscribed p bus s₀ [] [] s
  | publish {batches : List (List EventMessage)} {pushes : List (Push σ)} {s s' : System σ}
      {depth : ℕ} {events : List EventMessage} {outcome : Outcome}
      (hs : Subscribed p bus s₀ batches pushes s)
      (h : System.run depth (Program.publish bus events) s = some (outcome, s'))
      (hlog : (s'.bus bus).log = ((s.bus bus).append events).log) :
      Subscribed p bus s₀ (batches ++ [events])
        (pushes ++ pushesOf p.self.id depth events bus s) s'
  | program {batches : List (List EventMessage)} {pushes : List (Push σ)} {s s' : System σ}
      {α : Type} {depth : ℕ} {program : Program σ α} {value : α}
      (hs : Subscribed p bus s₀ batches pushes s)
      (h : System.run depth program s = some (value, s'))
      (hlog : (s'.bus bus).log = (s.bus bus).log) : Subscribed p bus s₀ batches pushes s'
  | intercept {batches : List (List EventMessage)} {pushes : List (Push σ)} {s s' : System σ}
      {depth : ℕ} {interceptor : Interceptor σ} (hs : Subscribed p bus s₀ batches pushes s)
      (h : p.addInterceptor interceptor depth s = some ((), s')) :
      Subscribed p bus s₀ batches pushes s'
  | elsewhere {batches : List (List EventMessage)} {pushes : List (Push σ)} {s s' : System σ}
      (hs : Subscribed p bus s₀ batches pushes s)
      (h : Bus.Retains p.self.id (s.bus bus) (s'.bus bus))
      (hlog : (s'.bus bus).log = (s.bus bus).log) : Subscribed p bus s₀ batches pushes s'

structure Unused (p : Processor σ) (bus : BusId) (s : System σ) : Prop where
  idle : (s.processor p.self.id).subscription = none
  log : (s.bus bus).log = []
  subscriptions : (s.bus bus).subscriptions = []

def Leads (id : ℕ) (pipeline : Pipeline σ) (bus : Bus (Subscriber σ)) : Prop :=
  ∃ n rest, bus.subscriptions = (n, .processor id pipeline) :: rest ∧
    ∀ entry ∈ rest, entry.2.belongsTo id = false

section

variable {p : Processor σ} {pipeline : Pipeline σ} {bus : BusId} {s₀ s s' : System σ}
  {batches : List (List EventMessage)} {pushes : List (Push σ)} {id depth : ℕ}
  {events : List EventMessage}

lemma Leads.retained {b b' : Bus (Subscriber σ)} (h : Leads id pipeline b)
    (hr : Bus.Retains id b b') : Leads id pipeline b' := by
  obtain ⟨n, rest, hb, hrest⟩ := h
  have hself : (Subscriber.processor id pipeline).belongsTo id = true := beq_self_eq_true id
  obtain ⟨others, hothers⟩ := hr.first _ _ hb hself
  refine ⟨n, others, hothers, fun entry he => ?_⟩
  have howned := hr.owned
  have hnone : rest.filter (fun entry => entry.2.belongsTo id) = [] := by simpa using hrest
  simp only [Bus.owned, hb, hothers, List.filter_cons, hself, if_true, hnone] at howned
  have hempty := (List.cons.inj howned).2
  rw [List.filter_eq_nil_iff] at hempty
  simpa using hempty entry he

lemma leads_of_start (hk : p.kind = .subscribing pipeline bus) (hu : Unused p bus s₀)
    {outcome : Outcome} (h : p.start depth s₀ = some (outcome, s)) :
    Leads p.self.id pipeline (s.bus bus) ∧ (s.bus bus).log = [] := by
  unfold Processor.start at h
  rw [hk] at h
  obtain ⟨state, _, hstate, h⟩ := Run.bind_eq_some.mp h
  cases hstate
  rw [hu.idle] at h
  cases h
  have hbus : ((s₀.subscribe bus (.processor p.self.id pipeline)).2.bus bus) =
      ((s₀.bus bus).subscribe (.processor p.self.id pipeline)).2 := System.bus_setBus_self _ _ _
  constructor
  · refine ⟨(s₀.bus bus).nextSubscription, [], ?_, by simp⟩
    refine (congrArg Bus.subscriptions hbus).trans ?_
    simp [Bus.subscribe, hu.subscriptions]
  · exact (congrArg Bus.log hbus).trans hu.log

def Push.Processed (push : Push σ) (pipeline : Pipeline σ) : Prop :=
  push.pipeline = pipeline ∧ ∃ outcome done, System.run push.depth
    (pipeline.processBatch push.chain push.events .root) push.start = some (outcome, done)

lemma pushesAlong_eq_nil {first : ℕ} {subscribers : List (Subscriber σ)}
    (h : ∀ subscriber ∈ subscribers, subscriber.belongsTo id = false) :
    pushesAlong id depth first events subscribers s = [] := by
  induction subscribers generalizing s with
  | nil => rfl
  | cons subscriber rest ih =>
    have hrest := fun {s} => ih (s := s) fun other ho => h other (List.mem_cons_of_mem _ ho)
    have hself : subscriber.pushes id depth first events s = [] := by
      have hs := h subscriber List.mem_cons_self
      cases subscriber with
      | consumer _ => rfl
      | processor owner _ => exact if_neg (by simpa [Subscriber.belongsTo] using hs)
    rw [pushesAlong, hself, List.nil_append]
    split
    · exact hrest
    · rfl

lemma Leads.pushesOf_eq (h : Leads p.self.id pipeline (s.bus bus)) {outcome : Outcome}
    (hrun : System.run depth (Program.publish bus events) s = some (outcome, s')) :
    (∀ push ∈ pushesOf p.self.id depth events bus s, push.Processed pipeline) ∧
      (pushesOf p.self.id depth events bus s).flatMap
        (fun push => push.events.zipIdx push.first) = events.zipIdx (s.bus bus).log.length := by
  unfold pushesOf
  cases events with
  | nil => exact ⟨fun _ h => (nomatch h), rfl⟩
  | cons event more =>
    obtain ⟨n, rest, hb, hrest⟩ := h
    have hsubscribers : (s.bus bus).subscribers =
        .processor p.self.id pipeline :: rest.map Prod.snd := by rw [Bus.subscribers, hb]; rfl
    have hothers : ∀ subscriber ∈ rest.map Prod.snd, subscriber.belongsTo p.self.id = false := by
      intro subscriber hm
      obtain ⟨entry, he, rfl⟩ := List.mem_map.mp hm
      exact hrest entry he
    obtain ⟨⟨_, _⟩, hpublish, hdone⟩ := Option.bind_eq_some_iff.mp hrun
    cases hdone
    change System.deliverAll (System.deliver depth) (event :: more) (s.bus bus).subscribers
      (s.setBus bus ((s.bus bus).append (event :: more))) = _ at hpublish
    rw [hsubscribers] at hpublish
    obtain ⟨⟨first, middle⟩, hdeliver, -⟩ := Option.bind_eq_some_iff.mp hpublish
    cases depth with
    | zero => cases hdeliver
    | succ depth =>
      have hpushes : pushesAlong p.self.id (depth + 1) (s.bus bus).log.length (event :: more)
          (s.bus bus).subscribers (s.setBus bus ((s.bus bus).append (event :: more))) =
          [⟨pipeline, (s.processor p.self.id).chain, depth, (s.bus bus).log.length,
            event :: more, s.setBus bus ((s.bus bus).append (event :: more))⟩] := by
        rw [hsubscribers, pushesAlong, Subscriber.pushes, if_pos rfl, hdeliver]
        cases first with
        | error failure => rfl
        | ok _ => exact congrArg _ (pushesAlong_eq_nil hothers)
      rw [if_neg (by simp), hpushes]
      constructor
      · intro push hm
        obtain rfl := List.mem_singleton.mp hm
        exact ⟨rfl, first, middle, hdeliver⟩
      · simp

structure Pushed (p : Processor σ) (pipeline : Pipeline σ) (bus : BusId)
    (batches : List (List EventMessage)) (pushes : List (Push σ)) (s : System σ) : Prop where
  leads : Leads p.self.id pipeline (s.bus bus)
  log : (s.bus bus).log = Bus.entriesFrom 0 batches.flatten
  processed : ∀ push ∈ pushes, push.Processed pipeline
  events : pushes.flatMap (fun push => push.events.zipIdx push.first) = batches.flatten.zipIdx 0

lemma Pushed.publish (h : Pushed p pipeline bus batches pushes s) {outcome : Outcome}
    (hrun : System.run depth (Program.publish bus events) s = some (outcome, s'))
    (hlog : (s'.bus bus).log = ((s.bus bus).append events).log) :
    Pushed p pipeline bus (batches ++ [events])
      (pushes ++ pushesOf p.self.id depth events bus s) s' := by
  obtain ⟨hprocessed, hevents⟩ := h.leads.pushesOf_eq hrun
  have hlength : (s.bus bus).log.length = batches.flatten.length := by
    rw [h.log, Bus.length_entriesFrom]
  constructor
  case leads => exact h.leads.retained (System.admits_retains.of_run hrun bus)
  case log =>
    rw [hlog, List.flatten_append, List.flatten_singleton, Bus.entriesFrom_append, ← h.log,
      Nat.zero_add, ← hlength]
    rfl
  case processed =>
    intro push hm
    rcases List.mem_append.mp hm with hm | hm
    · exact h.processed push hm
    · exact hprocessed push hm
  case events =>
    rw [List.flatMap_append, h.events, hevents, hlength, List.flatten_append,
      List.flatten_singleton, List.zipIdx_append, Nat.zero_add]

lemma Pushed.aside (h : Pushed p pipeline bus batches pushes s)
    (hr : Bus.Retains p.self.id (s.bus bus) (s'.bus bus))
    (hlog : (s'.bus bus).log = (s.bus bus).log) : Pushed p pipeline bus batches pushes s' :=
  ⟨h.leads.retained hr, hlog.trans h.log, h.processed, h.events⟩

theorem Subscribed.pushed (hk : p.kind = .subscribing pipeline bus) (hu : Unused p bus s₀)
    (h : Subscribed p bus s₀ batches pushes s) : Pushed p pipeline bus batches pushes s := by
  induction h with
  | start h =>
    obtain ⟨hleads, hlog⟩ := leads_of_start hk hu h
    exact ⟨hleads, hlog, fun _ h => (nomatch h), rfl⟩
  | publish hs h hlog ih => exact ih.publish h hlog
  | program hs h hlog ih => exact ih.aside (System.admits_retains.of_run h bus) hlog
  | intercept hs h ih =>
    cases h
    exact ih.aside (Bus.retains_of_eq rfl) rfl
  | elsewhere hs h hlog ih => exact ih.aside h hlog

lemma Subscribed.calls_eq (hk : p.kind = .subscribing pipeline bus) (hu : Unused p bus s₀)
    (h : Subscribed p bus s₀ batches pushes s) (hs : pipeline.invoker.Swallows)
    (hp : ∀ push ∈ pushes, ∀ interceptor ∈ push.chain, interceptor.Passes)
    (hc : ∀ push ∈ pushes, push.Commits) :
    pushes.flatMap Push.calls = (batches.flatten.zipIdx 0).flatMap fun entry =>
      (pipeline.invoker.takers entry.1 .root []).map (⟨·, entry.2, entry.1⟩) := by
  have hpushed := h.pushed hk hu
  rw [← hpushed.events, List.flatMap_assoc]
  refine List.flatMap_congr fun push hm => ?_
  obtain ⟨hpipeline, outcome, done, hrun⟩ := hpushed.processed push hm
  obtain ⟨notes, hprocesses, hwatched⟩ := watched_processBatch hrun
  have hnotes : push.notes = notes := by
    rw [Push.notes, hpipeline, hwatched]
    rfl
  have hcommits := hc push hm
  rw [Push.Commits, hnotes] at hcommits
  rw [Push.calls, hnotes]
  exact (calls_of_processes hprocesses hs (hp push hm) hcommits push.first).2

end

end EventProcessing
