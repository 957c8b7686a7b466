import EventProcessing.Proofs.Activity
import EventProcessing.Proofs.Agreement
import EventProcessing.Proofs.Chronicle.Threads

namespace EventProcessing

variable {σ : Type}

namespace Incident

def handed? : Incident σ → Option (Handover σ)
  | .handed h => some h
  | _ => none

def answered? : Incident σ → Option (Handover σ × Outcome)
  | .answered h outcome => some (h, outcome)
  | _ => none

def settled? : Incident σ → Option Outcome
  | .settled _ _ outcome => some outcome
  | _ => none

end Incident

def handovers (moments : List (Moment σ)) : List (Handover σ) :=
  moments.filterMap (·.incident.handed?)

def answersGiven (moments : List (Moment σ)) : List (Handover σ × Outcome) :=
  moments.filterMap (·.incident.answered?)

def settlements (moments : List (Moment σ)) : List Outcome :=
  moments.filterMap (·.incident.settled?)

/-- Of the subscriptions, in their order, the first ones are given the batch and answer with
`answers`, each its own: each one before which none has failed. -/
structure Delivered (batch : ℕ × Subscriber σ → Handover σ)
    (subscriptions : List (ℕ × Subscriber σ)) (answers : List Outcome)
    (moments : List (Moment σ)) : Prop where
  bounded : answers.length ≤ subscriptions.length
  handed : handovers moments = (subscriptions.take answers.length).map batch
  answered : answersGiven moments =
    ((subscriptions.take answers.length).map batch).zip answers
  reached : ∀ i < subscriptions.length,
    i < answers.length ↔ ∀ j < i, answers[j]? = some (.ok ())

section Hands

variable {h : Handover σ} {s s' : System σ} {outcome : Outcome} {during : List (Moment σ)}

lemma Handover.Calls.filterMap_eq_nil {β : Type} {lo hi : ℕ} {moments : List (Moment σ)}
    (hc : h.Calls lo hi moments) {f : Incident σ → Option β}
    (hf : ∀ call, f (.called h call) = none) : moments.filterMap (f ·.incident) = [] := by
  obtain ⟨calls, heq, -⟩ := hc
  have hmap : moments.filterMap (f ·.incident) = (moments.map Moment.incident).filterMap f := by
    rw [List.filterMap_map]
    rfl
  rw [hmap, heq, List.filterMap_eq_nil_iff]
  intro incident hm
  obtain ⟨call, -, rfl⟩ := List.mem_map.mp hm
  exact hf call

lemma Voices.filterMap_moments {β : Type} (hv : Voices h s outcome s' during)
    {f : Incident σ → Option β} (hf : ∀ call, f (.called h call) = none) :
    (h.moments s outcome s' during).filterMap (f ·.incident) =
      (f (.handed h)).toList ++ (f (.answered h outcome)).toList := by
  rw [Handover.moments, List.filterMap_cons, List.filterMap_append, hv.filterMap_eq_nil hf,
    List.filterMap_cons, List.filterMap_nil]
  dsimp only
  cases f (.handed h) <;> cases f (.answered h outcome) <;> rfl

lemma Hands.delivered {bus : BusId} {first : ℕ} {events : List EventMessage}
    {subscriptions : List (ℕ × Subscriber σ)} {body : List (Moment σ)}
    (hh : Hands Voices bus first events subscriptions s outcome s' body) :
    ∃ answers, Delivered (fun entry => ⟨bus, first, events, entry.1, entry.2⟩) subscriptions
      answers body ∧ settlements body = [] ∧ outcome = firstFailure answers := by
  induction hh with
  | done => exact ⟨[], ⟨le_rfl, rfl, rfl, fun i hi => by cases hi⟩, rfl, rfl⟩
  | @failed number subscriber rest s s' failure during hv =>
    refine ⟨[.error failure], ⟨?_, ?_, ?_, fun i _ => ?_⟩, hv.filterMap_moments fun _ => rfl, rfl⟩
    · exact Nat.succ_le_succ (Nat.zero_le _)
    · exact hv.filterMap_moments fun _ => rfl
    · exact hv.filterMap_moments fun _ => rfl
    · cases i with
      | zero => simp
      | succ i =>
        refine ⟨fun hlt => absurd hlt (by simp), fun hok => ?_⟩
        cases hok 0 (Nat.succ_pos i)
  | next hv _ ih =>
    obtain ⟨answers, hd, hsettled, rfl⟩ := ih
    refine ⟨.ok () :: answers, ⟨?_, ?_, ?_, fun i hi => ?_⟩, ?_, rfl⟩
    · exact Nat.succ_le_succ hd.bounded
    · rw [handovers, List.filterMap_append, hv.filterMap_moments fun _ => rfl]
      exact congrArg (_ :: ·) hd.handed
    · rw [answersGiven, List.filterMap_append, hv.filterMap_moments fun _ => rfl]
      exact congrArg (_ :: ·) hd.answered
    · cases i with
      | zero => simp
      | succ i =>
        rw [List.length_cons, Nat.succ_lt_succ_iff, hd.reached i (Nat.lt_of_succ_lt_succ hi)]
        constructor
        · intro hok j hj
          cases j with
          | zero => rfl
          | succ j => exact hok j (Nat.lt_of_succ_lt_succ hj)
        · exact fun hok j hj => hok (j + 1) (Nat.succ_lt_succ hj)
    · rw [settlements, List.filterMap_append, hv.filterMap_moments fun _ => rfl]
      exact hsettled

end Hands

section Distinct

variable {s s' : System σ} {incident : Incident σ} {moments : List (Moment σ)}

inductive Reenrols (b : Bus (Subscriber σ)) (bus : BusId) :
    Incident σ → Bus (Subscriber σ) → Prop
  | subscribed (subscriber : Subscriber σ) :
      Reenrols b bus (.subscribed bus b.nextSubscription) (b.subscribe subscriber).2
  | withdrawn (number : ℕ) : Reenrols b bus (.cancelled bus number) (b.withdraw number)
  | cancelled (number : ℕ) : Reenrols b bus (.cancelled bus number) (b.cancel number)
  | kept {incident : Incident σ} {b' : Bus (Subscriber σ)}
      (hm : ∀ number, incident ≠ .subscribed bus number)
      (hc : ∀ number, incident ≠ .cancelled bus number)
      (hs : b'.subscriptions = b.subscriptions)
      (hn : b'.nextSubscription = b.nextSubscription) : Reenrols b bus incident b'

lemma Turns.reenrols (h : Turns s incident s') (bus : BusId) :
    Reenrols (s.bus bus) bus incident (s'.bus bus) := by
  have hset : ∀ {incident : Incident σ} (other : BusId) (changed : Bus (Subscriber σ)),
      (other = bus → Reenrols (s.bus other) other incident changed) →
      (other ≠ bus → (∀ number, incident ≠ .subscribed bus number) ∧
        ∀ number, incident ≠ .cancelled bus number) →
      Reenrols (s.bus bus) bus incident ((s.setBus other changed).bus bus) := by
    intro incident other changed hsame helse
    by_cases ho : other = bus
    · subst ho
      rw [System.bus_setBus_self]
      exact hsame rfl
    · rw [System.bus_setBus_of_ne _ _ (Ne.symm ho)]
      exact .kept (helse ho).1 (helse ho).2 rfl rfl
  cases h with
  | aside hb =>
    have hbus : s'.bus bus = s.bus bus := by rw [System.bus, hb, System.bus]
    rw [hbus]
    exact .kept (by simp) (by simp) rfl rfl
  | subscribed other subscriber =>
    exact hset other _ (fun _ => .subscribed subscriber) fun ho => ⟨by simp [ho], by simp⟩
  | withdrawn other number =>
    exact hset other _ (fun _ => .withdrawn number) fun ho => ⟨by simp, by simp [ho]⟩
  | cancelled other number =>
    exact hset other _ (fun _ => .cancelled number) fun ho => ⟨by simp, by simp [ho]⟩
  | published other hne =>
    exact hset other _ (fun _ => .kept (by simp) (by simp) rfl rfl) fun _ => ⟨by simp, by simp⟩
  | handed | called | answered | settled => exact .kept (by simp) (by simp) rfl rfl

lemma Reenrols.distinct {b b' : Bus (Subscriber σ)} {bus : BusId} (h : Reenrols b bus incident b')
    (hd : b.Distinct) : b'.Distinct := by
  cases h with
  | subscribed subscriber => exact hd.subscribe subscriber
  | withdrawn | cancelled => exact hd.filter _
  | kept _ _ hs hn => exact ⟨hs ▸ hd.nodup, hs ▸ hn ▸ hd.below⟩

lemma Turns.distinct (h : Turns s incident s') (hd : ∀ bus, (s.bus bus).Distinct) (bus : BusId) :
    (s'.bus bus).Distinct :=
  (h.reenrols bus).distinct (hd bus)

lemma Path.distinct (h : Path s moments s') (hd : ∀ bus, (s.bus bus).Distinct) {m : Moment σ}
    (hm : m ∈ moments) (bus : BusId) : (m.system.bus bus).Distinct := by
  induction h with
  | nil => cases hm
  | cons ht _ ih =>
    rcases List.mem_cons.mp hm with rfl | hm
    · exact ht.distinct hd bus
    · exact ih (ht.distinct hd) hm

end Distinct

section Delivered

variable {bus : BusId} {first : ℕ} {events : List EventMessage}
  {subscriptions : List (ℕ × Subscriber σ)} {answers : List Outcome} {moments : List (Moment σ)}
  (hd : Delivered (fun entry => ⟨bus, first, events, entry.1, entry.2⟩) subscriptions answers
    moments)

include hd

lemma Delivered.numbers_eq : (handovers moments).map Handover.number =
    (subscriptions.map Prod.fst).take answers.length := by
  rw [hd.handed, List.map_map, List.map_take]
  rfl

lemma Delivered.count_number (hn : (subscriptions.map Prod.fst).Nodup) {i number : ℕ}
    {subscriber : Subscriber σ} (hi : subscriptions[i]? = some (number, subscriber)) :
    ((handovers moments).map Handover.number).count number =
      if i < answers.length then 1 else 0 := by
  have hnumber : (subscriptions.map Prod.fst)[i]? = some number := by
    rw [List.getElem?_map, hi]
    rfl
  rw [hd.numbers_eq, (hn.sublist (List.take_sublist _ _)).count]
  congr 1
  rw [eq_iff_iff]
  constructor
  · intro hm
    obtain ⟨j, hj⟩ := List.mem_iff_getElem?.mp hm
    rw [List.getElem?_take] at hj
    split at hj
    · next hlt =>
      have hlen := (List.getElem?_eq_some_iff.mp hnumber).1
      rwa [(List.getElem?_inj hlen hn).mp (hnumber.trans hj.symm)]
    · cases hj
  · intro hlt
    refine List.mem_iff_getElem?.mpr ⟨i, ?_⟩
    rw [List.getElem?_take, if_pos hlt, hnumber]

end Delivered

lemma History.delivered {s₀ s r : System σ} {moments : List (Moment σ)}
    (h : History s₀ moments s) {bus : BusId} {first : ℕ} {events : List EventMessage}
    (hp : ⟨.published bus first events, r⟩ ∈ moments) :
    ∃ answers, Delivered (fun entry => ⟨bus, first, events, entry.1, entry.2⟩)
        (r.bus bus).subscriptions answers (thread bus first moments) ∧
      settlements (thread bus first moments) = [firstFailure answers] := by
  obtain ⟨body, outcome, r', hthread, hhands⟩ := h.thread_eq hp
  obtain ⟨answers, hdelivered, hsettled, rfl⟩ := hhands.delivered
  refine ⟨answers, ⟨hdelivered.bounded, ?_, ?_, hdelivered.reached⟩, ?_⟩
  · rw [hthread, ← hdelivered.handed]
    simp [handovers, publishing, Incident.handed?]
  · rw [hthread, ← hdelivered.answered]
    simp [answersGiven, publishing, Incident.answered?]
  · rw [hthread, publishing, settlements, List.filterMap_cons, List.filterMap_append]
    exact congrArg (· ++ _) hsettled

/-- A batch is given to the subscriptions in turn, once each, as long as none has failed. Whoever
comes behind the first that fails misses it, a running processor like anyone else. -/
theorem History.batch_delivered {s₀ s r : System σ} {moments : List (Moment σ)}
    (h : History s₀ moments s) (hd : ∀ bus, (s₀.bus bus).Distinct) {bus : BusId} {first : ℕ}
    {events : List EventMessage} (hp : ⟨.published bus first events, r⟩ ∈ moments) :
    ∃ answers,
      Delivered (fun entry => ⟨bus, first, events, entry.1, entry.2⟩) (r.bus bus).subscriptions
        answers (thread bus first moments) ∧
      settlements (thread bus first moments) = [firstFailure answers] ∧
      (∀ i number subscriber, (r.bus bus).subscriptions[i]? = some (number, subscriber) →
        ((handovers (thread bus first moments)).map Handover.number).count number =
          if i < answers.length then 1 else 0) ∧
      ∀ (p : Processor σ) pipeline, p.kind = .subscribing pipeline bus → p.InOrder r → p.Runs r →
        ∃ i number : ℕ, (r.processor p.self.id).subscription = some number ∧
          (r.bus bus).subscriptions[i]? =
            some (number, Subscriber.processor p.self.id pipeline) := by
  obtain ⟨answers, hall, hsettled⟩ := h.delivered hp
  have hnodup := (h.path.distinct hd hp bus).nodup
  refine ⟨answers, hall, hsettled, fun i number subscriber hi => hall.count_number hnodup hi, ?_⟩
  intro p pipeline hk horder hruns
  obtain ⟨number, hnumber, howned⟩ := horder.owned_of_runs hk hruns
  have hm : (number, Subscriber.processor p.self.id pipeline) ∈ (r.bus bus).owned p.self.id := by
    rw [howned]
    exact List.mem_singleton_self _
  obtain ⟨i, hi⟩ := List.mem_iff_getElem?.mp (Bus.mem_owned.mp hm).1
  exact ⟨i, number, hnumber, hi⟩

namespace Sample

def refusing : Consumer Unit := .mk fun _ => return .error (.report "rejected")

def overshadowed : System Unit where
  shared := ()
  buses := [(0, {
    subscriptions := [(0, .consumer refusing), (1, .processor 0 sound)]
    nextSubscription := 2 })]
  processors := [(0, { subscription := some 1 })]

lemma overshadowed_bus {bus : BusId} (h : bus ≠ 0) : overshadowed.bus bus = {} := by
  simp [System.bus, overshadowed, Table.get?, h.symm]

lemma distinct_of_two {s : System Unit} {first second : Subscriber Unit}
    (h : s.buses = [(0, {
      subscriptions := [(0, first), (1, second)]
      nextSubscription := 2 })]) (bus : BusId) : (s.bus bus).Distinct := by
  by_cases hb : bus = 0
  · subst hb
    rw [System.bus, h]
    refine ⟨by simp [Table.get?], fun entry he => ?_⟩
    rcases List.mem_cons.mp he with rfl | he
    · exact Nat.zero_lt_two
    · cases List.mem_singleton.mp he
      exact Nat.one_lt_two
  · have hbus : s.bus bus = {} := by simp [System.bus, h, Table.get?, Ne.symm hb]
    rw [hbus]
    exact ⟨.nil, fun entry he => by cases he⟩

def rejection (s : System Unit) : List (Moment Unit) :=
  publishing 0 0 batch s (Handover.moments ⟨0, 0, batch, 0, .consumer refusing⟩ s
    (.error (.report "rejected")) s []) (.error (.report "rejected")) s

lemma overshadowed_history : History overshadowed (rejection (overshadowed.logged 0 batch))
    (overshadowed.logged 0 batch) := by
  have hdelivers : Delivers 1 ⟨0, 0, batch, 0, .consumer refusing⟩ (overshadowed.logged 0 batch)
      (.error (.report "rejected")) (overshadowed.logged 0 batch) [] := Executes.done
  have hanswers : Answers (Delivers 1) (.publish 0 batch) overshadowed
      (.error (.report "rejected")) (overshadowed.logged 0 batch)
      (rejection (overshadowed.logged 0 batch)) := .publish (by simp [batch]) (.failed hdelivers)
  have hexecutes : Executes (Delivers 1) none (.ofProgram (Program.publish 0 batch)) overshadowed
      (.error (.report "rejected")) (overshadowed.logged 0 batch)
      (rejection (overshadowed.logged 0 batch) ++ []) := .ask hanswers .done
  exact .program .start hexecutes

lemma subscribing_inOrder : subscribing.InOrder overshadowed := by
  constructor
  case owned =>
    intro bus
    by_cases hb : bus = 0
    · subst hb
      rfl
    · rw [overshadowed_bus hb, Processor.listing_of_subscribing rfl, if_neg hb]
      rfl
  case workers =>
    intro id worker hw
    cases hw

lemma logged_spares (s : System Unit) : s.Spares (s.logged 0 batch) :=
  System.stores_spares.setBus s 0 _ (.append batch)

end Sample

theorem overshadowed_batch_delivered :
    History Sample.overshadowed (Sample.rejection (Sample.overshadowed.logged 0 Sample.batch))
        (Sample.overshadowed.logged 0 Sample.batch) ∧
      Sample.subscribing.InOrder (Sample.overshadowed.logged 0 Sample.batch) ∧
      Sample.subscribing.Runs (Sample.overshadowed.logged 0 Sample.batch) ∧
      ∃ answers, Delivered (fun entry => ⟨0, 0, Sample.batch, entry.1, entry.2⟩)
        ((Sample.overshadowed.logged 0 Sample.batch).bus 0).subscriptions answers
        (thread 0 0 (Sample.rejection (Sample.overshadowed.logged 0 Sample.batch))) := by
  have hp : ⟨.published 0 0 Sample.batch, Sample.overshadowed.logged 0 Sample.batch⟩ ∈
      Sample.rejection (Sample.overshadowed.logged 0 Sample.batch) := List.mem_cons_self
  obtain ⟨answers, hd, -⟩ :=
    Sample.overshadowed_history.batch_delivered (Sample.distinct_of_two rfl) hp
  exact ⟨Sample.overshadowed_history, Sample.subscribing_inOrder.spares (Sample.logged_spares _),
    rfl, answers, hd⟩

theorem failing_subscriber_hides_batch : ∃ moments s r,
    System.run 1 (Program.publish 0 Sample.batch) Sample.overshadowed =
        some (.error (.report "rejected"), s) ∧
      History Sample.overshadowed moments s ∧
      ⟨.published 0 0 Sample.batch, r⟩ ∈ moments ∧
      Sample.subscribing.Runs r ∧
      (1, Subscriber.processor 0 Sample.sound) ∈ (r.bus 0).subscriptions ∧
      (handovers moments).map Handover.number = [0] :=
  ⟨_, _, _, rfl, Sample.overshadowed_history, List.mem_cons_self, rfl,
    List.mem_cons_of_mem _ List.mem_cons_self, rfl⟩

end EventProcessing
