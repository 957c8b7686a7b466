import EventProcessing.Proofs.Chronicle.Deliveries

namespace EventProcessing

variable {σ α : Type}

namespace Incident

def cancels (bus : BusId) (number : ℕ) : Incident σ → Bool
  | .cancelled other n => decide (other = bus ∧ number = n)
  | _ => false

lemma cancels_iff {bus : BusId} {number : ℕ} {incident : Incident σ} :
    incident.cancels bus number = true ↔ incident = .cancelled bus number := by
  cases incident <;> simp [cancels, @eq_comm _ number]

end Incident

def Moment.subscription? (bus : BusId) (m : Moment σ) : Option (ℕ × Subscriber σ) :=
  match m.incident with
  | .subscribed other _ => if other = bus then (m.system.bus bus).subscriptions.getLast? else none
  | _ => none

def Moment.ByConsumer (bus : BusId) (m : Moment σ) : Prop :=
  ∀ entry, m.subscription? bus = some entry → entry.2.isConsumer = true

def cancelledIn (bus : BusId) (number : ℕ) (moments : List (Moment σ)) : Bool :=
  moments.any fun m => m.incident.cancels bus number

def subscriptionsMade (bus : BusId) (moments : List (Moment σ)) : List (ℕ × Subscriber σ) :=
  moments.filterMap (·.subscription? bus)

def standing (bus : BusId) : List (Moment σ) → List (ℕ × Subscriber σ)
  | [] => []
  | m :: rest =>
    (m.subscription? bus).toList.filter (fun entry => !cancelledIn bus entry.1 rest) ++
      standing bus rest

def ended (bus : BusId) : List (Moment σ) → List (ℕ × Subscriber σ)
  | [] => []
  | m :: rest =>
    (m.subscription? bus).toList.filter (fun entry => cancelledIn bus entry.1 rest) ++
      ended bus rest

lemma length_standing (bus : BusId) (moments : List (Moment σ)) :
    (standing bus moments).length + (ended bus moments).length =
      (subscriptionsMade bus moments).length := by
  induction moments with
  | nil => rfl
  | cons m rest ih =>
    rw [standing, ended, subscriptionsMade, List.filterMap_cons]
    rw [subscriptionsMade] at ih
    cases m.subscription? bus with
    | none => exact ih
    | some entry =>
      cases hc : cancelledIn bus entry.1 rest <;> simp [hc] <;> omega

section Path

variable {s s' : System σ} {m : Moment σ} {moments : List (Moment σ)} {bus : BusId}

lemma Moment.subscription?_of_ne (hm : ∀ number, m.incident ≠ .subscribed bus number) :
    m.subscription? bus = none := by
  unfold subscription?
  split
  · next other number he =>
    rw [if_neg]
    rintro rfl
    exact hm number he
  · rfl

lemma Moment.subscription?_of_eq {number : ℕ} (hm : m.incident = .subscribed bus number) :
    m.subscription? bus = (m.system.bus bus).subscriptions.getLast? := by
  unfold subscription?
  rw [hm]
  exact if_pos rfl

lemma Turns.subscriptions_eq (h : Turns s m.incident m.system)
    (hs : ∀ entry ∈ (s.bus bus).subscriptions, entry.2.isConsumer = true) :
    (m.system.bus bus).subscriptions =
      (s.bus bus).subscriptions.filter (fun entry => !m.incident.cancels bus entry.1) ++
        (m.subscription? bus).toList := by
  have hr := h.reenrols bus
  generalize hi : m.incident = incident at hr
  generalize hb : m.system.bus bus = b at hr
  cases hr with
  | subscribed subscriber =>
    rw [Moment.subscription?_of_eq hi, hb]
    simp [Bus.subscribe, Incident.cancels]
  | withdrawn number =>
    rw [Moment.subscription?_of_ne (by simp [hi]), Option.toList_none, List.append_nil]
    refine List.filter_congr fun entry he => ?_
    simp [hs entry he, Incident.cancels, beq_eq_decide]
  | cancelled number =>
    rw [Moment.subscription?_of_ne (by simp [hi]), Option.toList_none, List.append_nil]
    refine List.filter_congr fun entry he => ?_
    simp [Incident.cancels, bne, beq_eq_decide]
  | kept hm hc hsame =>
    rw [Moment.subscription?_of_ne (hi ▸ hm), Option.toList_none, List.append_nil, hsame]
    refine (List.filter_eq_self.mpr fun entry _ => ?_).symm
    rw [Bool.not_eq_true', Bool.eq_false_iff]
    exact fun hcancels => hc _ (Incident.cancels_iff.mp hcancels)

lemma Path.subscriptions_eq (h : Path s moments s')
    (hs : ∀ entry ∈ (s.bus bus).subscriptions, entry.2.isConsumer = true)
    (hm : ∀ m ∈ moments, m.ByConsumer bus) :
    (s'.bus bus).subscriptions =
      (s.bus bus).subscriptions.filter (fun entry => !cancelledIn bus entry.1 moments) ++
        standing bus moments := by
  induction h with
  | nil s => simp [cancelledIn, standing]
  | @cons s s' m rest ht _ ih =>
    have hturn := ht.subscriptions_eq hs
    have hconsumers : ∀ entry ∈ (m.system.bus bus).subscriptions, entry.2.isConsumer = true := by
      intro entry he
      rw [hturn] at he
      rcases List.mem_append.mp he with he | he
      · exact hs entry (List.mem_of_mem_filter he)
      · exact hm m List.mem_cons_self entry (Option.mem_toList.mp he)
    rw [ih hconsumers fun m hm' => hm m (List.mem_cons_of_mem _ hm'), hturn, standing,
      List.filter_append, List.filter_filter, List.append_assoc]
    congr 2
    funext entry
    simp [cancelledIn, Bool.and_comm]

structure Bus.Past (b : Bus (Subscriber σ)) (number : ℕ) : Prop where
  given : number < b.nextSubscription
  absent : number ∉ b.subscriptions.map Prod.fst

lemma Reenrols.next_le {b b' : Bus (Subscriber σ)} {incident : Incident σ}
    (h : Reenrols b bus incident b') : b.nextSubscription ≤ b'.nextSubscription := by
  cases h with
  | subscribed | withdrawn | cancelled => simp [Bus.subscribe, Bus.withdraw, Bus.cancel]
  | kept _ _ _ hn => exact hn.ge

lemma Reenrols.past {b b' : Bus (Subscriber σ)} {incident : Incident σ} {number : ℕ}
    (h : Reenrols b bus incident b') (hp : b.Past number) : b'.Past number := by
  refine ⟨hp.given.trans_le h.next_le, ?_⟩
  cases h with
  | subscribed subscriber =>
    change number ∉ (b.subscriptions ++ [(b.nextSubscription, subscriber)]).map Prod.fst
    rw [List.map_append, List.mem_append, not_or]
    exact ⟨hp.absent, fun hm => hp.given.ne (List.mem_singleton.mp hm)⟩
  | withdrawn other => exact fun hm => hp.absent ((List.filter_sublist.map Prod.fst).subset hm)
  | cancelled other => exact fun hm => hp.absent ((List.filter_sublist.map Prod.fst).subset hm)
  | kept _ _ hs => rw [hs]; exact hp.absent

lemma Path.past {number : ℕ} (h : Path s moments s') (hp : (s.bus bus).Past number) :
    (s'.bus bus).Past number := by
  induction h with
  | nil => exact hp
  | cons ht _ ih => exact ih ((ht.reenrols bus).past hp)

lemma Path.next_le (h : Path s moments s') :
    (s.bus bus).nextSubscription ≤ (s'.bus bus).nextSubscription := by
  induction h with
  | nil => exact le_rfl
  | cons ht _ ih => exact (ht.reenrols bus).next_le.trans ih

lemma Reenrols.number_eq {b b' : Bus (Subscriber σ)} {number : ℕ}
    (h : Reenrols b bus (.subscribed bus number) b') :
    number = b.nextSubscription ∧ number < b'.nextSubscription := by
  cases h with
  | subscribed subscriber => exact ⟨rfl, Nat.lt_succ_self _⟩
  | kept hm => exact absurd rfl (hm number)

lemma Path.number_range (h : Path s moments s') {number : ℕ} {r : System σ}
    (hm : ⟨.subscribed bus number, r⟩ ∈ moments) :
    (s.bus bus).nextSubscription ≤ number ∧ number < (s'.bus bus).nextSubscription := by
  obtain ⟨before, after, rfl⟩ := List.append_of_mem hm
  obtain ⟨hbefore, hrest⟩ := h.split
  cases hrest with
  | cons ht hafter =>
    obtain ⟨heq, hlt⟩ := (ht.reenrols bus).number_eq
    exact ⟨heq ▸ hbefore.next_le, hlt.trans_le hafter.next_le⟩

lemma Turns.past_of_cancelled {number : ℕ} (h : Turns s (.cancelled bus number) s')
    (hg : number < (s.bus bus).nextSubscription)
    (hs : ∀ entry ∈ (s.bus bus).subscriptions, entry.2.isConsumer = true) :
    (s'.bus bus).Past number := by
  have hsubscriptions := subscriptions_eq (m := ⟨.cancelled bus number, s'⟩) h hs
  refine ⟨hg.trans_le (h.reenrols bus).next_le, fun hm => ?_⟩
  obtain ⟨entry, he, rfl⟩ := List.mem_map.mp hm
  rw [hsubscriptions, Moment.subscription?_of_ne (by simp), Option.toList_none,
    List.append_nil] at he
  have hkept := (List.mem_filter.mp he).2
  simp [Incident.cancels] at hkept

end Path

section Executes

variable {bus : BusId} {D : Delivering σ} {s s' : System σ}
  (hd : ∀ h s outcome s' during, D h s outcome s' during → ∀ m ∈ during, m.ByConsumer bus)

lemma Moment.ByConsumer.of_ne {m : Moment σ} (hm : ∀ number, m.incident ≠ .subscribed bus number) :
    m.ByConsumer bus := by
  intro entry he
  rw [subscription?_of_ne hm] at he
  cases he

lemma byConsumer_of_enclosed {opening closing : Moment σ} {body : List (Moment σ)}
    (ho : ∀ number, opening.incident ≠ .subscribed bus number)
    (hc : ∀ number, closing.incident ≠ .subscribed bus number)
    (hb : ∀ m ∈ body, m.ByConsumer bus) :
    ∀ m ∈ opening :: (body ++ [closing]), m.ByConsumer bus := by
  intro m hm
  rcases List.mem_cons.mp hm with rfl | hm
  · exact .of_ne ho
  · rcases List.mem_append.mp hm with hm | hm
    · exact hb m hm
    · rw [List.mem_singleton.mp hm]
      exact .of_ne hc

include hd

lemma Hands.byConsumer {other : BusId} {first : ℕ} {events : List EventMessage}
    {subscriptions : List (ℕ × Subscriber σ)} {outcome : Outcome} {body : List (Moment σ)}
    (h : Hands D other first events subscriptions s outcome s' body) :
    ∀ m ∈ body, m.ByConsumer bus := by
  have hone : ∀ h s outcome s' during, D h s outcome s' during →
      ∀ m ∈ h.moments s outcome s' during, m.ByConsumer bus :=
    fun h s outcome s' during hh =>
      byConsumer_of_enclosed (by simp) (by simp) (hd h s outcome s' during hh)
  induction h with
  | done => exact fun m hm => by cases hm
  | failed h => exact hone _ _ _ _ _ h
  | next h _ ih => exact fun m hm => (List.mem_append.mp hm).elim (hone _ _ _ _ _ h m) (ih m)

lemma Answers.byConsumer {request : Request σ} {reply : request.Reply} {moments : List (Moment σ)}
    (h : Answers D request s reply s' moments) : ∀ m ∈ moments, m.ByConsumer bus := by
  cases h with
  | plain hp h =>
    intro m hm
    rw [List.mem_singleton.mp hm]
    exact .of_ne (by cases request <;> simp [Request.incident])
  | publish hne h => exact byConsumer_of_enclosed (by simp) (by simp) (h.byConsumer hd)

lemma Executes.byConsumer {own : Option (Handover σ)} {script : Script σ α} {value : α}
    {moments : List (Moment σ)} (h : Executes D own script s value s' moments) :
    ∀ m ∈ moments, m.ByConsumer bus := by
  induction h with
  | done => exact fun m hm => by cases hm
  | ask h _ ih => exact fun m hm => (List.mem_append.mp hm).elim (h.byConsumer hd m) (ih m)
  | @subscribe other consumer next s s' _ _ _ ih =>
    intro m hm
    rcases List.mem_cons.mp hm with rfl | hm
    · by_cases ho : other = bus
      · subst ho
        intro entry he
        have hself : (s.subscribe other (.consumer consumer)).2.bus other =
            ((s.bus other).subscribe (.consumer consumer)).2 := System.bus_setBus_self _ _ _
        rw [Moment.subscription?_of_eq rfl, hself, Bus.subscribe, List.getLast?_concat] at he
        cases he
        rfl
      · exact .of_ne (by simp [ho])
    · exact ih m hm
  | mark _ ih =>
    intro m hm
    rcases List.mem_cons.mp hm with rfl | hm
    · refine .of_ne ?_
      cases ‹Option (Handover σ)› <;> simp
    · exact ih m hm

omit hd in
lemma Delivers.byConsumer {depth : ℕ} {h : Handover σ} {outcome : Outcome}
    {during : List (Moment σ)} (hh : Delivers depth h s outcome s' during) :
    ∀ m ∈ during, m.ByConsumer bus := by
  induction depth generalizing h s outcome s' during with
  | zero => exact hh.elim
  | succ depth ih => exact Executes.byConsumer (fun _ _ _ _ _ hd => ih hd) hh

end Executes

section Delivery

variable {s₀ s r : System σ} {before after moments : List (Moment σ)} {bus : BusId} {first : ℕ}
  {events : List EventMessage}

lemma Path.bus_distinct (h : Path s₀ moments s) (hd : (s₀.bus bus).Distinct) :
    (s.bus bus).Distinct := by
  induction h with
  | nil => exact hd
  | cons ht _ ih => exact ih ((ht.reenrols bus).distinct hd)

/-- A batch, published after `before` and ahead of `after`, goes to those that had a subscription
when its delivery began, in their order and once each, up to the first that fails. Whatever is
subscribed or cancelled later makes no difference to it. -/
structure Snapshot (bus : BusId) (first : ℕ) (events : List EventMessage)
    (before after moments : List (Moment σ)) : Prop where
  nonempty : events ≠ []
  delivered : ∃ answers,
    Delivered (fun entry => ⟨bus, first, events, entry.1, entry.2⟩) (standing bus before) answers
      (thread bus first moments) ∧
    settlements (thread bus first moments) = [firstFailure answers]
  once : ((handovers (thread bus first moments)).map Handover.number).Nodup
  cancelled : ∀ early m late number, before = early ++ m :: late →
    m.incident = .cancelled bus number → number ∈ (subscriptionsMade bus early).map Prod.fst →
      number ∉ (handovers (thread bus first moments)).map Handover.number
  subscribed : ∀ m ∈ after, ∀ number, m.incident = .subscribed bus number →
    number ∉ (handovers (thread bus first moments)).map Handover.number

lemma Moment.mem_of_subscription? {m : Moment σ} {entry : ℕ × Subscriber σ}
    (h : m.subscription? bus = some entry) : entry ∈ (m.system.bus bus).subscriptions := by
  unfold subscription? at h
  split at h
  · split at h
    · exact List.mem_of_getLast? h
    · cases h
  · cases h

lemma mem_subscriptionsMade {entry : ℕ × Subscriber σ} :
    entry ∈ subscriptionsMade bus moments ↔ ∃ m ∈ moments, m.subscription? bus = some entry :=
  List.mem_filterMap

lemma mem_of_standing {entry : ℕ × Subscriber σ} (h : entry ∈ standing bus moments) :
    entry ∈ subscriptionsMade bus moments := by
  induction moments with
  | nil => cases h
  | cons m rest ih =>
    rw [mem_subscriptionsMade]
    rcases List.mem_append.mp h with h | h
    · exact ⟨m, List.mem_cons_self, Option.mem_toList.mp (List.mem_of_mem_filter h)⟩
    · obtain ⟨m', hm, he⟩ := mem_subscriptionsMade.mp (ih h)
      exact ⟨m', List.mem_cons_of_mem _ hm, he⟩

section New

variable (h : Path s₀ moments s) (hnew : (s₀.bus bus).subscriptions = [])

include h hnew

lemma Path.distinct_of_new : (s.bus bus).Distinct :=
  h.bus_distinct ⟨by simp [hnew], by simp [hnew]⟩

lemma Path.subscriptions_eq_standing (hm : ∀ m ∈ moments, m.ByConsumer bus) :
    (s.bus bus).subscriptions = standing bus moments := by
  rw [h.subscriptions_eq (by simp [hnew]) hm, hnew, List.filter_nil, List.nil_append]

lemma Path.consumers_of_new (hm : ∀ m ∈ moments, m.ByConsumer bus) :
    ∀ entry ∈ (s.bus bus).subscriptions, entry.2.isConsumer = true := by
  intro entry he
  rw [h.subscriptions_eq_standing hnew hm] at he
  obtain ⟨m, hmem, hmade⟩ := mem_subscriptionsMade.mp (mem_of_standing he)
  exact hm m hmem entry hmade

lemma Path.made_lt {number : ℕ} (hn : number ∈ (subscriptionsMade bus moments).map Prod.fst) :
    number < (s.bus bus).nextSubscription := by
  obtain ⟨entry, hmem, rfl⟩ := List.mem_map.mp hn
  obtain ⟨m, hm, hmade⟩ := mem_subscriptionsMade.mp hmem
  obtain ⟨early, late, rfl⟩ := List.append_of_mem hm
  obtain ⟨hearly, hrest⟩ := h.split
  cases hrest with
  | cons ht hlate =>
    have hdistinct := (hearly.append (.one ht)).distinct_of_new hnew
    exact (hdistinct.below entry (Moment.mem_of_subscription? hmade)).trans_le hlate.next_le

end New

lemma History.snapshot (h : History s₀ moments s) (hnew : (s₀.bus bus).subscriptions = [])
    (hm : ∀ m ∈ moments, m.ByConsumer bus)
    (heq : moments = before ++ ⟨.published bus first events, r⟩ :: after) :
    Snapshot bus first events before after moments := by
  have hp : ⟨.published bus first events, r⟩ ∈ moments := by rw [heq]; simp
  obtain ⟨answers, hdelivered, hsettled⟩ := h.delivered hp
  have hpath := heq ▸ h.path
  obtain ⟨hbefore, hrest⟩ := hpath.split
  cases hrest with
  | cons ht hafter =>
    have hr := hbefore.append (.one ht)
    have hdistinct := hr.distinct_of_new hnew
    have hmbefore : ∀ m ∈ before, m.ByConsumer bus := fun m hm' =>
      hm m (heq ▸ List.mem_append_left _ hm')
    have hsame : (r.bus bus).subscriptions = standing bus before := by
      rw [← hbefore.subscriptions_eq_standing hnew hmbefore]
      cases ht with
      | published _ _ => exact subscriptions_logged _ _ _
    have hnumbers : ∀ number ∈ (handovers (thread bus first moments)).map Handover.number,
        number ∈ (r.bus bus).subscriptions.map Prod.fst := fun number hn => by
      rw [hdelivered.numbers_eq] at hn
      exact List.mem_of_mem_take hn
    constructor
    case nonempty => exact (h.path.published hp).1
    case delivered => exact ⟨answers, hsame ▸ hdelivered, hsettled⟩
    case once =>
      rw [hdelivered.numbers_eq]
      exact hdistinct.nodup.sublist (List.take_sublist _ _)
    case cancelled =>
      rintro early m late number rfl hcancelled hmade hn
      obtain ⟨hearly, hlater⟩ := hbefore.split
      cases hlater with
      | cons hturn hlate =>
        have hmearly : ∀ m ∈ early, m.ByConsumer bus := fun m hm' =>
          hmbefore m (List.mem_append_left _ hm')
        have hpast := (hcancelled ▸ hturn).past_of_cancelled (hearly.made_lt hnew hmade)
          (hearly.consumers_of_new hnew hmearly)
        exact ((ht.reenrols bus).past (hlate.past hpast)).absent (hnumbers number hn)
    case subscribed =>
      intro m hm' number hsubscribed hn
      obtain ⟨entry, he, rfl⟩ := List.mem_map.mp (hnumbers number hn)
      have hlt := hdistinct.below entry he
      have hlater : ⟨.subscribed bus entry.1, m.system⟩ ∈ after := by
        rw [← hsubscribed]
        exact hm'
      have hle := (hafter.number_range hlater).1
      exact absurd hlt hle.not_gt

lemma History.published_of_handed (h : History s₀ moments s) {handover : Handover σ}
    (hm : handover ∈ handovers moments) :
    ∃ r, ⟨.published handover.bus handover.first handover.events, r⟩ ∈ moments := by
  obtain ⟨m, hmem, hh⟩ := List.mem_filterMap.mp hm
  have hincident : m.incident = .handed handover := by
    cases hi : m.incident <;> rw [hi] at hh <;> cases hh
    rfl
  have hpublish : m.incident.publish? = some (handover.bus, handover.first) := by
    rw [hincident]
    rfl
  obtain ⟨i, hi⟩ := List.mem_iff_getElem?.mp hmem
  obtain ⟨k, -, events, r, hk⟩ := (h.begun hi hpublish).published
  have hp := List.mem_of_getElem? hk
  obtain ⟨answers, hdelivered, -⟩ := h.delivered hp
  have hthread : handover ∈ handovers (thread handover.bus handover.first moments) :=
    List.mem_filterMap.mpr ⟨m, List.mem_filter.mpr ⟨hmem, decide_eq_true hpublish⟩, hh⟩
  rw [hdelivered.handed] at hthread
  obtain ⟨entry, -, heq⟩ := List.mem_map.mp hthread
  have hevents : events = handover.events := congrArg Handover.events heq
  exact ⟨r, hevents ▸ hp⟩

end Delivery

/-- Whatever programs subscribe, cancel and publish, deliveries inside deliveries included: every
batch goes to those that had a subscription when its delivery began, nobody is called but for a
batch that is not empty, and a bus has as many subscriptions as were made and not cancelled. -/
theorem batches_follow_snapshots {depth : ℕ} {program : Program σ α} {s s' : System σ} {value : α}
    {bus : BusId} (hnew : (s.bus bus).subscriptions = [])
    (h : System.run depth program s = some (value, s')) :
    (∃ moments, Executes (Delivers depth) none (.ofProgram program) s value s' moments) ∧
    ∀ moments, Executes (Delivers depth) none (.ofProgram program) s value s' moments →
      (∀ before first events r after,
        moments = before ++ ⟨.published bus first events, r⟩ :: after →
          Snapshot bus first events before after moments) ∧
      (∀ h ∈ handovers moments, h.bus = bus →
        ∃ r, ⟨.published bus h.first h.events, r⟩ ∈ moments) ∧
      (∀ nested (t t' : System σ) reply xs,
        Answers (Delivers nested) (.publish bus []) t reply t' xs →
          reply = .ok () ∧ t' = t ∧ handovers xs = []) ∧
      ∀ before after, moments = before ++ after →
        ((s.after before).view bus).subscriptions.length + (ended bus before).length =
          (subscriptionsMade bus before).length := by
  refine ⟨run_iff_executes.mp h, fun moments he => ?_⟩
  have hhistory : History s moments s' := .program .start he
  have hconsumers : ∀ m ∈ moments, m.ByConsumer bus :=
    he.byConsumer fun _ _ _ _ _ hd => hd.byConsumer
  refine ⟨fun before first events r after heq => hhistory.snapshot hnew hconsumers heq,
    fun h hm hb => hb ▸ hhistory.published_of_handed hm, fun nested t t' reply xs ha => ?_,
    fun before after heq => ?_⟩
  · cases ha with
    | plain _ h =>
      cases h
      exact ⟨rfl, rfl, rfl⟩
    | publish hne => exact absurd rfl hne
  · subst heq
    have hbefore := hhistory.path.split.1
    rw [← length_standing, ← hbefore.subscriptions_eq_standing hnew fun m hm =>
      hconsumers m (List.mem_append_left _ hm)]
    simp [System.view]

namespace Sample

def idle : Consumer Unit := .mk fun _ => return .ok ()

def replacing : Consumer Unit := .mk fun _ => do
  Program.cancel 0 1
  let _ ← Program.subscribe 0 idle.react
  return .ok ()

def replaced : Program Unit Outcome := do
  let _ ← Program.subscribe 0 replacing.react
  let _ ← Program.subscribe 0 idle.react
  let _ ← Program.publish 0 batch
  Program.publish 0 batch

def deserted : System Unit where
  shared := ()

def listening : System Unit :=
  ((deserted.subscribe 0 (.consumer replacing)).2.subscribe 0 (.consumer idle)).2

lemma executes_replaced : ∃ moments s,
    Executes (Delivers 1) none (.ofProgram replaced) deserted (.ok ()) s moments ∧
      (handovers moments).map Handover.number = [0, 1, 0, 2] := by
  have hreplacing : ∀ first number s,
      Delivers 1 ⟨0, first, batch, number, .consumer replacing⟩ s (.ok ())
        ((s.withdraw 0 1).subscribe 0 (.consumer idle)).2 _ :=
    fun first number s => Executes.ask (.plain trivial rfl) (.subscribe .done)
  have hidle : ∀ first number s,
      Delivers 1 ⟨0, first, batch, number, .consumer idle⟩ s (.ok ()) s [] :=
    fun first number s => Executes.done
  have hfirst : Answers (Delivers 1) (.publish 0 batch) listening (.ok ()) _ _ :=
    .publish (by simp [batch]) (.next (hreplacing ..) (.next (hidle ..) .done))
  let between := ((listening.logged 0 batch).withdraw 0 1).subscribe 0 (.consumer idle) |>.2
  have hsecond : Answers (Delivers 1) (.publish 0 batch) between (.ok ()) _ _ :=
    .publish (by simp [batch]) (.next (hreplacing ..) (.next (hidle ..) .done))
  have hexecutes : Executes (Delivers 1) none (.ofProgram replaced) deserted (.ok ()) _ _ :=
    .subscribe (.subscribe (.ask hfirst (.ask hsecond .done)))
  exact ⟨_, _, hexecutes, rfl⟩

end Sample

theorem replaced_follow_snapshots : ∃ (moments : List (Moment Unit)) (s : System Unit),
    System.run 1 Sample.replaced Sample.deserted = some (.ok (), s) ∧
    (handovers moments).map Handover.number = [0, 1, 0, 2] ∧
    ∀ before first events r after,
      moments = before ++ ⟨.published 0 first events, r⟩ :: after →
        Snapshot 0 first events before after moments := by
  obtain ⟨moments, s, he, hnumbers⟩ := Sample.executes_replaced
  have hrun := run_iff_executes.mpr ⟨moments, he⟩
  exact ⟨moments, s, hrun, hnumbers, ((batches_follow_snapshots rfl hrun).2 moments he).1⟩

end EventProcessing
