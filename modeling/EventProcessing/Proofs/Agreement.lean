import EventProcessing.Proofs.Subscribing

/-! Subscribing and tracking processors agree. A tracking processor with one segment from the tail
reads the log page by page and stores one page after the other, so that its pages put together are
the log, in which a subscribing processor was pushed the same events. -/

namespace EventProcessing

variable {σ : Type}

structure Single (t : TrackingProcessor σ) (base : ℕ → Option (Option Token)) (s : System σ) :
    Prop where
  origin : ∀ k first, base k = some first → first = none
  only : ∀ k position, t.position? s k = some position → k = 0

section Tracking

variable {p : Processor σ} {t : TrackingProcessor σ} {s₀ s s' : System σ}
  {base : ℕ → Option (Option Token)} {attempts : List (Attempt σ)} {a : Attempt σ}

lemma TrackingProcessor.Opens.single {count : ℕ} {initial : Option Token}
    (h : t.Opens count initial) (hone : t.settings.segmentCount = 1)
    (htail : t.settings.initialPosition = .tail) : count = 1 ∧ initial = none := by
  have hcount := h.count
  rw [hone] at hcount
  exact ⟨(Option.some.inj hcount).symm, h.tail htail⟩

lemma Tiled.isSome_base {k : ℕ} {position : Option Token} (h : Tiled t base attempts s k)
    (hp : t.position? s k = some position) : (base k).isSome = true := by
  cases h with
  | missing _ hp' => rw [hp] at hp'; cases hp'
  | between hb => rw [hb]; rfl

lemma Single.origin_next (h : Single t base s) {k : ℕ} {first : Option Token}
    (hf : (base k).or (t.position? s' k) = some first)
    (hnew : ∀ position, t.position? s' k = some position →
      (base k).isSome = true ∨ position = none) : first = none := by
  cases hb : base k with
  | some known =>
    rw [hb, Option.some_or] at hf
    exact h.origin k first (hb.trans hf)
  | none =>
    rw [hb, Option.none_or] at hf
    rcases hnew first hf with hsome | hnone
    · rw [hb] at hsome
      cases hsome
    · exact hnone

lemma Single.next {attempt : Option (Attempt σ)} (h : Single t base s)
    (ht : ∀ k, Tiled t base attempts s k) (he : Effect p t s s' attempt)
    (hone : t.settings.segmentCount = 1) (htail : t.settings.initialPosition = .tail) :
    Single t (fun k => (base k).or (t.position? s' k)) s' := by
  have hm := he.moves
  cases hm with
  | stay hp =>
    constructor
    · intro k first hf
      exact h.origin_next hf fun position hp' => .inl ((ht k).isSome_base (by rwa [← hp]))
    · exact fun k position hp' => h.only k position (by rwa [← hp])
  | @create initial count hn ho hc =>
    obtain ⟨rfl, rfl⟩ := ho.single hone htail
    have hcreated : ∀ k position, t.position? s' k = some position → k = 0 ∧ position = none := by
      intro k position hp
      rw [hc] at hp
      split at hp
      · next hk => exact ⟨by omega, (Option.some.inj hp).symm⟩
      · cases hp
    constructor
    · exact fun k first hf => h.origin_next hf fun position hp => .inr (hcreated k position hp).2
    · exact fun k position hp => (hcreated k position hp).1
  | @store a last hs hl hp =>
    have htoken := (he.attempted a rfl).1.token
    have hkept : ∀ k position, t.position? s' k = some position →
        ∃ earlier, t.position? s k = some earlier := by
      intro k position hp'
      rw [hp] at hp'
      split at hp'
      · next hk => exact ⟨_, hk ▸ htoken⟩
      · exact ⟨position, hp'⟩
    constructor
    · refine fun k first hf => h.origin_next hf fun position hp' => ?_
      obtain ⟨earlier, hearlier⟩ := hkept k position hp'
      exact .inl ((ht k).isSome_base hearlier)
    · intro k position hp'
      obtain ⟨earlier, hearlier⟩ := hkept k position hp'
      exact h.only k earlier hearlier

theorem Reaches.single (hk : p.kind = .tracking t) (hi : Initial p t s₀)
    (hnew : ∀ k, t.position? s₀ k = none) (hone : t.settings.segmentCount = 1)
    (htail : t.settings.initialPosition = .tail) (h : Reaches p t s₀ base attempts s) :
    Single t base s := by
  induction h with
  | init =>
    constructor
    · intro k first hf
      rw [hnew] at hf
      cases hf
    · intro k position hp
      rw [hnew] at hp
      cases hp
  | next hr ht ih => exact ih.next (hr.tiled hk hi) (hr.effect hk hi ht) hone htail

lemma Single.segment_eq (h : Single t base s) (ha : Attempted p t s a) : a.segment = .root := by
  obtain ⟨n, hn, hm, -⟩ := ha.work
  have hn1 : n = 1 := by
    have hpos := hn.pos
    by_contra hne
    obtain ⟨position, hp⟩ := (hn.created 1).mpr (by omega)
    exact absurd (h.only 1 position hp) one_ne_zero
  subst hn1
  exact List.mem_singleton.mp hm

lemma Single.pages_eq (h : Single t base s) (hk : p.kind = .tracking t) (hi : Initial p t s₀)
    (hr : Reaches p t s₀ base attempts s) (hstored : ∀ a ∈ attempts, a.stored = true)
    (hup : t.position? s 0 = some (headToken? (s.bus t.source.bus).log)) :
    attempts.flatMap Attempt.batch = (s.bus t.source.bus).log := by
  have hall := hr.attempted hk hi
  have hnumbered := (hr.log hk hi).numbered
  have htokens : (attempts.flatMap Attempt.batch).map TrackedEvent.token =
      List.range (s.bus t.source.bus).log.length := by
    have hown : attempts.filter (fun a => a.stored && a.key == 0) = attempts := by
      rw [List.filter_eq_self]
      intro a ha
      have hkey : a.key = 0 := by rw [Attempt.key, h.segment_eq (hall a ha)]; rfl
      simp [hstored a ha, hkey]
    cases hr.tiled hk hi 0 with
    | missing _ hp => rw [hup] at hp; cases hp
    | @between first last hb hp _ ht =>
      obtain rfl := h.origin 0 first hb
      rw [hup] at hp
      cases hp
      rw [storedTokens, hown, covered_headToken? hnumbered] at ht
      rw [List.map_flatMap, ht, List.range_eq_range']
      rfl
  have hlogged : ∀ entry ∈ attempts.flatMap Attempt.batch,
      (s.bus t.source.bus).log[entry.token]? = some entry := by
    intro entry hm
    obtain ⟨a, ha, hentry⟩ := List.mem_flatMap.mp hm
    exact (hall a ha).read.logged entry hentry
  have hlength : (attempts.flatMap Attempt.batch).length = (s.bus t.source.bus).log.length := by
    simpa using congrArg List.length htokens
  refine List.ext_getElem hlength fun i hi hi' => ?_
  have hat : (attempts.flatMap Attempt.batch)[i].token = i := by
    have htoken := congrArg (·[i]?) htokens
    rw [List.getElem?_map, List.getElem?_eq_getElem hi, List.getElem?_range hi'] at htoken
    exact Option.some.inj htoken
  have hentry := hlogged _ (List.getElem_mem hi)
  rw [hat, List.getElem?_eq_getElem hi'] at hentry
  exact (Option.some.inj hentry).symm

lemma entriesFrom_eq_map (n : ℕ) (events : List EventMessage) :
    Bus.entriesFrom n events = (events.zipIdx n).map fun entry => ⟨entry.2, entry.1⟩ := by
  induction events generalizing n with
  | nil => rfl
  | cons event rest ih => rw [Bus.entriesFrom, ih, List.zipIdx_cons, List.map_cons]

lemma Flawless.calls_of_caught_up {groups : List (HandlerGroup σ)} {events : List EventMessage}
    (hf : Flawless t groups attempts) (hk : p.kind = .tracking t) (hi : Initial p t s₀)
    (hsingle : Single t base s) (hr : Reaches p t s₀ base attempts s)
    (hlog : (s.bus t.source.bus).log = Bus.entriesFrom 0 events)
    (hup : t.position? s 0 = some (headToken? (s.bus t.source.bus).log)) :
    EventProcessing.calls attempts = (events.zipIdx 0).flatMap fun entry =>
      ((Invoker.all (groups.map Invoker.group)).takers entry.1 .root []).map
        (⟨·, entry.2, entry.1⟩) := by
  have hall := hr.attempted hk hi
  have hcalls := fun a ha => hf.calls_eq ha (hall a ha)
  have hpages := hsingle.pages_eq hk hi hr (fun a ha => (hcalls a ha).1) hup
  have heach : ∀ a ∈ attempts, a.calls = a.batch.flatMap fun entry =>
      ((Invoker.all (groups.map Invoker.group)).takers entry.message .root []).map
        (⟨·, entry.token, entry.message⟩) := by
    intro a ha
    rw [(hcalls a ha).2, hsingle.segment_eq (hall a ha)]
  rw [EventProcessing.calls, List.flatMap_congr heach, ← List.flatMap_assoc, hpages, hlog,
    entriesFrom_eq_map, List.flatMap_map]

end Tracking

/-- However the steps of its worker fall between the publishes, a tracking processor that has caught
up has called the same handlers for the same events, in the same order, as a subscribing processor
that was started before the first publish. -/
theorem subscribing_and_tracking_agree {groups : List (HandlerGroup σ)} {p q : Processor σ}
    {pipeline : Pipeline σ} {bus : BusId} {t : TrackingProcessor σ} {s₀ s r₀ r : System σ}
    {batches : List (List EventMessage)} {pushes : List (Push σ)}
    {base : ℕ → Option (Option Token)} {attempts : List (Attempt σ)}
    (hp : p.kind = .subscribing pipeline bus)
    (hgroups : pipeline.invoker = .all (groups.map Invoker.group)) (hunused : Unused p bus s₀)
    (hs : Subscribed p bus s₀ batches pushes s)
    (hpasses : ∀ push ∈ pushes, ∀ interceptor ∈ push.chain, interceptor.Passes)
    (hcommits : ∀ push ∈ pushes, push.Commits) (hq : q.kind = .tracking t)
    (hone : t.settings.segmentCount = 1) (htail : t.settings.initialPosition = .tail)
    (hinitial : Initial q t r₀) (hempty : t.memory r₀ = [])
    (hr : Reaches q t r₀ base attempts r) (hf : Flawless t groups attempts)
    (hlog : (r.bus t.source.bus).log = Bus.entriesFrom 0 batches.flatten)
    (hup : t.position? r 0 = some (headToken? (r.bus t.source.bus).log)) :
    pushes.flatMap Push.calls = calls attempts := by
  have hnew : ∀ k, t.position? r₀ k = none := by
    intro k
    rw [TrackingProcessor.position?, hempty]
    rfl
  have hsingle := hr.single hq hinitial hnew hone htail
  have hswallows : pipeline.invoker.Swallows := by
    rw [hgroups]
    exact swallowAll_groups hf.swallows
  rw [hs.calls_eq hp hunused hswallows hpasses hcommits,
    hf.calls_of_caught_up hq hinitial hsingle hr hlog hup, hgroups]

namespace Sample

def subscribing : Processor Unit := ⟨⟨0, "sample"⟩, "sample", .subscribing sound 0⟩

def batch : List EventMessage := [event "first", event "second"]

def subscribed : System Unit where
  shared := ()
  buses := [(0, { subscriptions := [(0, .processor 0 sound)], nextSubscription := 1 })]
  processors := [(0, { subscription := some 0 })]
  trace := [.event .info "subscribing event processor started" [("processor", "sample")]]

def push : Push Unit where
  pipeline := sound
  chain := []
  depth := 0
  first := 0
  events := batch
  start := subscribed.setBus 0 ((subscribed.bus 0).append batch)

end Sample

theorem sample_agrees : ∃ s base r,
    Subscribed Sample.subscribing 0 { shared := () } [Sample.batch] [Sample.push] s ∧
      Reaches (Sample.processor Sample.sound) (Sample.tracking Sample.sound) Sample.logged base
        [Sample.attempt Sample.sound] r ∧
      [Sample.push].flatMap Push.calls = calls [Sample.attempt Sample.sound] := by
  have hpublished : ∃ s, System.run 1 (Program.publish 0 Sample.batch) Sample.subscribed =
      some (.ok (), s) ∧ (s.bus 0).log = ((Sample.subscribed.bus 0).append Sample.batch).log :=
    ⟨_, rfl, rfl⟩
  obtain ⟨s, hpublish, hlog⟩ := hpublished
  have hstart : Subscribed Sample.subscribing 0 { shared := () } [] [] Sample.subscribed :=
    .start (by rfl : Sample.subscribing.start 1 { shared := () } = _)
  have hs : Subscribed Sample.subscribing 0 { shared := () } [Sample.batch] [Sample.push] s :=
    hstart.publish hpublish hlog
  have hstep : ∃ r, (Sample.work Sample.sound).step 1 (Sample.started Sample.sound) =
      some (.ok true, r) ∧ r.tokens = [(0, [(("sample", 0), some 1)])] ∧
      r.buses = Sample.logged.buses := ⟨_, rfl, rfl, rfl⟩
  obtain ⟨r, hstep, htokens, hbuses⟩ := hstep
  obtain ⟨base, -, hr⟩ := Sample.reaches _ _ _ hstep
  have hbus : (r.bus 0).log = Bus.entriesFrom 0 [Sample.batch].flatten := by
    rw [System.bus, hbuses]
    rfl
  have hup : (Sample.tracking Sample.sound).position? r 0 =
      some (headToken? (r.bus 0).log) := by
    rw [TrackingProcessor.position?, TrackingProcessor.memory, System.tokenMemory, htokens, hbus]
    rfl
  refine ⟨s, base, r, hs, hr, ?_⟩
  refine subscribing_and_tracking_agree rfl rfl ⟨rfl, rfl, rfl⟩ hs ?_ ?_ rfl rfl rfl
    (Sample.initial _ _ _) rfl hr Sample.sound_flawless hbus hup
  · intro push hm interceptor hi
    obtain rfl := List.mem_singleton.mp hm
    cases hi
  · intro push hm failure
    obtain rfl := List.mem_singleton.mp hm
    exact commits_of_endings failure (by decide +kernel)

end EventProcessing
