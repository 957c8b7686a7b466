import EventProcessing.Proofs.Segments
import EventProcessing.Proofs.Takers
import EventProcessing.Proofs.Tracking.Dispatch

namespace EventProcessing

variable {σ : Type}

def Attempt.calls (a : Attempt σ) : List Call := callsFrom (covered a.token) a.notes

def Attempt.Commits (a : Attempt σ) : Prop :=
  ∀ failure, .ended (.committed (.error failure)) ∉ a.notes

lemma calls_of_processes {pipeline : Pipeline σ} {chain : List (Interceptor σ)}
    {segment : Segment} {events : List EventMessage} {outcome : Outcome} {notes : List Note}
    (h : Processes pipeline chain segment events outcome notes)
    (hs : pipeline.invoker.Swallows) (hp : ∀ interceptor ∈ chain, interceptor.Passes)
    (hc : ∀ failure, .ended (.committed (.error failure)) ∉ notes) (m : ℕ) :
    outcome = .ok () ∧ callsFrom m notes = (events.zipIdx m).flatMap fun entry =>
      (pipeline.invoker.takers entry.1 segment []).map (⟨·, entry.2, entry.1⟩) := by
  obtain ⟨hi, hcloses, hd⟩ := h
  rw [Ingests.callsFrom_whole hcloses hd, hi.callsFrom_eq hp hs]
  obtain rfl := hi.failure_eq_none hp hs
  cases hcloses with
  | committed =>
    cases hd
    exact ⟨rfl, rfl⟩
  | commitFailed failure => exact absurd (by simp) (hc failure)

section Calls

variable {p : Processor σ} {t : TrackingProcessor σ} {s₀ s : System σ}
  {base : ℕ → Option (Option Token)} {attempts : List (Attempt σ)} {a : Attempt σ}

lemma zipIdx_map {α β : Type} {f : α → β} {g : α → ℕ} {l : List α} {n : ℕ}
    (h : l.map g = List.range' n l.length) : (l.map f).zipIdx n = l.map fun x => (f x, g x) := by
  induction l generalizing n with
  | nil => rfl
  | cons x rest ih =>
    obtain ⟨hx, hrest⟩ := List.cons.inj h
    rw [List.map_cons, List.zipIdx_cons, ih hrest, List.map_cons, hx]

lemma Attempted.calls_eq (h : Attempted p t s a) (hs : t.pipeline.invoker.Swallows)
    (hp : ∀ interceptor ∈ a.chain, interceptor.Passes) (hc : a.Commits)
    (ha : t.tokens.Accepts) :
    a.stored = true ∧ a.calls = a.batch.flatMap fun entry =>
      (t.pipeline.invoker.takers entry.message a.segment []).map
        (⟨·, entry.token, entry.message⟩) := by
  obtain ⟨outcome, hprocesses, -, hstored⟩ := h.processes
  obtain ⟨rfl, hcalls⟩ := calls_of_processes hprocesses hs hp hc (covered a.token)
  refine ⟨hstored rfl ha, ?_⟩
  rw [Attempt.calls, hcalls, Attempt.events, zipIdx_map h.read.tokens_eq, List.flatMap_map]

lemma Reaches.stored_pairwise (hk : p.kind = .tracking t) (hi : Initial p t s₀)
    (h : Reaches p t s₀ base attempts s) :
    attempts.Pairwise fun a b => a.stored = true → b.stored = true → a.key = b.key →
      ∀ x ∈ a.batch, ∀ y ∈ b.batch, x.token < y.token := by
  have hsorted : ∀ k, (storedTokens attempts k).Pairwise (· < ·) := by
    intro k
    cases h.tiled hk hi k with
    | missing _ _ ht => rw [ht]; exact .nil
    | between _ _ _ ht => rw [ht]; exact List.pairwise_lt_range'
  rw [List.pairwise_iff_getElem]
  intro i j hli hlj hij hsi hsj hkey x hx y hy
  have hone := (List.pairwise_flatMap.mp (hsorted attempts[j].key)).2
  rw [List.pairwise_filter, List.pairwise_iff_getElem] at hone
  have htwo := hone i j hli hlj hij (by simp [hsi, hkey]) (by simp [hsj])
  exact htwo _ (List.mem_map_of_mem hx) _ (List.mem_map_of_mem hy)

end Calls

/-- Nothing fails in a run: failures of handlers are swallowed in their groups, interceptors pass
all, commits succeed and the store refuses nothing. -/
structure Flawless (t : TrackingProcessor σ) (groups : List (HandlerGroup σ))
    (attempts : List (Attempt σ)) : Prop where
  invoker : t.pipeline.invoker = .all (groups.map Invoker.group)
  swallows : ∀ group ∈ groups, ∀ failure event handler,
    (group.errorHandler.onError failure event handler).Ends (· = .ok ())
  passes : ∀ a ∈ attempts, ∀ interceptor ∈ a.chain, interceptor.Passes
  commits : ∀ a ∈ attempts, a.Commits
  accepts : t.tokens.Accepts

def calls (attempts : List (Attempt σ)) : List Call := attempts.flatMap Attempt.calls

structure Due (t : TrackingProcessor σ) (groups : List (HandlerGroup σ))
    (base : ℕ → Option (Option Token)) (s : System σ) (c : Call) : Prop where
  logged : (s.bus t.source.bus).log[c.index]? = some ⟨c.index, c.event⟩
  handled : ∃ g h group handler, c.handler = [g, h] ∧ groups[g]? = some group ∧
    group.handlers[h]? = some handler ∧ handler.canHandle c.event = true ∧
    ∃ n segment first, t.Splits s n ∧ segment ∈ Segment.layout n ∧
      group.owns c.event segment = true ∧ base segment.id.toNat = some first ∧
      covered first ≤ c.index

/-- Of two calls in one group for events that go to the same segment, the second is for a later
event, or for a later handler. -/
def Follows (groups : List (HandlerGroup σ)) (c d : Call) : Prop :=
  ∀ g h k group, c.handler = [g, h] → d.handler = [g, k] → groups[g]? = some group →
    group.policy.segmentKey c.event = group.policy.segmentKey d.event →
    c.index < d.index ∨ c.index = d.index ∧ h < k

section Delivery

variable {p : Processor σ} {t : TrackingProcessor σ} {s₀ s : System σ}
  {base : ℕ → Option (Option Token)} {attempts : List (Attempt σ)} {a : Attempt σ}
  {groups : List (HandlerGroup σ)} {c : Call}

lemma swallowAll_groups (h : ∀ group ∈ groups, ∀ failure event handler,
    (group.errorHandler.onError failure event handler).Ends (· = .ok ())) :
    Invoker.SwallowAll (groups.map Invoker.group) := by
  induction groups with
  | nil => trivial
  | cons first rest ih =>
    exact ⟨h first List.mem_cons_self, ih fun group hg => h group (List.mem_cons_of_mem _ hg)⟩

namespace Flawless

lemma swallowing (hf : Flawless t groups attempts) : t.pipeline.invoker.Swallows := by
  rw [hf.invoker]
  exact swallowAll_groups hf.swallows

lemma calls_eq (hf : Flawless t groups attempts) (ha : a ∈ attempts) (h : Attempted p t s a) :
    a.stored = true ∧ a.calls = a.batch.flatMap fun entry =>
      ((Invoker.all (groups.map Invoker.group)).takers entry.message a.segment []).map
        (⟨·, entry.token, entry.message⟩) := by
  have hcalls := h.calls_eq hf.swallowing (hf.passes a ha) (hf.commits a ha) hf.accepts
  rwa [hf.invoker] at hcalls

lemma mem_calls_iff (hf : Flawless t groups attempts) (ha : a ∈ attempts)
    (h : Attempted p t s a) :
    c ∈ a.calls ↔ ⟨c.index, c.event⟩ ∈ a.batch ∧ ∃ g k group handler, c.handler = [g, k] ∧
      groups[g]? = some group ∧ group.handlers[k]? = some handler ∧
      group.owns c.event a.segment = true ∧ handler.canHandle c.event = true := by
  rw [(hf.calls_eq ha h).2, List.mem_flatMap]
  constructor
  · rintro ⟨entry, he, hc⟩
    obtain ⟨place, hplace, rfl⟩ := List.mem_map.mp hc
    exact ⟨he, mem_takers_all.mp hplace⟩
  · rintro ⟨he, htaken⟩
    exact ⟨_, he, List.mem_map.mpr ⟨c.handler, mem_takers_all.mpr htaken, rfl⟩⟩

lemma follows_within (hf : Flawless t groups attempts) (ha : a ∈ attempts)
    (h : Attempted p t s a) : a.calls.Pairwise (Follows groups) := by
  rw [(hf.calls_eq ha h).2, List.pairwise_flatMap]
  refine ⟨fun entry _ => ?_, ?_⟩
  · rw [List.pairwise_map]
    refine (pairwise_takersAmong 0 groups).imp fun hturn => ?_
    intro g h k group hc hd _ _
    exact .inr ⟨rfl, hturn g h k hc hd⟩
  · have hsorted : (a.batch.map TrackedEvent.token).Pairwise (· < ·) := by
      rw [h.read.tokens_eq]
      exact List.pairwise_lt_range'
    refine (List.pairwise_map.mp hsorted).imp fun hlt c hc d hd => ?_
    obtain ⟨_, -, rfl⟩ := List.mem_map.mp hc
    obtain ⟨_, -, rfl⟩ := List.mem_map.mp hd
    exact fun _ _ _ _ _ _ _ _ => .inl hlt

theorem follows (hf : Flawless t groups attempts) (hk : p.kind = .tracking t)
    (hi : Initial p t s₀) (h : Reaches p t s₀ base attempts s) :
    (calls attempts).Pairwise (Follows groups) := by
  have hall := h.attempted hk hi
  refine List.pairwise_flatMap.mpr ⟨fun a ha => hf.follows_within ha (hall a ha), ?_⟩
  refine (h.stored_pairwise hk hi).imp_of_mem fun {a b} ha hb hab c hc d hd => ?_
  intro g i k group hci hdk hgroup hkey
  obtain ⟨hx, _, _, _, _, hplace, hgroup', -, howns, -⟩ :=
    (hf.mem_calls_iff ha (hall a ha)).mp hc
  obtain ⟨hy, _, _, _, _, hplace', hgroup'', -, howns', -⟩ :=
    (hf.mem_calls_iff hb (hall b hb)).mp hd
  rw [hci] at hplace
  rw [hdk] at hplace'
  cases hplace
  cases hplace'
  rw [hgroup] at hgroup' hgroup''
  cases hgroup'
  cases hgroup''
  obtain ⟨n, hn, hm, -⟩ := (hall a ha).work
  obtain ⟨n', hn', hm', -⟩ := (hall b hb).work
  obtain rfl := hn.unique hn'
  obtain ⟨_, -, hlt⟩ := Segment.two_pow_of_roundedCount? hn.rounded
  -- A key belongs to one segment, so both batches were read for the same one.
  rw [HandlerGroup.owns, hkey] at howns
  have hsegment : a.segment = b.segment := Segment.unique_of_covers hlt hm hm' howns howns'
  refine .inl (hab (hf.calls_eq ha (hall a ha)).1 (hf.calls_eq hb (hall b hb)).1 ?_ _ hx _ hy)
  rw [Attempt.key, hsegment]
  rfl

lemma due (hf : Flawless t groups attempts) (hk : p.kind = .tracking t) (hi : Initial p t s₀)
    (h : Reaches p t s₀ base attempts s) (hc : c ∈ calls attempts) :
    Due t groups base s c := by
  obtain ⟨a, ha, hc⟩ := List.mem_flatMap.mp hc
  have hattempted := h.attempted hk hi a ha
  have hstored := (hf.calls_eq ha hattempted).1
  obtain ⟨hbatch, g, k, group, handler, hplace, hg, hh, howns, hcan⟩ :=
    (hf.mem_calls_iff ha hattempted).mp hc
  obtain ⟨n, hn, hm, -⟩ := hattempted.work
  have hmem : c.index ∈ storedTokens attempts a.key := by
    refine List.mem_flatMap.mpr ⟨a, List.mem_filter.mpr ⟨ha, by simp [hstored]⟩, ?_⟩
    exact List.mem_map.mpr ⟨_, hbatch, rfl⟩
  refine ⟨hattempted.read.logged _ hbatch, g, k, group, handler, hplace, hg, hh, hcan, ?_⟩
  cases h.tiled hk hi a.key with
  | missing _ _ ht => rw [ht] at hmem; cases hmem
  | between hb _ _ ht =>
    rw [ht, List.mem_range'_1] at hmem
    exact ⟨n, a.segment, _, hn, hm, howns, hb, hmem.1⟩

lemma nodup (hf : Flawless t groups attempts) (hk : p.kind = .tracking t) (hi : Initial p t s₀)
    (h : Reaches p t s₀ base attempts s) :
    ((calls attempts).map fun c => (c.handler, c.index)).Nodup := by
  refine List.pairwise_map.mpr ((hf.follows hk hi h).imp_of_mem fun {c d} hc hd hfollows => ?_)
  intro hsame
  obtain ⟨hhandler, hindex⟩ := Prod.mk.inj hsame
  have hduec := hf.due hk hi h hc
  have hdued := hf.due hk hi h hd
  have hevent : c.event = d.event := by
    have hlogged := hduec.logged
    rw [hindex, hdued.logged] at hlogged
    exact (congrArg TrackedEvent.message (Option.some.inj hlogged)).symm
  obtain ⟨g, i, group, _, hplace, hgroup, -⟩ := hduec.handled
  have horder := hfollows g i i group hplace (hhandler ▸ hplace) hgroup (by rw [hevent])
  omega

lemma delivered (hf : Flawless t groups attempts) (hk : p.kind = .tracking t)
    (hi : Initial p t s₀) (h : Reaches p t s₀ base attempts s) {g j i : ℕ}
    {group : HandlerGroup σ} {handler : EventHandler σ} {entry : TrackedEvent}
    (hg : groups[g]? = some group) (hh : group.handlers[j]? = some handler)
    (he : (s.bus t.source.bus).log[i]? = some entry)
    (hc : handler.canHandle entry.message = true)
    (hcreated : ∃ k position, t.position? s k = some position)
    (hfirst : ∀ k first, base k = some first → covered first ≤ i)
    (hlast : ∀ k last, t.position? s k = some last → i < covered last) :
    ⟨[g, j], i, entry.message⟩ ∈ calls attempts := by
  have hall := h.attempted hk hi
  -- A segment with a token has seen a worker, so the segments are a whole layout.
  obtain ⟨n, hn⟩ : ∃ n, t.Splits s n := by
    obtain ⟨k, last, hp⟩ := hcreated
    cases h.tiled hk hi k with
    | missing _ hp' => rw [hp] at hp'; cases hp'
    | between hb hp' =>
      obtain ⟨a, ha, -⟩ := h.exists_stored hk hi hb hp' (hfirst k _ hb) (hlast k _ hp')
      obtain ⟨n, hn, -⟩ := (hall a ha).work
      exact ⟨n, hn⟩
  obtain ⟨_, -, hlt⟩ := Segment.two_pow_of_roundedCount? hn.rounded
  obtain ⟨segment, hm, hcovers⟩ :=
    Segment.exists_covers hn.rounded (group.policy.segmentKey entry.message)
  obtain ⟨last, hp⟩ := (hn.created segment.id.toNat).mpr (Segment.toNat_id_of_mem_layout hlt hm)
  cases h.tiled hk hi segment.id.toNat with
  | missing _ hp' => rw [hp] at hp'; cases hp'
  | between hb hp' =>
    obtain ⟨a, ha, -, hkey, htokens⟩ :=
      h.exists_stored hk hi hb hp' (hfirst _ _ hb) (hlast _ _ hp')
    obtain ⟨n', hn', hm', -⟩ := (hall a ha).work
    obtain rfl := hn.unique hn'
    obtain rfl := Segment.eq_of_mem_layout hm' hm (UInt32.toNat_inj.mp hkey)
    obtain ⟨found, hfound, htoken⟩ := List.mem_map.mp htokens
    have hlogged := (hall a ha).read.logged found hfound
    rw [htoken, he] at hlogged
    cases hlogged
    refine List.mem_flatMap.mpr ⟨a, ha, (hf.mem_calls_iff ha (hall a ha)).mpr ⟨?_, ?_⟩⟩
    · rw [← htoken]
      exact hfound
    · exact ⟨g, j, group, handler, rfl, hg, hh, hcovers, hc⟩

end Flawless

/-- Exactly-once and ordered delivery, in every state that a run without failures reaches. -/
theorem delivered_exactly_once (hk : p.kind = .tracking t) (hi : Initial p t s₀)
    (h : Reaches p t s₀ base attempts s) (hf : Flawless t groups attempts) :
    ((calls attempts).map fun c => (c.handler, c.index)).Nodup ∧
      (∀ c ∈ calls attempts, Due t groups base s c) ∧
      (∀ g j i group handler entry, groups[g]? = some group →
        group.handlers[j]? = some handler → (s.bus t.source.bus).log[i]? = some entry →
        handler.canHandle entry.message = true →
        (∃ k position, t.position? s k = some position) →
        (∀ k first, base k = some first → covered first ≤ i) →
        (∀ k last, t.position? s k = some last → i < covered last) →
        ⟨[g, j], i, entry.message⟩ ∈ calls attempts) ∧
      (calls attempts).Pairwise fun c d => ∀ g j k group identifier, c.handler = [g, j] →
        d.handler = [g, k] → groups[g]? = some group →
        group.policy.identifierFor c.event = some identifier →
        group.policy.identifierFor d.event = some identifier → c.index ≤ d.index := by
  refine ⟨hf.nodup hk hi h, fun c hc => hf.due hk hi h hc, ?_, ?_⟩
  · intro g j i group handler entry hg hh he hc hcreated hfirst hlast
    exact hf.delivered hk hi h hg hh he hc hcreated hfirst hlast
  · refine (hf.follows hk hi h).imp fun hfollows g j k group identifier hc hd hg hci hdi => ?_
    have hkey : ∀ c : Call, group.policy.identifierFor c.event = some identifier →
        group.policy.segmentKey c.event = identifier := by
      intro c hci
      rw [SequencingPolicy.segmentKey, hci]
      rfl
    have horder := hfollows g j k group hc hd hg ((hkey _ hci).trans (hkey _ hdi).symm)
    omega

end Delivery

def Ending.wasCommitted : Ending → Bool
  | .committed (.ok ()) => true
  | _ => false

lemma commits_of_endings {notes : List Note} (failure : Failure)
    (h : (endings notes).map Ending.wasCommitted = [true]) :
    .ended (.committed (.error failure)) ∉ notes := by
  intro hm
  have hmem : Ending.committed (.error failure) ∈ endings notes :=
    List.mem_filterMap.mpr ⟨_, hm, rfl⟩
  have hfalse : false ∈ (endings notes).map Ending.wasCommitted :=
    List.mem_map.mpr ⟨_, hmem, rfl⟩
  rw [h] at hfalse
  cases hfalse with
  | tail _ h => cases h

lemma Sample.sound_flawless :
    Flawless (tracking sound) [group (fun _ => .ok ()) (.logging 0)] [attempt sound] where
  invoker := rfl
  swallows g hg failure event handler := by
    obtain rfl := List.mem_singleton.mp hg
    exact ProgramOver.Ends.bind (.any _) fun _ _ => .pure rfl
  passes a ha interceptor hi := by
    obtain rfl := List.mem_singleton.mp ha
    cases hi
  commits a ha failure := by
    obtain rfl := List.mem_singleton.mp ha
    exact commits_of_endings failure (by decide +kernel)
  accepts _ := .pure rfl

theorem sound_delivered : ∃ base s,
    Reaches (Sample.processor Sample.sound) (Sample.tracking Sample.sound) Sample.logged base
        [Sample.attempt Sample.sound] s ∧
      ⟨[0, 0], 1, Sample.event "second"⟩ ∈ calls [Sample.attempt Sample.sound] ∧
      ((calls [Sample.attempt Sample.sound]).map fun c => (c.handler, c.index)).Nodup := by
  have hstep : ∃ s, (Sample.work Sample.sound).step 1 (Sample.started Sample.sound) =
      some (.ok true, s) ∧ s.tokens = [(0, [(("sample", 0), some 1)])] ∧
      s.buses = Sample.logged.buses := ⟨_, rfl, rfl, rfl⟩
  obtain ⟨s, hstep, htokens, hbuses⟩ := hstep
  obtain ⟨base, hb, hr⟩ := Sample.reaches _ _ _ hstep
  have hinit := Sample.initial (Sample.group (fun _ => .ok ()) (.logging 0)) (.anyError 0)
    (.propagating 0)
  have hmemory : (Sample.tracking Sample.sound).memory s = [(("sample", 0), some 1)] := by
    rw [TrackingProcessor.memory, System.tokenMemory, htokens]
    rfl
  have hposition : ∀ k last, (Sample.tracking Sample.sound).position? s k = some last →
      k = 0 ∧ last = some 1 := by
    intro k last hp
    rw [TrackingProcessor.position?, hmemory, Table.get?] at hp
    split at hp
    · next hk => exact ⟨(Prod.mk.inj hk).2.symm, (Option.some.inj hp).symm⟩
    · cases hp
  have hbase : ∀ k first, base k = some first → first = none := by
    intro k first hf
    cases hr.tiled rfl hinit k with
    | missing hb' => rw [hf] at hb'; cases hb'
    | between _ hp =>
      obtain ⟨rfl, -⟩ := hposition k _ hp
      rw [hb] at hf
      cases hf
      rfl
  have he : (s.bus 0).log[1]? = some ⟨1, Sample.event "second"⟩ := by
    rw [System.bus, hbuses]
    rfl
  obtain ⟨hnodup, -, hdelivered, -⟩ :=
    delivered_exactly_once rfl hinit hr Sample.sound_flawless
  refine ⟨base, s, hr, ?_, hnodup⟩
  have hone : (Sample.tracking Sample.sound).position? s 0 = some (some 1) := by
    rw [TrackingProcessor.position?, hmemory]
    rfl
  refine hdelivered 0 0 1 _ _ _ rfl rfl he rfl ⟨0, some 1, hone⟩ ?_ ?_
  · intro k first hf
    rw [hbase k first hf]
    decide
  · intro k last hp
    rw [(hposition k last hp).2]
    decide

end EventProcessing
