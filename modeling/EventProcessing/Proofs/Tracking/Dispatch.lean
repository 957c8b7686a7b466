import EventProcessing.Proofs.Accounting
import EventProcessing.Proofs.Tracking.Tiling

namespace EventProcessing

variable {σ : Type}

namespace Attempt

variable (a : Attempt σ)

def dispatched : List ℕ := entrances (covered a.token) a.notes

def FailsBefore (i : ℕ) : Prop :=
  ∃ n failure, failing? a.notes = some (n, failure) ∧ covered a.token + n < i

def Swallowed : Prop :=
  ∃ batch, Note.consulted batch (.ok ()) ∈ a.notes ∧ batch.events = a.events

end Attempt

section Batch

variable {pipeline : Pipeline σ} {chain : List (Interceptor σ)} {segment : Segment}
  {events : List EventMessage} {outcome : Outcome} {notes : List Note}

lemma entrances_of_processes (h : Processes pipeline chain segment events outcome notes) (m : ℕ) :
    entrances m notes = (((ingestions notes).zipIdx m).filter fun entry =>
      pipeline.invoker.canHandle entry.1 segment).map Prod.snd := by
  obtain ⟨hi, hc, hd⟩ := h
  rw [Ingests.entrances_whole hc hd, Ingests.ingestions_whole hc hd, hi.entrances_eq]

lemma swallowed_of_processes (h : Processes pipeline chain segment events (.ok ()) notes)
    (hf : failing? notes ≠ none) :
    ∃ batch, Note.consulted batch (.ok ()) ∈ notes ∧ batch.events = events ∧
      pipeline.errorHandler.Gives batch (.ok ()) := by
  obtain ⟨hi, hc, hd⟩ := h
  rw [failing?, Ingests.departures_whole hc hd, hi.departures_eq, firstFailure?_append_of_ok] at hf
  cases hd with
  | failed failure _ hg => exact ⟨_, by simp, rfl, hg⟩
  | done =>
    cases hc
    exact absurd rfl hf

lemma mem_entrances_iff (h : Processes pipeline chain segment events outcome notes) {m i : ℕ}
    {event : EventMessage} (hm : m ≤ i) (he : events[i - m]? = some event) :
    i ∈ entrances m notes ↔ pipeline.invoker.canHandle event segment = true ∧
      ¬ ∃ n failure, failing? notes = some (n, failure) ∧ m + n < i := by
  have ha := accounts_of_processes h
  have hlt := (List.getElem?_eq_some_iff.mp he).1
  have hin : i - m < (ingestions notes).length ↔
      ¬ ∃ n failure, failing? notes = some (n, failure) ∧ m + n < i := by
    cases hf : failing? notes with
    | none => simp [ha.whole hf, hlt]
    | some failing =>
      obtain ⟨n, failure⟩ := failing
      rw [ha.upToFailure n failure hf]
      constructor
      · rintro hi ⟨_, _, he, hlt⟩
        cases he
        omega
      · intro hno
        by_contra hi
        exact hno ⟨n, failure, rfl, by omega⟩
  have hget : ∀ hi : i - m < (ingestions notes).length,
      events[i - m]? = some (ingestions notes)[i - m] :=
    List.prefix_iff_getElem?.mp ha.inOrder (i - m)
  rw [entrances_of_processes h, ← hin, List.mem_map]
  constructor
  · rintro ⟨⟨other, j⟩, hmem, rfl⟩
    obtain ⟨hz, hc⟩ := List.mem_filter.mp hmem
    obtain ⟨hi, hz⟩ := List.getElem?_eq_some_iff.mp
      (List.mk_mem_zipIdx_iff_le_and_getElem?_sub.mp hz).2
    rw [hget hi, hz] at he
    cases he
    exact ⟨hc, hi⟩
  · rintro ⟨hc, hi⟩
    refine ⟨(event, i), List.mem_filter.mpr ⟨?_, hc⟩, rfl⟩
    rw [List.mk_mem_zipIdx_iff_le_and_getElem?_sub, List.getElem?_eq_getElem hi]
    exact ⟨hm, (hget hi).symm.trans he⟩

end Batch

section Attempts

variable {p : Processor σ} {t : TrackingProcessor σ} {s : System σ} {a : Attempt σ}

lemma Attempted.pipeline_eq (h : Attempted p t s a) : a.work.pipeline = t.pipeline := by
  obtain ⟨_, -, -, hw⟩ := h.work
  rw [hw]
  rfl

lemma Attempted.batchSize_eq (h : Attempted p t s a) :
    a.work.batchSize = max t.settings.batchSize 1 := by
  obtain ⟨_, -, -, hw⟩ := h.work
  rw [hw]
  rfl

lemma Attempted.processes (h : Attempted p t s a) :
    ∃ outcome, Processes t.pipeline a.chain a.segment a.events outcome a.notes ∧
      (a.stored = true → outcome = .ok ()) ∧
      (outcome = .ok () → t.tokens.Accepts → a.stored = true) := by
  obtain ⟨outcome, done, hrun, hs, ho⟩ := h.processed
  obtain ⟨notes, hp, hw⟩ := watched_processBatch hrun
  have hnotes : a.notes = notes := Attempt.notes_eq hw
  rw [hnotes, ← h.pipeline_eq]
  exact ⟨outcome, hp, hs, ho⟩

lemma Attempted.event_eq (h : Attempted p t s a) {i : ℕ} {entry : TrackedEvent}
    (hi : i ∈ a.batch.map TrackedEvent.token)
    (he : (s.bus t.source.bus).log[i]? = some entry) :
    covered a.token ≤ i ∧ a.events[i - covered a.token]? = some entry.message := by
  obtain ⟨hle, hlt⟩ := (h.read.mem_tokens i).mp hi
  refine ⟨hle, ?_⟩
  have hl : i - covered a.token < a.batch.length := by omega
  have hm : (a.batch.map TrackedEvent.token)[i - covered a.token]? = some i := by
    rw [h.read.tokens_eq, List.getElem?_range' hl, one_mul, Nat.add_sub_cancel' hle]
  rw [List.getElem?_map] at hm
  obtain ⟨found, hfound, htoken⟩ := Option.map_eq_some_iff.mp hm
  have hlog := h.read.logged found (List.mem_of_getElem? hfound)
  rw [htoken, he] at hlog
  cases hlog
  rw [Attempt.events, List.getElem?_map, hfound]
  rfl

lemma Attempted.mem_dispatched_iff (h : Attempted p t s a) {i : ℕ} {entry : TrackedEvent}
    (hi : i ∈ a.batch.map TrackedEvent.token)
    (he : (s.bus t.source.bus).log[i]? = some entry) :
    i ∈ a.dispatched ↔
      t.pipeline.invoker.canHandle entry.message a.segment = true ∧ ¬ a.FailsBefore i := by
  obtain ⟨outcome, hp, -, -⟩ := h.processes
  obtain ⟨hle, hevent⟩ := h.event_eq hi he
  exact mem_entrances_iff hp hle hevent

lemma Attempted.mem_tokens_of_dispatched (h : Attempted p t s a) {i : ℕ}
    (hi : i ∈ a.dispatched) : i ∈ a.batch.map TrackedEvent.token := by
  obtain ⟨outcome, hp, -, -⟩ := h.processes
  have ha := accounts_of_processes hp
  rw [Attempt.dispatched, entrances_of_processes hp] at hi
  obtain ⟨⟨event, j⟩, hmem, rfl⟩ := List.mem_map.mp hi
  obtain ⟨hle, hget⟩ :=
    List.mk_mem_zipIdx_iff_le_and_getElem?_sub.mp (List.mem_filter.mp hmem).1
  have hlt := (List.getElem?_eq_some_iff.mp hget).1
  have hlen := ha.inOrder.length_le
  rw [Attempt.events, List.length_map] at hlen
  exact (h.read.mem_tokens j).mpr ⟨hle, by omega⟩

end Attempts

section Skipping

variable {p : Processor σ} {t : TrackingProcessor σ} {s₀ s : System σ}
  {base : ℕ → Option (Option Token)} {attempts : List (Attempt σ)} {k i : ℕ}
  {first last : Option Token} {entry : TrackedEvent}

lemma Reaches.exists_stored (hk : p.kind = .tracking t) (hi : Initial p t s₀)
    (h : Reaches p t s₀ base attempts s) (hb : base k = some first)
    (hp : t.position? s k = some last) (hfirst : covered first ≤ i) (hlast : i < covered last) :
    ∃ a ∈ attempts, a.stored = true ∧ a.key = k ∧ i ∈ a.batch.map TrackedEvent.token := by
  have hmem : i ∈ storedTokens attempts k := by
    cases h.tiled hk hi k with
    | missing hb' => rw [hb] at hb'; cases hb'
    | between hb' hp' hle ht =>
      rw [hb] at hb'
      rw [hp] at hp'
      cases hb'
      cases hp'
      rw [ht, List.mem_range'_1]
      omega
  obtain ⟨a, ha, hi⟩ := List.mem_flatMap.mp hmem
  obtain ⟨ha, hcond⟩ := List.mem_filter.mp ha
  simp only [Bool.and_eq_true, beq_iff_eq] at hcond
  exact ⟨a, ha, hcond.1, hcond.2, hi⟩

/-- An event up to the token of a segment never reached the interceptors just if each batch that it
was read in failed before it. Then the error handler swallowed one of these failures. -/
theorem skipped_iff_failed_before (hk : p.kind = .tracking t) (hi : Initial p t s₀)
    (h : Reaches p t s₀ base attempts s) (hb : base k = some first)
    (hp : t.position? s k = some last) (hfirst : covered first ≤ i) (hlast : i < covered last)
    (he : (s.bus t.source.bus).log[i]? = some entry) :
    ∃ n segment, t.Splits s n ∧ segment ∈ Segment.layout n ∧ segment.id.toNat = k ∧
      (t.pipeline.invoker.canHandle entry.message segment = true →
        ((∀ a ∈ attempts, a.segment = segment → i ∉ a.dispatched) ↔
          ∀ a ∈ attempts, a.segment = segment → i ∈ a.batch.map TrackedEvent.token →
            a.FailsBefore i)) ∧
      ∃ a ∈ attempts, a.segment = segment ∧ a.stored = true ∧
        i ∈ a.batch.map TrackedEvent.token ∧ (a.FailsBefore i → a.Swallowed) := by
  obtain ⟨a, ha, hs, hkey, htokens⟩ := h.exists_stored hk hi hb hp hfirst hlast
  have hall := h.attempted hk hi
  obtain ⟨n, hn, hm, -⟩ := (hall a ha).work
  refine ⟨n, a.segment, hn, hm, hkey, fun hcan => ⟨?_, ?_⟩, a, ha, rfl, hs, htokens, ?_⟩
  · intro hnone b hb hsegment hread
    by_contra hfails
    refine hnone b hb hsegment (((hall b hb).mem_dispatched_iff hread he).mpr ⟨?_, hfails⟩)
    rwa [hsegment]
  · intro hfails b hb hsegment hdispatched
    have hread := (hall b hb).mem_tokens_of_dispatched hdispatched
    exact (((hall b hb).mem_dispatched_iff hread he).mp hdispatched).2
      (hfails b hb hsegment hread)
  · rintro ⟨m, failure, hfailing, -⟩
    obtain ⟨outcome, hprocesses, hok, -⟩ := (hall a ha).processes
    obtain rfl := hok hs
    obtain ⟨batch, hnote, hevents, -⟩ := swallowed_of_processes hprocesses (by simp [hfailing])
    exact ⟨batch, hnote, hevents⟩

def Sample.givenUp : Pipeline Unit :=
  pipeline (group (fun _ => .error (.report "broken")) (.propagating 0)) (.anyError 0)
    ⟨⟨0, "swallowing"⟩, fun _ => return .ok ()⟩

lemma Sample.givenUp_step : ∃ s, (work givenUp).step 1 (started givenUp) = some (.ok true, s) ∧
    (tracking givenUp).position? s 0 = some (some 1) ∧ s.buses = logged.buses :=
  ⟨_, rfl, rfl, rfl⟩

lemma Sample.givenUp_dispatched : (attempt givenUp).dispatched = [0] := by decide +kernel

theorem token_covers_skipped_event :
    ¬ ∀ (p : Processor Unit) (t : TrackingProcessor Unit) (s₀ s : System Unit) base attempts k i
      first last entry n segment, p.kind = .tracking t → Initial p t s₀ →
      Reaches p t s₀ base attempts s → base k = some first → t.position? s k = some last →
      covered first ≤ i → i < covered last → (s.bus t.source.bus).log[i]? = some entry →
      t.Splits s n → segment ∈ Segment.layout n → segment.id.toNat = k →
      t.pipeline.invoker.canHandle entry.message segment = true →
      ∃ a ∈ attempts, a.segment = segment ∧ i ∈ a.dispatched := by
  intro h
  obtain ⟨s, hstep, hp, hbuses⟩ := Sample.givenUp_step
  obtain ⟨base, hb, hr⟩ := Sample.reaches _ _ _ hstep
  have hinit := Sample.initial (Sample.group (fun _ => .error (.report "broken")) (.propagating 0))
    (.anyError 0) ⟨⟨0, "swallowing"⟩, fun _ => return .ok ()⟩
  obtain ⟨n, hn, hm, -⟩ := (hr.attempted rfl hinit _ List.mem_cons_self).work
  have he : (s.bus 0).log[1]? = some ⟨1, Sample.event "second"⟩ := by
    rw [System.bus, hbuses]
    rfl
  obtain ⟨a, ha, -, hi⟩ := h _ _ _ _ _ _ 0 1 none (some 1) _ n .root rfl hinit hr hb hp
    (by decide) (by decide) he hn hm rfl rfl
  obtain rfl := List.mem_singleton.mp ha
  have hone : 1 ∈ (Sample.attempt Sample.givenUp).dispatched := hi
  rw [Sample.givenUp_dispatched] at hone
  cases hone with
  | tail _ h => cases h

theorem givenUp_failed_before : ∃ base s,
    Reaches (Sample.processor Sample.givenUp) (Sample.tracking Sample.givenUp) Sample.logged base
        [Sample.attempt Sample.givenUp] s ∧
      (Sample.tracking Sample.givenUp).position? s 0 = some (some 1) ∧
      (Sample.attempt Sample.givenUp).FailsBefore 1 ∧
      (Sample.attempt Sample.givenUp).Swallowed := by
  obtain ⟨s, hstep, hp, hbuses⟩ := Sample.givenUp_step
  obtain ⟨base, hb, hr⟩ := Sample.reaches _ _ _ hstep
  have he : (s.bus 0).log[1]? = some ⟨1, Sample.event "second"⟩ := by
    rw [System.bus, hbuses]
    rfl
  obtain ⟨n, segment, -, -, -, hiff, a, ha, hsegment, -, hread, hswallowed⟩ :=
    skipped_iff_failed_before rfl (Sample.initial _ _ _) hr hb hp (by decide) (by decide) he
  obtain rfl := List.mem_singleton.mp ha
  have hskipped : ∀ a ∈ [Sample.attempt Sample.givenUp], a.segment = segment →
      1 ∉ a.dispatched := by
    intro a ha _
    obtain rfl := List.mem_singleton.mp ha
    rw [Sample.givenUp_dispatched]
    decide
  have hfails := (hiff (by rw [← hsegment]; rfl)).mp hskipped _ List.mem_cons_self hsegment hread
  exact ⟨base, s, hr, hp, hfails, hswallowed hfails⟩

theorem dispatched_of_no_failure_before (hk : p.kind = .tracking t) (hi : Initial p t s₀)
    (h : Reaches p t s₀ base attempts s) (hb : base k = some first)
    (hp : t.position? s k = some last) (hfirst : covered first ≤ i) (hlast : i < covered last)
    (he : (s.bus t.source.bus).log[i]? = some entry)
    (hgood : t.settings.batchSize ≤ 1 ∨
      ∀ batch, (t.pipeline.errorHandler.handleError batch).Ends (· ≠ .ok ())) :
    ∃ n segment, t.Splits s n ∧ segment ∈ Segment.layout n ∧ segment.id.toNat = k ∧
      (t.pipeline.invoker.canHandle entry.message segment = true →
        ∃ a ∈ attempts, a.segment = segment ∧ i ∈ a.dispatched) := by
  obtain ⟨a, ha, hs, hkey, htokens⟩ := h.exists_stored hk hi hb hp hfirst hlast
  have hattempted := h.attempted hk hi a ha
  obtain ⟨n, hn, hm, -⟩ := hattempted.work
  refine ⟨n, a.segment, hn, hm, hkey, fun hcan => ⟨a, ha, rfl, ?_⟩⟩
  refine (hattempted.mem_dispatched_iff htokens he).mpr ⟨hcan, ?_⟩
  rintro ⟨m, failure, hfailing, hlt⟩
  rcases hgood with hsize | hhandler
  · have hlen := hattempted.read.length_le
    rw [hattempted.batchSize_eq] at hlen
    have := (hattempted.read.mem_tokens i).mp htokens
    omega
  · obtain ⟨outcome, hprocesses, hok, -⟩ := hattempted.processes
    obtain rfl := hok hs
    obtain ⟨batch, -, -, depth, before, after, hrun⟩ :=
      swallowed_of_processes hprocesses (by simp [hfailing])
    exact hhandler batch depth before _ after hrun rfl

end Skipping

end EventProcessing
