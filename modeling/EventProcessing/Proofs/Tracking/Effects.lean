import EventProcessing.Proofs.Tracking.Runs

namespace EventProcessing

variable {σ : Type}

def Employs (p : Processor σ) (t : TrackingProcessor σ) (s : System σ) : Prop :=
  ∀ id worker, s.workers.get? id = some worker → worker.work.processor = p.self.id →
    ∃ n segment, t.Splits s n ∧ segment ∈ Segment.layout n ∧
      worker.work = Processor.work p.self.id t segment

inductive Moves (t : TrackingProcessor σ) (s s' : System σ) : Option (Attempt σ) → Prop
  | stay {attempt : Option (Attempt σ)} (h : ∀ k, t.position? s' k = t.position? s k)
      (hs : ∀ a, attempt = some a → a.stored = false) : Moves t s s' attempt
  | create {initial : Option Token} {count : ℕ} (h : ∀ k, t.position? s k = none)
      (ho : t.Opens count initial)
      (hc : ∀ k, t.position? s' k = if k < count then some initial else none) : Moves t s s' none
  | store {a : Attempt σ} {last : Token} (hs : a.stored = true)
      (hl : headToken? a.batch = some last)
      (h : ∀ k, t.position? s' k = if k = a.key then some (some last) else t.position? s k) :
      Moves t s s' (some a)

structure Reading (p : Processor σ) (t : TrackingProcessor σ) (s : System σ) (a : Attempt σ) :
    Prop where
  work : ∃ n, t.Splits s n ∧ a.segment ∈ Segment.layout n ∧
    a.work = Processor.work p.self.id t a.segment
  token : t.position? s a.key = some a.token
  batch : a.batch = readLog (a.start.bus t.source.bus).log a.token a.work.batchSize
  nonempty : a.batch ≠ []
  before : System.Frame s a.start
  processed : ∃ outcome done, a.work.process a.batch a.depth a.start = some (outcome, done) ∧
    (a.stored = true → outcome = .ok ()) ∧
    (outcome = .ok () → t.tokens.Accepts → a.stored = true)

structure Effect (p : Processor σ) (t : TrackingProcessor σ) (s s' : System σ)
    (attempt : Option (Attempt σ)) : Prop where
  log : Bus.Extends (s.bus t.source.bus).log (s'.bus t.source.bus).log
  moves : Moves t s s' attempt
  workers : ∀ id worker, s'.workers.get? id = some worker → worker.work.processor = p.self.id →
    (∃ other, s.workers.get? id = some other ∧ other.work = worker.work) ∨
      ∃ n segment, t.Splits s' n ∧ segment ∈ Segment.layout n ∧
        worker.work = Processor.work p.self.id t segment
  attempted : ∀ a, attempt = some a → Reading p t s a ∧
    Bus.Extends (a.start.bus t.source.bus).log (s'.bus t.source.bus).log

section Effects

variable {p : Processor σ} {t : TrackingProcessor σ} {s s' : System σ} {depth : ℕ}

lemma position?_congr (h : s'.tokens = s.tokens) (k : ℕ) : t.position? s' k = t.position? s k := by
  rw [TrackingProcessor.position?, TrackingProcessor.memory, System.tokenMemory, h]
  rfl

lemma elsewhere_of_frame (h : System.Frame s s') : Elsewhere p t s s' := by
  refine ⟨position?_congr h.tokens, h.logs _, fun id worker hw _ => ⟨worker, ?_, rfl⟩⟩
  rwa [← h.workers]

lemma elsewhere_of_intercept {interceptor : Interceptor σ}
    (h : p.addInterceptor interceptor depth s = some ((), s')) : Elsewhere p t s s' := by
  cases h
  exact ⟨fun _ => rfl, .refl _, fun _ worker hw _ => ⟨worker, hw, rfl⟩⟩

lemma elsewhere_of_await {workers : List ℕ}
    (h : p.takeStopping depth s = some (workers, s')) : Elsewhere p t s s' := by
  cases h
  exact ⟨fun _ => rfl, .refl _, fun _ worker hw _ => ⟨worker, hw, rfl⟩⟩

lemma get?_wake_eq (f : Worker σ → Worker σ) (told : List ℕ) (id : ℕ) :
    (Processor.wake f told s).workers.get? id =
      (s.workers.get? id).map fun worker => if told.contains id then f worker else worker := by
  unfold Processor.wake
  dsimp only
  generalize s.workers = table
  induction table with
  | nil => rfl
  | cons entry rest ih =>
    obtain ⟨key, worker⟩ := entry
    rw [List.map_cons]
    by_cases hk : key = id
    · subst hk
      cases ht : told.contains key with
      | true => simp [Table.get?]
      | false => simp [Table.get?]
    · have hrest : Table.get? ((key, worker) :: rest) id = Table.get? rest id := by
        rw [Table.get?, if_neg hk]
      rw [hrest, ← ih]
      split
      · rw [Table.get?, if_neg hk]
      · rw [Table.get?, if_neg hk]

lemma get?_wake {f : Worker σ → Worker σ} (hf : ∀ worker, (f worker).work = worker.work)
    (told : List ℕ) {id : ℕ} {worker : Worker σ}
    (h : (Processor.wake f told s).workers.get? id = some worker) :
    ∃ other, s.workers.get? id = some other ∧ other.work = worker.work := by
  rw [get?_wake_eq] at h
  obtain ⟨other, hother, rfl⟩ := Option.map_eq_some_iff.mp h
  refine ⟨other, hother, ?_⟩
  split
  · exact (hf other).symm
  · rfl

lemma elsewhere_of_shutDown (hk : p.kind = .tracking t) {outcome : Outcome}
    (h : p.shutDown depth s = some (outcome, s')) : Elsewhere p t s s' := by
  have hs : p.shutDown = p.shutDownTracking := by simp only [Processor.shutDown, hk]
  rw [hs] at h
  obtain ⟨state, _, hstate, h⟩ := Run.bind_eq_some.mp h
  cases hstate
  cases hw : (s.processor p.self.id).workers with
  | none =>
    rw [hw] at h
    cases h
    exact ⟨fun _ => rfl, .refl _, fun _ worker hw _ => ⟨worker, hw, rfl⟩⟩
  | some told =>
    rw [hw] at h
    cases h
    have hf : ∀ worker : Worker σ, (Processor.requestStop worker).work = worker.work :=
      fun _ => rfl
    exact ⟨fun _ => rfl, .refl _, fun id worker hw _ => get?_wake hf told hw⟩

lemma effect_of_elsewhere (h : Elsewhere p t s s') : Effect p t s s' none where
  log := h.log
  moves := .stay h.positions fun _ h => by cases h
  workers id worker hw hp := .inl (h.workers id worker hw hp)
  attempted _ h := by cases h

lemma effect_of_start (hk : p.kind = .tracking t) {outcome : Outcome}
    (h : p.start depth s = some (outcome, s')) : Effect p t s s' none := by
  have hs : p.start = p.startTracking t := by simp only [Processor.start, hk]
  rw [hs] at h
  have hstarts := Processor.starts_of_startTracking h
  refine ⟨hstarts.logs _, ?_, fun id worker hw _ => ?_, fun _ h => by cases h⟩
  · rcases hstarts.memory with hm | ⟨hempty, count, initial, ho, hm⟩
    · exact .stay (fun k => by rw [TrackingProcessor.position?, hm]; rfl) fun _ h => by cases h
    · have hnone : ∀ k, t.position? s k = none := by
        intro k
        by_contra hsome
        obtain ⟨position, hp⟩ := Option.ne_none_iff_exists'.mp hsome
        have hmem := (TokenMemory.mem_segments_iff _ _ k).mpr ⟨position, hp⟩
        rw [hempty] at hmem
        cases hmem
      refine Moves.create hnone ho (fun k => ?_ : ∀ k, t.position? s' k =
        if k < count then some initial else none)
      have hn := hnone k
      unfold TrackingProcessor.position? at hn ⊢
      rw [hm, TokenMemory.get?_create, hn]
  · rcases hstarts.workers id worker hw with hw | ⟨segments, segment, hl, hm, hw⟩
    · exact .inl ⟨worker, hw, rfl⟩
    · obtain ⟨n, hn, rfl⟩ := TrackingProcessor.splits_of_layout? hl
      exact .inr ⟨n, segment, hn, hm, hw⟩

section Step

variable {work : SegmentWork σ} {result : Except Failure Bool} {token : Option Token}
  {batch : List TrackedEvent} {start done : System σ} {outcome : Outcome}

lemma attempt?_of_reads (h : work.Reads depth s token batch start) (hb : batch ≠ [])
    (result : Except Failure Bool) :
    work.attempt? depth s result = some ⟨work, depth, token, batch, start, result⟩ := by
  obtain ⟨middle, hf, hr⟩ := h
  cases batch with
  | nil => exact absurd rfl hb
  | cons first rest => simp only [SegmentWork.attempt?, hf, hr]

lemma attempt?_of_unfetched {f : Failure} (h : work.fetch depth s = some (.error f, s'))
    (result : Except Failure Bool) : work.attempt? depth s result = none := by
  simp only [SegmentWork.attempt?, h]

lemma attempt?_of_unread {f : Failure} {middle : System σ}
    (hf : work.fetch depth s = some (.ok token, middle))
    (hr : work.source.read token work.batchSize depth middle = some (.error f, s'))
    (result : Except Failure Bool) : work.attempt? depth s result = none := by
  simp only [SegmentWork.attempt?, hf, hr]

lemma attempt?_of_idle (h : work.Reads depth s token [] start) (result : Except Failure Bool) :
    work.attempt? depth s result = none := by
  obtain ⟨middle, hf, hr⟩ := h
  simp only [SegmentWork.attempt?, hf, hr]

lemma reading_of_reads {n : ℕ} (hn : t.Splits s n) (hm : work.segment ∈ Segment.layout n)
    (hw : work = Processor.work p.self.id t work.segment)
    (h : work.Reads depth s token batch start) (hb : batch ≠ [])
    (hp : work.process batch depth start = some (outcome, done))
    (hs : (Attempt.mk work depth token batch start result).stored = true → outcome = .ok ())
    (ho : outcome = .ok () → t.tokens.Accepts →
      (Attempt.mk work depth token batch start result).stored = true) :
    Reading p t s ⟨work, depth, token, batch, start, result⟩ := by
  refine ⟨⟨n, hn, hm, hw⟩, ?_, ?_, hb, h.frame, outcome, done, hp, hs, ho⟩
  · have ht := h.token_eq
    rw [hw] at ht
    exact ht
  · have hlog := h.batch_eq
    rw [hw] at hlog ⊢
    exact hlog

lemma effect_of_quiet_step (ha : ∀ a, work.attempt? depth s result = some a →
      a.stored = false ∧ Reading p t s a ∧ System.Frame a.start s') (h : System.Frame s s') :
    Effect p t s s' (work.attempt? depth s result) where
  log := h.logs _
  moves := .stay (position?_congr h.tokens) fun a h => (ha a h).1
  workers id worker hw _ := .inl ⟨worker, by rwa [← h.workers], rfl⟩
  attempted a h := ⟨(ha a h).2.1, (ha a h).2.2.logs _⟩

lemma effect_of_stored {n : ℕ} (hn : t.Splits s n) (hm : work.segment ∈ Segment.layout n)
    (hw : work = Processor.work p.self.id t work.segment)
    (hr : work.Reads depth s token batch start) (hb : batch ≠ []) {last : Token}
    (hl : headToken? batch = some last)
    (hp : work.process batch depth start = some (.ok (), done))
    (hs : work.store last depth done = some (.ok (), s')) :
    Effect p t s s' (some ⟨work, depth, token, batch, start, .ok true⟩) := by
  obtain ⟨middle, hmiddle, -, rfl⟩ | ⟨-, _, hs, -⟩ := TokenStore.put_cases hs
  · have hdone := hr.frame.trans (SegmentWork.frame_process hp)
    have hbefore := hdone.trans hmiddle
    have htokens : work.tokens = t.tokens := by rw [hw]; rfl
    have hname : work.pipeline.name = t.pipeline.name := by rw [hw]; rfl
    refine ⟨hbefore.logs _, ?_, fun id worker hid hid' => .inl ⟨worker, ?_, rfl⟩, ?_⟩
    · refine Moves.store rfl hl fun k => ?_
      rw [hdone.tokenMemory_eq, htokens, TrackingProcessor.position?, TrackingProcessor.memory,
        System.tokenMemory_setTokenMemory, hname]
      exact TokenMemory.get?_store _ _ _ _ _
    · rwa [← hbefore.workers]
    · rintro a ha
      cases ha
      exact ⟨reading_of_reads hn hm hw hr hb hp (fun _ => rfl) (fun _ _ => rfl),
        ((SegmentWork.frame_process hp).trans hmiddle).logs _⟩
  · cases hs

lemma effect_of_step {n : ℕ} (hn : t.Splits s n) (hm : work.segment ∈ Segment.layout n)
    (hw : work = Processor.work p.self.id t work.segment)
    (h : work.step depth s = some (result, s')) :
    Effect p t s s' (work.attempt? depth s result) := by
  have hsteps := SegmentWork.steps_of_step h
  have htokens : work.tokens = t.tokens := by rw [hw]; rfl
  cases hsteps with
  | unfetched hf =>
    refine effect_of_quiet_step (fun a ha => ?_) (SegmentWork.frame_of_step h (by simp))
    rw [attempt?_of_unfetched hf] at ha
    cases ha
  | unread hf hr =>
    refine effect_of_quiet_step (fun a ha => ?_) (SegmentWork.frame_of_step h (by simp))
    rw [attempt?_of_unread hf hr] at ha
    cases ha
  | idle hr =>
    refine effect_of_quiet_step (fun a ha => ?_) (SegmentWork.frame_of_step h (by simp))
    rw [attempt?_of_idle hr] at ha
    cases ha
  | failed hr hb hp =>
    refine effect_of_quiet_step (fun a ha => ?_) (SegmentWork.frame_of_step h (by simp))
    rw [attempt?_of_reads hr hb] at ha
    cases ha
    exact ⟨rfl, reading_of_reads hn hm hw hr hb hp (fun h => by cases h) (fun h => by cases h),
      SegmentWork.frame_process hp⟩
  | unstored hr hl hp hs =>
    have hb := SegmentWork.ne_nil_of_headToken? hl
    refine effect_of_quiet_step (fun a ha => ?_) (SegmentWork.frame_of_step h (by simp))
    rw [attempt?_of_reads hr hb] at ha
    cases ha
    obtain ⟨_, -, hs, -⟩ | ⟨hframe, _, -, hrefused⟩ := TokenStore.put_cases hs
    · cases hs
    · rw [htokens] at hrefused
      exact ⟨rfl, reading_of_reads hn hm hw hr hb hp (fun _ => rfl)
        (fun _ haccepts => absurd haccepts hrefused), (SegmentWork.frame_process hp).trans hframe⟩
  | stored hr hl hp hs =>
    have hb := SegmentWork.ne_nil_of_headToken? hl
    rw [attempt?_of_reads hr hb]
    exact effect_of_stored hn hm hw hr hb hl hp hs

end Step

theorem effect_of_transition (hk : p.kind = .tracking t) (he : Employs p t s)
    {attempt : Option (Attempt σ)} (h : Transition p t s attempt s') :
    Effect p t s s' attempt := by
  cases h with
  | program h => exact effect_of_elsewhere (elsewhere_of_frame (System.frame_run h))
  | intercept h => exact effect_of_elsewhere (elsewhere_of_intercept h)
  | start h => exact effect_of_start hk h
  | shutDown h => exact effect_of_elsewhere (elsewhere_of_shutDown hk h)
  | await h => exact effect_of_elsewhere (elsewhere_of_await h)
  | elsewhere h => exact effect_of_elsewhere h
  | work hw hp h =>
    obtain ⟨n, segment, hn, hm, hwork⟩ := he _ _ hw hp
    have hsegment : _ = segment := congrArg SegmentWork.segment hwork
    exact effect_of_step hn (hsegment ▸ hm) (hwork.trans (by rw [← hsegment])) h

end Effects

section Invariants

variable {p : Processor σ} {t : TrackingProcessor σ} {s₀ s s' : System σ}
  {base : ℕ → Option (Option Token)} {attempts : List (Attempt σ)}

lemma Moves.splits {attempt : Option (Attempt σ)} (h : Moves t s s' attempt) {n : ℕ}
    (hn : t.Splits s n) (ha : ∀ a, attempt = some a → Reading p t s a) : t.Splits s' n := by
  refine ⟨hn.rounded, fun k => ?_⟩
  rw [← hn.created k]
  cases h with
  | stay h => rw [h k]
  | create h _ hc =>
    obtain ⟨position, hp⟩ := (hn.created 0).mpr hn.pos
    rw [h 0] at hp
    cases hp
  | @store a last hs hl h =>
    rw [h k]
    split
    · next hk =>
      subst hk
      exact ⟨fun _ => ⟨_, (ha a rfl).token⟩, fun _ => ⟨_, rfl⟩⟩
    · exact Iff.rfl

lemma Effect.splits {attempt : Option (Attempt σ)} (h : Effect p t s s' attempt) {n : ℕ}
    (hn : t.Splits s n) : t.Splits s' n :=
  h.moves.splits hn fun a ha => (h.attempted a ha).1

lemma Effect.employs {attempt : Option (Attempt σ)} (h : Effect p t s s' attempt)
    (he : Employs p t s) : Employs p t s' := by
  intro id worker hw hp
  rcases h.workers id worker hw hp with ⟨other, ho, heq⟩ | hnew
  · obtain ⟨n, segment, hn, hm, hwork⟩ := he id other ho (heq ▸ hp)
    exact ⟨n, segment, h.splits hn, hm, heq ▸ hwork⟩
  · exact hnew

namespace Reaches

variable (hk : p.kind = .tracking t) (hi : Initial p t s₀)

include hk hi

lemma employs (h : Reaches p t s₀ base attempts s) : Employs p t s := by
  induction h with
  | init => exact fun id worker hw hp => absurd hp (hi.workers id worker hw)
  | next hr ht ih => exact (effect_of_transition hk ih ht).employs ih

lemma effect (h : Reaches p t s₀ base attempts s) {attempt : Option (Attempt σ)}
    (ht : Transition p t s attempt s') : Effect p t s s' attempt :=
  effect_of_transition hk (h.employs hk hi) ht

lemma log (h : Reaches p t s₀ base attempts s) : Bus.Extends [] (s.bus t.source.bus).log := by
  induction h with
  | init => exact hi.log
  | next hr ht ih => exact ih.trans (hr.effect hk hi ht).log

end Reaches

structure Attempted (p : Processor σ) (t : TrackingProcessor σ) (s : System σ) (a : Attempt σ) :
    Prop where
  work : ∃ n, t.Splits s n ∧ a.segment ∈ Segment.layout n ∧
    a.work = Processor.work p.self.id t a.segment
  read : ReadFrom (s.bus t.source.bus).log a.token a.work.batchSize a.batch
  nonempty : a.batch ≠ []
  processed : ∃ outcome done, a.work.process a.batch a.depth a.start = some (outcome, done) ∧
    (a.stored = true → outcome = .ok ()) ∧
    (outcome = .ok () → t.tokens.Accepts → a.stored = true)

lemma Attempted.later {a : Attempt σ} {attempt : Option (Attempt σ)} (h : Attempted p t s a)
    (he : Effect p t s s' attempt) : Attempted p t s' a := by
  obtain ⟨n, hn, hm, hw⟩ := h.work
  exact ⟨⟨n, he.splits hn, hm, hw⟩, h.read.later he.log, h.nonempty, h.processed⟩

lemma Effect.new {a : Attempt σ} (he : Effect p t s s' (some a))
    (hlog : Bus.Extends [] (s.bus t.source.bus).log) : Attempted p t s' a := by
  obtain ⟨ha, hlater⟩ := he.attempted a rfl
  obtain ⟨n, hn, hm, hw⟩ := ha.work
  refine ⟨⟨n, he.splits hn, hm, hw⟩, ?_, ha.nonempty, ha.processed⟩
  have hnumbered := (hlog.trans (ha.before.logs _)).numbered
  rw [ha.batch]
  exact (readFrom_readLog hnumbered a.token a.work.batchSize).later hlater

theorem Reaches.attempted (hk : p.kind = .tracking t) (hi : Initial p t s₀)
    (h : Reaches p t s₀ base attempts s) : ∀ a ∈ attempts, Attempted p t s a := by
  induction h with
  | init => exact fun _ h => by cases h
  | next hr ht ih =>
    have he := hr.effect hk hi ht
    intro a ha
    rcases List.mem_append.mp ha with ha | ha
    · exact (ih a ha).later he
    · obtain rfl := Option.mem_toList.mp ha
      exact he.new (hr.log hk hi)

end Invariants

end EventProcessing
