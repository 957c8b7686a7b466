import EventProcessing.Processor.Tracking
import EventProcessing.Proofs.Execution

namespace EventProcessing

variable {σ α : Type} {depth : ℕ} {s s' : System σ}

lemma System.Frame.tokenMemory_eq (h : Frame s s') (id : ℕ) :
    s'.tokenMemory id = s.tokenMemory id := by
  unfold tokenMemory
  rw [h.tokens]

@[simp] lemma System.tokenMemory_setTokenMemory (s : System σ) (id : ℕ) (memory : TokenMemory) :
    (s.setTokenMemory id memory).tokenMemory id = memory := by
  simp [System.tokenMemory, setTokenMemory]

lemma System.tokenMemory_setTokenMemory_of_ne (s : System σ) {id other : ℕ} (memory : TokenMemory)
    (h : other ≠ id) : (s.setTokenMemory id memory).tokenMemory other = s.tokenMemory other := by
  rw [System.tokenMemory, setTokenMemory, Table.get?_put_of_ne _ _ h, System.tokenMemory]

namespace TokenStore

def Accepts (store : TokenStore σ) : Prop := ∀ call, (store.gate call).Ends (· = .ok ())

variable {store : TokenStore σ} {name : String} {segment : ℕ}

lemma Accepts.elim {call : TokenCall} {f : Failure} (ha : store.Accepts)
    (h : System.run depth (store.gate call) s = some (.error f, s')) : False := by
  cases ha call depth s _ s' h

lemma fetch_cases {r : Except Failure (Option Token)}
    (h : store.fetch name segment depth s = some (r, s')) :
    System.Frame s s' ∧ (r = (s.tokenMemory store.self.id).fetch name segment ∨
      ∃ f, r = .error f ∧ ¬ store.Accepts) := by
  obtain ⟨outcome, middle, hg, hr⟩ := Run.bind_eq_some.mp h
  have hframe := System.frame_run hg
  cases outcome with
  | error f =>
    cases hr
    exact ⟨hframe, .inr ⟨f, rfl, fun ha => ha.elim hg⟩⟩
  | ok _ =>
    cases hr
    refine ⟨hframe, .inl ?_⟩
    rw [← hframe.tokenMemory_eq]

lemma segments_cases {r : Except Failure (List ℕ)}
    (h : store.segments name depth s = some (r, s')) :
    System.Frame s s' ∧ (r = .ok ((s.tokenMemory store.self.id).segments name) ∨
      ∃ f, r = .error f ∧ ¬ store.Accepts) := by
  obtain ⟨outcome, middle, hg, hr⟩ := Run.bind_eq_some.mp h
  have hframe := System.frame_run hg
  cases outcome with
  | error f =>
    cases hr
    exact ⟨hframe, .inr ⟨f, rfl, fun ha => ha.elim hg⟩⟩
  | ok _ =>
    cases hr
    refine ⟨hframe, .inl ?_⟩
    rw [← hframe.tokenMemory_eq]

lemma put_cases {token : Token} {r : Outcome}
    (h : store.put name segment token depth s = some (r, s')) :
    (∃ middle, System.Frame s middle ∧ r = .ok () ∧
      s' = middle.setTokenMemory store.self.id
        ((s.tokenMemory store.self.id).store name segment token)) ∨
    System.Frame s s' ∧ ∃ f, r = .error f ∧ ¬ store.Accepts := by
  obtain ⟨outcome, middle, hg, hr⟩ := Run.bind_eq_some.mp h
  have hframe := System.frame_run hg
  cases outcome with
  | error f =>
    cases hr
    exact .inr ⟨hframe, f, rfl, fun ha => ha.elim hg⟩
  | ok _ =>
    cases hr
    refine .inl ⟨middle, hframe, rfl, ?_⟩
    rw [← hframe.tokenMemory_eq]

lemma begin_cases {count : ℕ} {initial : Option Token} {r : Outcome}
    (h : store.begin name count initial depth s = some (r, s')) :
    (∃ middle, System.Frame s middle ∧ r = .ok () ∧
      (s.tokenMemory store.self.id).segments name = [] ∧
      s' = middle.setTokenMemory store.self.id
        ((s.tokenMemory store.self.id).create name initial count)) ∨
    System.Frame s s' ∧ ∃ f, r = .error f := by
  obtain ⟨outcome, middle, hg, hr⟩ := Run.bind_eq_some.mp h
  have hframe := System.frame_run hg
  cases outcome with
  | error f =>
    cases hr
    exact .inr ⟨hframe, f, rfl⟩
  | ok _ =>
    obtain ⟨_, _, hm, hr⟩ := Run.bind_eq_some.mp hr
    cases hm
    rw [← hframe.tokenMemory_eq]
    cases hb : (middle.tokenMemory store.self.id).begin? name count initial with
    | error f =>
      rw [hb] at hr
      cases hr
      exact .inr ⟨hframe, f, rfl⟩
    | ok memory =>
      rw [hb] at hr
      cases hr
      unfold TokenMemory.begin? at hb
      split at hb
      · next he =>
        cases hb
        exact .inl ⟨middle, hframe, rfl, List.isEmpty_iff.mp he, rfl⟩
      · cases hb

section Gate

variable {count : ℕ} {initial : Option Token} {f : Failure}

lemma segments_of_error
    (h : System.run depth (store.gate (.segments name)) s = some (.error f, s')) :
    store.segments name depth s = some (.error f, s') :=
  Run.bind_eq_some.mpr ⟨_, _, h, rfl⟩

lemma segments_of_ok
    (h : System.run depth (store.gate (.segments name)) s = some (.ok (), s')) :
    store.segments name depth s =
      some (.ok ((s.tokenMemory store.self.id).segments name), s') := by
  rw [← (System.frame_run h).tokenMemory_eq]
  exact Run.bind_eq_some.mpr ⟨_, _, h, rfl⟩

lemma begin_of_error
    (h : System.run depth (store.gate (.begin name count initial)) s = some (.error f, s')) :
    store.begin name count initial depth s = some (.error f, s') :=
  Run.bind_eq_some.mpr ⟨_, _, h, rfl⟩

lemma begin_of_ok
    (h : System.run depth (store.gate (.begin name count initial)) s = some (.ok (), s'))
    (hempty : (s.tokenMemory store.self.id).segments name = []) :
    store.begin name count initial depth s = some (.ok (), s'.setTokenMemory store.self.id
      ((s.tokenMemory store.self.id).create name initial count)) := by
  rw [← (System.frame_run h).tokenMemory_eq] at hempty ⊢
  refine Run.bind_eq_some.mpr ⟨_, _, h, Run.bind_eq_some.mpr ⟨_, s', rfl, ?_⟩⟩
  rw [TokenMemory.begin?, hempty]
  rfl

lemma begin_of_some {id : ℕ} {ids : List ℕ}
    (h : System.run depth (store.gate (.begin name count initial)) s = some (.ok (), s'))
    (hids : (s.tokenMemory store.self.id).segments name = id :: ids) :
    store.begin name count initial depth s = some (.error (.segmentsExist name), s') := by
  rw [← (System.frame_run h).tokenMemory_eq] at hids
  refine Run.bind_eq_some.mpr ⟨_, _, h, Run.bind_eq_some.mpr ⟨_, s', rfl, ?_⟩⟩
  rw [TokenMemory.begin?, hids]
  rfl

lemma fetch_of_ok
    (h : System.run depth (store.gate (.fetch name segment)) s = some (.ok (), s')) :
    store.fetch name segment depth s =
      some ((s.tokenMemory store.self.id).fetch name segment, s') := by
  rw [← (System.frame_run h).tokenMemory_eq]
  exact Run.bind_eq_some.mpr ⟨_, _, h, rfl⟩

lemma put_of_ok {token : Token}
    (h : System.run depth (store.gate (.store name segment token)) s = some (.ok (), s')) :
    store.put name segment token depth s = some (.ok (), s'.setTokenMemory store.self.id
      ((s.tokenMemory store.self.id).store name segment token)) := by
  rw [← (System.frame_run h).tokenMemory_eq]
  exact Run.bind_eq_some.mpr ⟨_, _, h, Run.bind_eq_some.mpr ⟨_, s', rfl, rfl⟩⟩

end Gate

end TokenStore

lemma EventSource.read_cases {source : EventSource σ} {after : Option Token} {max : ℕ}
    {r : Except Failure (List TrackedEvent)}
    (h : source.read after max depth s = some (r, s')) :
    System.Frame s s' ∧
      (r = .ok (readLog (s'.bus source.bus).log after max) ∨ ∃ f, r = .error f) := by
  obtain ⟨outcome, middle, hg, hr⟩ := Run.bind_eq_some.mp h
  have hframe := System.frame_run hg
  cases outcome with
  | error f =>
    cases hr
    exact ⟨hframe, .inr ⟨f, rfl⟩⟩
  | ok _ =>
    cases hr
    exact ⟨hframe, .inl rfl⟩

namespace SegmentWork

def fetch (work : SegmentWork σ) : Run σ (Except Failure (Option Token)) :=
  work.tokens.fetch work.pipeline.name work.segment.id.toNat

/-- A worker gets its token and, behind it, a batch from the log; then the system is in `start`. -/
def Reads (work : SegmentWork σ) (depth : ℕ) (s : System σ) (token : Option Token)
    (batch : List TrackedEvent) (start : System σ) : Prop :=
  ∃ middle, work.fetch depth s = some (.ok token, middle) ∧
    work.source.read token work.batchSize depth middle = some (.ok batch, start)

def process (work : SegmentWork σ) (batch : List TrackedEvent) (depth : ℕ) (start : System σ) :
    Option (Outcome × System σ) :=
  System.run depth
    (work.pipeline.processBatch (start.processor work.processor).chain
      (batch.map TrackedEvent.message) work.segment) start

def store (work : SegmentWork σ) (token : Token) : Run σ Outcome :=
  work.tokens.put work.pipeline.name work.segment.id.toNat token

inductive Steps (work : SegmentWork σ) (depth : ℕ) (s : System σ) :
    Except Failure Bool → System σ → Prop
  | unfetched {f : Failure} {s' : System σ} (h : work.fetch depth s = some (.error f, s')) :
      Steps work depth s (.error f) s'
  | unread {token : Option Token} {middle s' : System σ} {f : Failure}
      (hf : work.fetch depth s = some (.ok token, middle))
      (hr : work.source.read token work.batchSize depth middle = some (.error f, s')) :
      Steps work depth s (.error f) s'
  | idle {token : Option Token} {s' : System σ} (h : work.Reads depth s token [] s') :
      Steps work depth s (.ok false) s'
  | failed {token : Option Token} {batch : List TrackedEvent} {start s' : System σ} {f : Failure}
      (h : work.Reads depth s token batch start) (hb : batch ≠ [])
      (hp : work.process batch depth start = some (.error f, s')) :
      Steps work depth s (.error f) s'
  | unstored {token : Option Token} {batch : List TrackedEvent} {start done s' : System σ}
      {last : Token} {f : Failure} (h : work.Reads depth s token batch start)
      (hl : headToken? batch = some last)
      (hp : work.process batch depth start = some (.ok (), done))
      (hs : work.store last depth done = some (.error f, s')) :
      Steps work depth s (.error f) s'
  | stored {token : Option Token} {batch : List TrackedEvent} {start done s' : System σ}
      {last : Token} (h : work.Reads depth s token batch start)
      (hl : headToken? batch = some last)
      (hp : work.process batch depth start = some (.ok (), done))
      (hs : work.store last depth done = some (.ok (), s')) :
      Steps work depth s (.ok true) s'

variable {work : SegmentWork σ}

lemma headToken?_eq_none {batch : List TrackedEvent} : headToken? batch = none ↔ batch = [] := by
  simp [headToken?]

lemma ne_nil_of_headToken? {batch : List TrackedEvent} {last : Token}
    (h : headToken? batch = some last) : batch ≠ [] := by
  rintro rfl
  cases h

lemma steps_of_step {r : Except Failure Bool} (h : work.step depth s = some (r, s')) :
    work.Steps depth s r s' := by
  obtain ⟨token, middle, hf, h⟩ := Run.bind_eq_some.mp h
  cases token with
  | error f =>
    cases h
    exact .unfetched hf
  | ok token =>
    obtain ⟨batch, start, hr, h⟩ := Run.bind_eq_some.mp h
    cases batch with
    | error f =>
      cases h
      exact .unread hf hr
    | ok batch =>
      dsimp only at h
      cases hl : headToken? batch with
      | none =>
        rw [hl] at h
        cases h
        obtain rfl := headToken?_eq_none.mp hl
        exact .idle ⟨middle, hf, hr⟩
      | some last =>
        have hb := ne_nil_of_headToken? hl
        rw [hl] at h
        obtain ⟨_, _, hc, h⟩ := Run.bind_eq_some.mp h
        cases hc
        obtain ⟨outcome, done, hp, h⟩ := Run.bind_eq_some.mp h
        cases outcome with
        | error f =>
          cases h
          exact .failed ⟨middle, hf, hr⟩ hb hp
        | ok _ =>
          obtain ⟨outcome, ending, hs, h⟩ := Run.bind_eq_some.mp h
          cases outcome with
          | error f =>
            cases h
            exact .unstored ⟨middle, hf, hr⟩ hl hp hs
          | ok _ =>
            cases h
            exact .stored ⟨middle, hf, hr⟩ hl hp hs

lemma step_of_idle {token : Option Token} (h : work.Reads depth s token [] s') :
    work.step depth s = some (.ok false, s') := by
  obtain ⟨middle, hf, hr⟩ := h
  exact Run.bind_eq_some.mpr ⟨_, _, hf, Run.bind_eq_some.mpr ⟨_, _, hr, rfl⟩⟩

lemma step_of_stored {token : Option Token} {batch : List TrackedEvent} {last : Token}
    {start done : System σ}
    (h : work.Reads depth s token batch start) (hl : headToken? batch = some last)
    (hp : work.process batch depth start = some (.ok (), done))
    (hs : work.store last depth done = some (.ok (), s')) :
    work.step depth s = some (.ok true, s') := by
  obtain ⟨middle, hf, hr⟩ := h
  refine Run.bind_eq_some.mpr ⟨_, _, hf, Run.bind_eq_some.mpr ⟨_, _, hr, ?_⟩⟩
  dsimp only
  rw [hl]
  exact Run.bind_eq_some.mpr ⟨_, _, rfl, Run.bind_eq_some.mpr ⟨_, _, hp,
    Run.bind_eq_some.mpr ⟨_, _, hs, rfl⟩⟩⟩

lemma Reads.frame {token : Option Token} {batch : List TrackedEvent}
    (h : work.Reads depth s token batch s') : System.Frame s s' := by
  obtain ⟨middle, hf, hr⟩ := h
  exact (TokenStore.fetch_cases hf).1.trans (EventSource.read_cases hr).1

lemma frame_process {batch : List TrackedEvent} {outcome : Outcome}
    (h : work.process batch depth s = some (outcome, s')) : System.Frame s s' :=
  System.frame_run h

lemma Reads.token_eq {token : Option Token} {batch : List TrackedEvent}
    (h : work.Reads depth s token batch s') :
    (s.tokenMemory work.tokens.self.id).get? (work.pipeline.name, work.segment.id.toNat) =
      some token := by
  obtain ⟨middle, hf, -⟩ := h
  obtain ⟨-, hm | ⟨_, hm, -⟩⟩ := TokenStore.fetch_cases hf
  · unfold TokenMemory.fetch at hm
    split at hm
    · cases hm
      assumption
    · cases hm
  · cases hm

lemma Reads.batch_eq {token : Option Token} {batch : List TrackedEvent}
    (h : work.Reads depth s token batch s') :
    batch = readLog (s'.bus work.source.bus).log token work.batchSize := by
  obtain ⟨middle, -, hr⟩ := h
  obtain ⟨-, hm | ⟨_, hm⟩⟩ := EventSource.read_cases hr <;> cases hm
  rfl

theorem frame_of_step {r : Except Failure Bool} (h : work.step depth s = some (r, s'))
    (hne : r ≠ .ok true) : System.Frame s s' := by
  cases steps_of_step h with
  | unfetched hf => exact (TokenStore.fetch_cases hf).1
  | unread hf hr => exact (TokenStore.fetch_cases hf).1.trans (EventSource.read_cases hr).1
  | idle hr => exact hr.frame
  | failed hr hb hp => exact hr.frame.trans (frame_process hp)
  | unstored hr hl hp hs =>
    apply (hr.frame.trans (frame_process hp)).trans
    obtain ⟨_, -, hs, -⟩ | ⟨hs, -⟩ := TokenStore.put_cases hs
    · cases hs
    · exact hs
  | stored => exact absurd rfl hne

end SegmentWork

end EventProcessing
