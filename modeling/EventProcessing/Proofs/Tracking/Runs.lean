import EventProcessing.Processor.Lifecycle
import EventProcessing.Proofs.Accounting
import EventProcessing.Proofs.Log
import EventProcessing.Proofs.Tracking.Positions

namespace EventProcessing

variable {σ : Type}

/-- A batch that a worker read, and what came of its step. The system is in `start` when the batch
goes to the pipeline. -/
structure Attempt (σ : Type) where
  work : SegmentWork σ
  depth : ℕ
  token : Option Token
  batch : List TrackedEvent
  start : System σ
  result : Except Failure Bool

namespace Attempt

def segment (a : Attempt σ) : Segment := a.work.segment

def key (a : Attempt σ) : ℕ := a.segment.id.toNat

def chain (a : Attempt σ) : List (Interceptor σ) := (a.start.processor a.work.processor).chain

def events (a : Attempt σ) : List EventMessage := a.batch.map TrackedEvent.message

def stored (a : Attempt σ) : Bool :=
  match a.result with
  | .ok processed => processed
  | .error _ => false

def notes (a : Attempt σ) : List Note :=
  match System.run a.depth (a.work.pipeline.watched a.chain a.events a.segment)
    (a.start.quiet []) with
  | some (_, s) => s.shared.notes
  | none => []

lemma notes_eq {a : Attempt σ} {outcome : Outcome} {s : System σ} {notes : List Note}
    (h : System.run a.depth (a.work.pipeline.watched a.chain a.events a.segment)
      (a.start.quiet []) = some (outcome, s.quiet notes)) : a.notes = notes := by
  unfold Attempt.notes
  rw [h]
  rfl

end Attempt

def SegmentWork.attempt? (work : SegmentWork σ) (depth : ℕ) (s : System σ)
    (result : Except Failure Bool) : Option (Attempt σ) :=
  match work.fetch depth s with
  | some (.ok token, middle) =>
    match work.source.read token work.batchSize depth middle with
    | some (.ok (first :: rest), start) =>
      some { work, depth, token, batch := first :: rest, start, result }
    | _ => none
  | _ => none

/-- What happens elsewhere: nobody else creates or stores the positions of the processor, shortens
its log or gives it workers. -/
structure Elsewhere (p : Processor σ) (t : TrackingProcessor σ) (s s' : System σ) : Prop where
  positions : ∀ k, t.position? s' k = t.position? s k
  log : Bus.Extends (s.bus t.source.bus).log (s'.bus t.source.bus).log
  workers : ∀ id worker, s'.workers.get? id = some worker → worker.work.processor = p.self.id →
    ∃ other, s.workers.get? id = some other ∧ other.work = worker.work

/-- One thing that happens while there is a tracking processor, with the batch that is read. Workers
that were told to stop may take steps too. -/
inductive Transition (p : Processor σ) (t : TrackingProcessor σ) :
    System σ → Option (Attempt σ) → System σ → Prop
  | program {s s' : System σ} {α : Type} {depth : ℕ} {program : Program σ α} {value : α}
      (h : System.run depth program s = some (value, s')) : Transition p t s none s'
  | intercept {s s' : System σ} {depth : ℕ} {interceptor : Interceptor σ}
      (h : p.addInterceptor interceptor depth s = some ((), s')) : Transition p t s none s'
  | start {s s' : System σ} {depth : ℕ} {outcome : Outcome}
      (h : p.start depth s = some (outcome, s')) : Transition p t s none s'
  | shutDown {s s' : System σ} {depth : ℕ} {outcome : Outcome}
      (h : p.shutDown depth s = some (outcome, s')) : Transition p t s none s'
  | await {s s' : System σ} {depth : ℕ} {workers : List ℕ}
      (h : p.takeStopping depth s = some (workers, s')) : Transition p t s none s'
  | elsewhere {s s' : System σ} (h : Elsewhere p t s s') : Transition p t s none s'
  | work {s s' : System σ} {id depth : ℕ} {worker : Worker σ} {result : Except Failure Bool}
      (hw : s.workers.get? id = some worker) (hp : worker.work.processor = p.self.id)
      (h : worker.work.step depth s = some (result, s')) :
      Transition p t s (worker.work.attempt? depth s result) s'

structure Initial (p : Processor σ) (t : TrackingProcessor σ) (s : System σ) : Prop where
  log : Bus.Extends [] (s.bus t.source.bus).log
  workers : ∀ id worker, s.workers.get? id = some worker → worker.work.processor ≠ p.self.id

/-- The states that are reached from `s₀`, with the first position that each segment had in the
store and the batches that were read, in order. -/
inductive Reaches (p : Processor σ) (t : TrackingProcessor σ) (s₀ : System σ) :
    (ℕ → Option (Option Token)) → List (Attempt σ) → System σ → Prop
  | init : Reaches p t s₀ (t.position? s₀) [] s₀
  | next {base : ℕ → Option (Option Token)} {attempts : List (Attempt σ)} {s s' : System σ}
      {attempt : Option (Attempt σ)} (hr : Reaches p t s₀ base attempts s)
      (ht : Transition p t s attempt s') :
      Reaches p t s₀ (fun k => (base k).or (t.position? s' k)) (attempts ++ attempt.toList) s'

namespace Sample

def sound : Pipeline Unit :=
  pipeline (group (fun _ => .ok ()) (.logging 0)) (.anyError 0) (.propagating 0)

def tracking (pipeline : Pipeline Unit) : TrackingProcessor Unit where
  pipeline
  source := .ofBus 0
  tokens := .inMemory 0
  settings := { batchSize := 2 }

def processor (pipeline : Pipeline Unit) : Processor Unit :=
  ⟨⟨0, "sample"⟩, "sample", .tracking (tracking pipeline)⟩

def logged : System Unit where
  shared := ()
  buses := [(0, { log := [⟨0, event "first"⟩, ⟨1, event "second"⟩] })]

def work (pipeline : Pipeline Unit) : SegmentWork Unit :=
  Processor.work 0 (tracking pipeline) .root

def created (s : System Unit) : System Unit := { s with tokens := [(0, [(("sample", 0), none)])] }

def started (pipeline : Pipeline Unit) : System Unit where
  shared := ()
  nextId := 1
  buses := logged.buses
  tokens := [(0, [(("sample", 0), none)])]
  processors := [(0, { workers := some [0] })]
  workers := [(0, { work := work pipeline })]
  ready := [0]
  trace := [.event .info "tracking event processor started"
    [("processor", "sample"), ("segments", toString 1)]]

def attempt (pipeline : Pipeline Unit) : Attempt Unit where
  work := work pipeline
  depth := 1
  token := none
  batch := [⟨0, event "first"⟩, ⟨1, event "second"⟩]
  start := started pipeline
  result := .ok true

section Run

variable (group : HandlerGroup Unit) (rollback : RollbackRule Unit)
  (errorHandler : ErrorHandler Unit)

lemma segments_nil : TokenMemory.segments [] "sample" = [] := by
  simp [TokenMemory.segments, Table.keys]

lemma segments_created : TokenMemory.segments [(("sample", 0), none)] "sample" = [0] := by
  simp [TokenMemory.segments, Table.keys]

lemma claimIds_eq (s : System Unit) (hs : s.tokens = []) (depth : ℕ) :
    (tracking (pipeline group rollback errorHandler)).claimIds depth s =
      some (.ok [0], created s) := by
  have hm : s.tokenMemory 0 = [] := by simp [System.tokenMemory, hs]
  have hfirst : (TokenStore.inMemory 0).segments "sample" depth s = some (.ok [], s) := by
    change some (Except.ok ((s.tokenMemory 0).segments "sample"), s) = _
    rw [hm, segments_nil]
  have hbegin : (TokenStore.inMemory 0).begin "sample" 1 none depth s =
      some (.ok (), created s) := by
    refine Run.bind_eq_some.mpr ⟨.ok (), s, rfl, Run.bind_eq_some.mpr ⟨[], s, ?_, ?_⟩⟩
    · change some (s.tokenMemory 0, s) = _
      rw [hm]
    · have hb : TokenMemory.begin? [] "sample" 1 none = .ok [(("sample", 0), none)] := by
        rw [TokenMemory.begin?, segments_nil]
        rfl
      rw [hb]
      change some ((Except.ok () : Outcome), s.setTokenMemory 0 [(("sample", 0), none)]) = _
      rw [System.setTokenMemory, hs]
      rfl
  have hsecond : (TokenStore.inMemory 0).segments "sample" depth (created s) =
      some (.ok [0], created s) := by
    change some (Except.ok (TokenMemory.segments [(("sample", 0), none)] "sample"), created s) = _
    rw [segments_created]
  refine Run.bind_eq_some.mpr ⟨_, _, hfirst, ?_⟩
  change ((tracking (pipeline group rollback errorHandler)).initialToken >>= fun initial => _ :
    Run Unit _) depth s = _
  refine Run.bind_eq_some.mpr ⟨none, s, rfl, ?_⟩
  exact Run.bind_eq_some.mpr ⟨_, _, hbegin, hsecond⟩

lemma claimSegments_eq (s : System Unit) (hs : s.tokens = []) (depth : ℕ) :
    (tracking (pipeline group rollback errorHandler)).claimSegments depth s =
      some (.ok [.root], created s) := by
  refine Run.bind_eq_some.mpr ⟨_, _, claimIds_eq group rollback errorHandler s hs depth, ?_⟩
  have hl : TrackingProcessor.layout? [0] = some [Segment.root] := by decide
  dsimp only
  rw [hl]
  rfl

lemma start_eq : (processor (pipeline group rollback errorHandler)).start 1 logged =
    some (.ok (), started (pipeline group rollback errorHandler)) := by
  have hclaimed := claimSegments_eq group rollback errorHandler
  refine Run.bind_eq_some.mpr ⟨_, _, rfl, Run.bind_eq_some.mpr ⟨_, _, rfl, ?_⟩⟩
  change ((processor (pipeline group rollback errorHandler)).updateState _ >>= fun _ => _ :
    Run Unit _) 1 logged = _
  refine Run.bind_eq_some.mpr ⟨_, _, rfl, Run.bind_eq_some.mpr ⟨_, _, hclaimed _ rfl 1, ?_⟩⟩
  rfl

lemma initial : Initial (processor (pipeline group rollback errorHandler))
    (tracking (pipeline group rollback errorHandler)) logged := by
  refine ⟨⟨[event "first", event "second"], rfl⟩, ?_⟩
  rintro id worker h
  cases h

lemma reaches {s : System Unit}
    (h : (work (pipeline group rollback errorHandler)).step 1
      (started (pipeline group rollback errorHandler)) = some (.ok true, s)) :
    ∃ base, base 0 = some none ∧
      Reaches (processor (pipeline group rollback errorHandler))
        (tracking (pipeline group rollback errorHandler)) logged base
        [attempt (pipeline group rollback errorHandler)] s := by
  have hstart : Transition (processor (pipeline group rollback errorHandler))
      (tracking (pipeline group rollback errorHandler)) logged none
      (started (pipeline group rollback errorHandler)) :=
    .start (start_eq group rollback errorHandler)
  have hworker : (started (pipeline group rollback errorHandler)).workers.get? 0 =
      some { work := work (pipeline group rollback errorHandler) } := rfl
  have hstep : Transition (processor (pipeline group rollback errorHandler))
      (tracking (pipeline group rollback errorHandler))
      (started (pipeline group rollback errorHandler))
      (some (attempt (pipeline group rollback errorHandler))) s := .work hworker rfl h
  exact ⟨_, rfl, .next (.next .init hstart) hstep⟩

end Run

end Sample

end EventProcessing
