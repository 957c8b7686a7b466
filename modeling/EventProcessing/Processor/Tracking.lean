import EventProcessing.Processor
import EventProcessing.TokenStore.Calls

/-!
Tracking processors: the segments they claim, and the step of a worker. A worker fetches its token,
reads the next events behind it, processes them as one batch and stores the token of the last one. A
step that fails leaves the token where it was.
-/

namespace EventProcessing

variable {σ : Type}

namespace EventSource

def read (source : EventSource σ) (after : Option Token) (max : Nat) :
    Run σ (Except Failure (List TrackedEvent)) := do
  match ← source.gate with
  | .error failure => return .error failure
  | .ok () => return .ok (readLog ((← Run.system).bus source.bus).log after max)

def headToken (source : EventSource σ) : Run σ (Option Token) := do
  return headToken? ((← Run.system).bus source.bus).log

end EventSource

namespace SegmentWork

def step (work : SegmentWork σ) : Run σ (Except Failure Bool) := do
  let name := work.pipeline.name
  let segment := work.segment.id.toNat
  match ← work.tokens.fetch name segment with
  | .error failure => return .error failure
  | .ok token =>
    match ← work.source.read token work.batchSize with
    | .error failure => return .error failure
    | .ok batch =>
      match headToken? batch with
      | none => return .ok false
      | some last =>
        let chain := ((← Run.system).processor work.processor).chain
        let events := batch.map TrackedEvent.message
        match ← work.pipeline.processBatch chain events work.segment with
        | .error failure => return .error failure
        | .ok () =>
          match ← work.tokens.put name segment last with
          | .error failure => return .error failure
          | .ok () => return .ok true

end SegmentWork

namespace TrackingProcessor

/-- The segments of stored ids, which have to be all from zero up to a power of two. -/
def layout? (ids : List Nat) : Option (List Segment) :=
  if ids = List.range ids.length ∧ Segment.roundedCount? ids.length = some ids.length then
    some (Segment.layout ids.length)
  else none

def initialToken (tracking : TrackingProcessor σ) : Run σ (Option Token) :=
  match tracking.settings.initialPosition with
  | .tail => return none
  | .head => tracking.source.headToken

def claimIds (tracking : TrackingProcessor σ) : Run σ (Except Failure (List Nat)) := do
  let name := tracking.pipeline.name
  match ← tracking.tokens.segments name with
  | .error failure => return .error failure
  | .ok (id :: ids) => return .ok (id :: ids)
  | .ok [] =>
    match Segment.roundedCount? tracking.settings.segmentCount with
    | none => return .error .overflow
    | some count =>
      let initial ← tracking.initialToken
      match ← tracking.tokens.begin name count initial with
      | .error failure => return .error failure
      | .ok () => tracking.tokens.segments name

def claimSegments (tracking : TrackingProcessor σ) : Run σ (Except Failure (List Segment)) := do
  match ← tracking.claimIds with
  | .error failure => return .error failure
  | .ok ids =>
    match layout? ids with
    | some segments => return .ok segments
    | none => return .error (.brokenLayout tracking.pipeline.name ids)

end TrackingProcessor

namespace Processor

def work (id : Nat) (tracking : TrackingProcessor σ) (segment : Segment) : SegmentWork σ where
  processor := id
  pipeline := tracking.pipeline
  source := tracking.source
  tokens := tracking.tokens
  segment
  batchSize := max tracking.settings.batchSize 1
  pollInterval := tracking.settings.pollInterval

def spawn (work : SegmentWork σ) : Run σ Nat := do
  let id ← Run.takeId
  Run.update fun system =>
    { system with workers := system.workers.put id { work }, ready := system.ready ++ [id] }
  return id

def isFinished (system : System σ) (worker : Nat) : Bool :=
  (system.workers.get? worker).elim true Worker.finished

/-- A processor that runs stays as it is. One whose earlier workers are not finished cannot be
started. -/
def startTracking (processor : Processor σ) (tracking : TrackingProcessor σ) : Run σ Outcome := do
  let system ← Run.system
  let state ← processor.state
  if !system.hasRuntime then return .error (.noRuntime processor.name)
  else if state.workers.isSome then return .ok ()
  else
    let stopping := state.stopping.filter fun worker => !isFinished system worker
    processor.updateState fun state => { state with stopping }
    if !stopping.isEmpty then return .error (.stillStopping processor.name)
    else
      match ← tracking.claimSegments with
      | .error failure => return .error failure
      | .ok segments =>
        let workers ← segments.mapM fun segment => spawn (work processor.self.id tracking segment)
        Run.trace (.event .info "tracking event processor started"
          [("processor", processor.name), ("segments", toString workers.length)])
        processor.updateState fun state => { state with workers := some workers }
        return .ok ()

def wake (f : Worker σ → Worker σ) (workers : List Nat) (system : System σ) : System σ :=
  let woken := system.idle.filter fun entry => workers.contains entry.2
  { system with
    workers := system.workers.map fun entry =>
      if workers.contains entry.1 then (entry.1, f entry.2) else entry
    idle := system.idle.filter fun entry => !workers.contains entry.2
    ready := system.ready ++ woken.map Prod.snd }

def requestStop (worker : Worker σ) : Worker σ := { worker with stopRequested := true }

def abandonWorker (worker : Worker σ) : Worker σ := { worker with abandoned := true }

def shutDownTracking (processor : Processor σ) : Run σ Outcome := do
  let state ← processor.state
  match state.workers with
  | none => return .ok ()
  | some workers =>
    Run.update (wake requestStop workers)
    processor.updateState fun state =>
      { state with workers := none, stopping := state.stopping ++ workers }
    Run.trace (.event .info "tracking event processor stopped" [("processor", processor.name)])
    return .ok ()

def takeStopping (processor : Processor σ) : Run σ (List Nat) := do
  let state ← processor.state
  processor.updateState fun state => { state with stopping := [] }
  return state.stopping

/-- The processor is dropped while it runs: nobody can stop its workers any more. -/
def abandon (processor : Processor σ) : Run σ Unit := do
  let state ← processor.state
  Run.update (wake abandonWorker (state.workers.getD []))

end Processor

end EventProcessing
