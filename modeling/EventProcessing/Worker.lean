import EventProcessing.Pipeline
import EventProcessing.TokenStore

namespace EventProcessing

variable {σ : Type}

/-- Where a tracking processor reads: the log of a bus, behind a gate that may refuse to read. -/
structure EventSource (σ : Type) where
  bus : BusId
  gate : Program σ Outcome

def EventSource.ofBus (bus : BusId) : EventSource σ := ⟨bus, return .ok ()⟩

structure SegmentWork (σ : Type) where
  processor : Nat
  pipeline : Pipeline σ
  source : EventSource σ
  tokens : TokenStore σ
  segment : Segment
  batchSize : Nat
  pollInterval : Nat

structure Worker (σ : Type) where
  work : SegmentWork σ
  started : Bool := false
  idling : Bool := false
  stopRequested : Bool := false
  /-- The processor is gone: nobody can stop the worker any more. -/
  abandoned : Bool := false
  finished : Bool := false

def Worker.mustEnd (worker : Worker σ) : Bool :=
  worker.stopRequested || (worker.idling && worker.abandoned)

def SegmentWork.label (work : SegmentWork σ) : List (String × String) :=
  [("processor", work.pipeline.name), ("segment", toString work.segment.id)]

structure ProcessorState (σ : Type) where
  chain : List (Interceptor σ) := []
  subscription : Option Nat := none
  workers : Option (List Nat) := none
  /-- The workers of earlier runs that nobody has waited for. -/
  stopping : List Nat := []
  running : Bool := false

end EventProcessing
