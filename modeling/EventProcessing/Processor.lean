import EventProcessing.Settings
import EventProcessing.System

/-!
Event processors: those that handle events inside the publish, those that track a log with workers
of their own, and others of any kind. What changes about a processor is kept by the system.
-/

namespace EventProcessing

variable {σ : Type}

structure CustomProcessor (σ : Type) where
  invoker : Invoker σ
  start : Program σ Outcome
  shutDown : Program σ Outcome

structure TrackingProcessor (σ : Type) where
  pipeline : Pipeline σ
  source : EventSource σ
  tokens : TokenStore σ
  settings : TrackingSettings

inductive ProcessorKind (σ : Type) where
  | subscribing (pipeline : Pipeline σ) (bus : BusId)
  | tracking (tracking : TrackingProcessor σ)
  | custom (processor : CustomProcessor σ)

structure Processor (σ : Type) where
  self : Instance
  name : String
  kind : ProcessorKind σ

namespace Processor

def invoker (processor : Processor σ) : Invoker σ :=
  match processor.kind with
  | .subscribing pipeline _ => pipeline.invoker
  | .tracking t => t.pipeline.invoker
  | .custom c => c.invoker

def tracking? (processor : Processor σ) : Option (TrackingProcessor σ) :=
  match processor.kind with
  | .tracking t => some t
  | _ => none

def isSubscribing (processor : Processor σ) : Bool :=
  match processor.kind with
  | .subscribing .. => true
  | _ => false

def state (processor : Processor σ) : Run σ (ProcessorState σ) := do
  return (← Run.system).processor processor.self.id

def updateState (processor : Processor σ) (f : ProcessorState σ → ProcessorState σ) :
    Run σ Unit :=
  Run.update fun system =>
    system.setProcessor processor.self.id (f (system.processor processor.self.id))

def interceptors (processor : Processor σ) : Run σ (List (Interceptor σ)) := do
  return (← processor.state).chain

/-- Adds an interceptor at the end of the chain. Only a processor of another kind takes the same
object twice. -/
def addInterceptor (processor : Processor σ) (interceptor : Interceptor σ) : Run σ Unit :=
  processor.updateState fun state =>
    { state with
      chain := match processor.kind with
        | .custom _ => state.chain ++ [interceptor]
        | _ => Interceptor.addUnique state.chain interceptor }

def isRunning (processor : Processor σ) (state : ProcessorState σ) : Bool :=
  match processor.kind with
  | .subscribing .. => state.subscription.isSome
  | .tracking _ => state.workers.isSome
  | .custom _ => state.running

def activeSegments (state : ProcessorState σ) : Nat := state.workers.elim 0 List.length

def describe? (processor : Processor σ) (state : ProcessorState σ) : Option String :=
  match processor.kind with
  | .subscribing .. =>
    some (Text.record "SubscribingEventProcessor"
      [("name", Text.quoted processor.name),
        ("running", toString (processor.isRunning state))]
      .partially)
  | .tracking t =>
    some (Text.record "TrackingEventProcessor"
      [("name", Text.quoted processor.name), ("settings", t.settings.describe),
        ("active_segments", toString (activeSegments state))]
      .partially)
  | .custom _ => none

end Processor

end EventProcessing
