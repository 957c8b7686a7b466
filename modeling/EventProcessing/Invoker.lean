import EventProcessing.Handler
import EventProcessing.Segment
import EventProcessing.Sequencing

namespace EventProcessing

variable {σ : Type}

structure HandlerGroup (σ : Type) where
  handlers : List (EventHandler σ)
  errorHandler : ListenerErrorHandler σ
  policy : SequencingPolicy

namespace HandlerGroup

def owns (group : HandlerGroup σ) (event : EventMessage) (segment : Segment) : Bool :=
  segment.covers (group.policy.segmentKey event)

def canHandle (group : HandlerGroup σ) (event : EventMessage) (segment : Segment) : Bool :=
  group.owns event segment && group.handlers.any fun handler => handler.canHandle event

def callEach (errorHandler : ListenerErrorHandler σ) (event : EventMessage) (unit : UnitOfWork) :
    List (EventHandler σ) → Program σ Outcome
  | [] => return .ok ()
  | handler :: rest => do
    if handler.canHandle event then
      match ← handler.handle event unit with
      | .ok () => callEach errorHandler event unit rest
      | .error failure =>
        match ← errorHandler.onError failure event handler with
        | .ok () => callEach errorHandler event unit rest
        | .error failure => return .error failure
    else callEach errorHandler event unit rest

def handle (group : HandlerGroup σ) (event : EventMessage) (unit : UnitOfWork)
    (segment : Segment) : Program σ Outcome :=
  if group.owns event segment then callEach group.errorHandler event unit group.handlers
  else return .ok ()

def describe (group : HandlerGroup σ) : String :=
  Text.record "SimpleEventHandlerInvoker"
    [("handlers", Text.list (group.handlers.map fun handler => Text.quoted handler.typeName))]
    .partially

end HandlerGroup

structure Manager (σ : Type) where
  self : Instance
  canHandle : EventMessage → Segment → Bool
  handle : EventMessage → UnitOfWork → Segment → Program σ Outcome
  supportsReset : Bool

inductive Invoker (σ : Type) where
  | group (group : HandlerGroup σ)
  | manager (manager : Manager σ)
  | all (invokers : List (Invoker σ))

namespace Invoker

instance : Inhabited (Invoker σ) := ⟨.all []⟩

mutual

def canHandle : Invoker σ → EventMessage → Segment → Bool
  | .group g, event, segment => g.canHandle event segment
  | .manager m, event, segment => m.canHandle event segment
  | .all invokers, event, segment => canHandleAny invokers event segment

def canHandleAny : List (Invoker σ) → EventMessage → Segment → Bool
  | [], _, _ => false
  | invoker :: rest, event, segment =>
    invoker.canHandle event segment || canHandleAny rest event segment

end

mutual

def handle : Invoker σ → EventMessage → UnitOfWork → Segment → Program σ Outcome
  | .group g, event, unit, segment => g.handle event unit segment
  | .manager m, event, unit, segment => m.handle event unit segment
  | .all invokers, event, unit, segment => handleAll invokers event unit segment

def handleAll : List (Invoker σ) → EventMessage → UnitOfWork → Segment → Program σ Outcome
  | [], _, _, _ => return .ok ()
  | invoker :: rest, event, unit, segment => do
    if invoker.canHandle event segment then
      match ← invoker.handle event unit segment with
      | .ok () => handleAll rest event unit segment
      | .error failure => return .error failure
    else handleAll rest event unit segment

end

mutual

def supportsReset : Invoker σ → Bool
  | .group _ => true
  | .manager m => m.supportsReset
  | .all invokers => allSupportReset invokers

def allSupportReset : List (Invoker σ) → Bool
  | [] => true
  | invoker :: rest => invoker.supportsReset && allSupportReset rest

end

end Invoker

end EventProcessing
