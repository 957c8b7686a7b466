import EventProcessing.Assembly
import EventProcessing.InterceptorRegistry
import EventProcessing.Processor

/-!
Building processors. A builder plans what kind of processor a name gets, with the context at hand;
the collaborators are resolved by that name, and the interceptors registered for it become its
chain.
-/

namespace EventProcessing

variable {σ : Type}

inductive ProcessorPlan (σ : Type) where
  | subscribing (bus : BusId)
  | tracking (source : EventSource σ) (settings : TrackingSettings)
  | custom (label : String) (start shutDown : Program σ Outcome)

abbrev ProcessorBuilder (σ : Type) :=
  Configuration σ → String → Inquiry σ (Except Failure (ProcessorPlan σ))

namespace ProcessorBuilder

def tracking (source : Option (Factory σ (EventSource σ))) (settings : Option TrackingSettings) :
    ProcessorBuilder σ := fun configuration _ => do
  let source ← match source with
    | some factory => factory configuration
    | none => pure (.ofBus configuration.bus)
  return .ok (.tracking source (settings.getD configuration.settings.tracking))

def subscribing (source : Option (Factory σ BusId)) : ProcessorBuilder σ :=
  fun configuration _ => do
    let bus ← match source with
      | some factory => factory configuration
      | none => pure configuration.bus
    return .ok (.subscribing bus)

end ProcessorBuilder

namespace Pipeline

def subscribingType : String := "SubscribingEventProcessor"

def trackingType : String := "TrackingEventProcessor"

def build (componentType name : String) (invoker : Invoker σ) : Inquiry σ (Pipeline σ) := do
  let errorHandler ← Inquiry.resolve .errorHandler name
  let rollback ← Inquiry.resolve .rollbackRule name
  let transactions ← Inquiry.resolve .transactionManager name
  let monitor ← Inquiry.messageMonitor componentType name
  return { name, invoker, errorHandler, rollback, transactions, monitor }

end Pipeline

namespace ProcessorPlan

def build (name : String) (invoker : Invoker σ) : ProcessorPlan σ → Inquiry σ (Processor σ)
  | .subscribing bus => do
    let pipeline ← Pipeline.build Pipeline.subscribingType name invoker
    let self ← (Instance.make "subscribing" : Program σ _)
    return { self, name, kind := .subscribing pipeline bus }
  | .tracking source settings => do
    let pipeline ← Pipeline.build Pipeline.trackingType name invoker
    let tokens ← Inquiry.resolve .tokenStore name
    let self ← (Instance.make "tracking" : Program σ _)
    return { self, name, kind := .tracking { pipeline, source, tokens, settings } }
  | .custom label start shutDown => do
    let self ← (Instance.make label : Program σ _)
    return { self, name, kind := .custom { invoker, start, shutDown } }

end ProcessorPlan

abbrev Building (σ : Type) := StateT (Overrides σ) (Run σ)

def Building.resolve {α : Type} (program : Resolving σ α) : Building σ α :=
  fun overrides => Run.program (program overrides)

instance {m : Type → Type} {τ : Type} [Monad m] [Traces m] : Traces (StateT τ m) :=
  ⟨fun line => StateT.lift (Traces.trace line)⟩

structure ProcessorOrder (σ : Type) where
  name : String
  sources : List (InvokerSource σ)
  builder : ProcessorBuilder σ
  configuration : Configuration σ

namespace ProcessorOrder

def inquiry (order : ProcessorOrder σ) : Inquiry σ (Except Failure (Processor σ)) := do
  let invoker ← InvokerSource.buildAll order.sources
  match ← order.builder order.configuration order.name with
  | .error failure => return .error failure
  | .ok plan => return .ok (← plan.build order.name invoker)

def build (order : ProcessorOrder σ) (registry : InterceptorRegistry σ) :
    Building σ (Except Failure (Processor σ)) := do
  match ← Building.resolve (order.inquiry.run order.configuration) with
  | .error failure => return .error failure
  | .ok processor =>
    let chain ← registry.buildChain order.configuration order.name
    chain.forM fun interceptor => processor.addInterceptor interceptor
    Traces.trace (.event .debug "event processor built" [("processor", order.name)])
    return .ok processor

end ProcessorOrder

abbrev ProcessorCell (σ : Type) :=
  Component (Building σ) (InterceptorRegistry σ) Failure (Processor σ)

def ProcessorOrder.cell (order : ProcessorOrder σ) : ProcessorCell σ where
  name := "event_processor[" ++ order.name ++ "]"
  factory := order.build

end EventProcessing
