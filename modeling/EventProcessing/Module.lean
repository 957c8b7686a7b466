import EventProcessing.Processor.Builder
import EventProcessing.Processor.Lifecycle

namespace EventProcessing

variable {σ : Type}

structure Module (σ : Type) where
  configuration : Option (Configuration σ) := none
  overrides : Overrides σ := {}
  interceptors : InterceptorRegistry σ := {}
  selectors : SelectorChain σ := {}
  names : ProcessorNames := {}
  handlers : List (Part σ (EventHandler σ)) := []
  sagas : List (Part σ (Saga σ)) := []
  builders : Table String (ProcessorBuilder σ) := []
  defaultBuilder : ProcessorBuilder σ := .tracking none none
  activeSagas : List (Saga σ) := []
  assembly : Assembly σ := []
  processors : Table String (ProcessorCell σ) := []

abbrev Managing (σ : Type) := StateT (Module σ) (Run σ)

namespace Module

def registerHandler (module : Module σ) (factory : Factory σ (EventHandler σ)) : Module σ :=
  let name := "event_handler[" ++ toString module.handlers.length ++ "]"
  { module with handlers := module.handlers ++ [.ofFactory name factory] }

def registerSaga (module : Module σ) (factory : Factory σ (Saga σ)) : Module σ :=
  let name := "saga[" ++ toString module.sagas.length ++ "]"
  { module with sagas := module.sagas ++ [.ofFactory name factory] }

def addSelector (module : Module σ) (selector : Selector σ) : Module σ :=
  { module with selectors := module.selectors.add selector }

def setFallback (module : Module σ) (fallback : EventHandler σ → String) : Module σ :=
  { module with selectors := { module.selectors with fallback } }

def assignGroup (module : Module σ) (group processor : String) : Module σ :=
  { module with names := module.names.assign group processor }

def setNamingRule (module : Module σ) (rule : String → String) : Module σ :=
  { module with names := { module.names with rule } }

def registerBuilder (module : Module σ) (name : String) (builder : ProcessorBuilder σ) :
    Except Failure (Module σ) :=
  if module.builders.contains name then .error (.duplicateProcessor name)
  else .ok { module with builders := module.builders.put name builder }

def setDefaultBuilder (module : Module σ) (builder : ProcessorBuilder σ) : Module σ :=
  { module with defaultBuilder := builder }

def registerDefaultInterceptor (module : Module σ) (factory : DefaultInterceptorFactory σ) :
    Module σ :=
  { module with interceptors := module.interceptors.registerDefault factory }

/-- A processor that is built already gets the interceptor at once. -/
def registerInterceptor (name : String) (factory : InterceptorFactory σ) : Managing σ Unit := do
  modify fun module => { module with interceptors := module.interceptors.register name factory }
  let module ← get
  match module.configuration, (module.processors.get? name).bind Component.built with
  | some configuration, some processor =>
    Traces.trace (.event .debug "applying interceptor to running processor" [("processor", name)])
    let interceptor ← factory configuration
    processor.addInterceptor interceptor
  | _, _ => return ()

def changeOverrides (change : Overrides σ → Program σ (Overrides σ)) : Managing σ Unit := do
  let overrides ← change (← get).overrides
  modify fun module => { module with overrides }

def describe (module : Module σ) : String :=
  Text.record "EventProcessingModule"
    [("initialized", toString module.configuration.isSome),
      ("handlers", toString module.handlers.length),
      ("processors", Text.list (module.processors.keys.map Text.quoted))]
    .partially

end Module

end EventProcessing
