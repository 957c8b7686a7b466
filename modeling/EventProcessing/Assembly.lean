import EventProcessing.Inquiry
import EventProcessing.Invoker
import EventProcessing.Naming
import EventProcessing.Selector

/-!
The assembly of processors out of handlers and sagas. Groups and processors keep the order in which
they first appear, handlers the order of their registration, and sagas come after the groups.
-/

namespace EventProcessing

variable {σ : Type}

structure Saga (σ : Type) where
  sagaType : String
  group : String
  setUp : Configuration σ → Inquiry σ Unit := fun _ => return ()
  manager : Program σ (Invoker σ)

namespace Saga

def defaultGroup (sagaType : String) : String := sagaType ++ "Processor"

def simple (sagaType : String) (group : Option String) (manager : Invoker σ) : Saga σ where
  sagaType
  group := group.getD (defaultGroup sagaType)
  manager := return manager

def describe (saga : Saga σ) : String :=
  Text.record "SimpleSagaConfiguration"
    [("saga_type", Text.quoted saga.sagaType), ("processing_group", Text.quoted saga.group)]
    .partially

end Saga

inductive InvokerSource (σ : Type) where
  | handlers (group : String) (handlers : List (EventHandler σ))
  | saga (saga : Saga σ)

namespace InvokerSource

def group : InvokerSource σ → String
  | .handlers name _ => name
  | .saga s => s.group

/-- The invoker of a source. A group takes its error handler before its policy. -/
def build : InvokerSource σ → Inquiry σ (Invoker σ)
  | .handlers name members => do
    let errorHandler ← Inquiry.resolve .listenerErrorHandler name
    let policy ← Inquiry.resolve .sequencingPolicy name
    return .group { handlers := members, errorHandler, policy }
  | .saga s => s.manager

def buildAll (sources : List (InvokerSource σ)) : Inquiry σ (Invoker σ) := do
  return .all (← sources.mapM build)

end InvokerSource

abbrev Assembly (σ : Type) := Table String (List (InvokerSource σ))

namespace Assembly

def groups (handlers : List (EventHandler σ × String)) : Table String (List (EventHandler σ)) :=
  handlers.foldl (fun groups entry => Table.push groups entry.2 entry.1) []

def ofSources (names : ProcessorNames) (sources : List (InvokerSource σ)) : Assembly σ :=
  sources.foldl (fun assembly source => Table.push assembly (names.resolve source.group) source) []

def sources (handlers : List (EventHandler σ × String)) (sagas : List (Saga σ)) :
    List (InvokerSource σ) :=
  (groups handlers).map (fun entry => .handlers entry.1 entry.2) ++ sagas.map .saga

def ofAssigned (handlers : List (EventHandler σ × String)) (sagas : List (Saga σ))
    (names : ProcessorNames) : Assembly σ :=
  ofSources names (sources handlers sagas)

def traceGroup (names : ProcessorNames) (group : String) : Program σ Unit :=
  Program.trace (.event .debug "processing group assigned"
    [("processing_group", group), ("processor", names.resolve group)])

def make (handlers : List (EventHandler σ)) (sagas : List (Saga σ)) (selectors : SelectorChain σ)
    (names : ProcessorNames) : Program σ (Assembly σ) := do
  let assigned ← handlers.mapM fun handler => do return (handler, ← selectors.assign handler)
  (groups assigned).forM fun entry => traceGroup names entry.1
  return ofAssigned assigned sagas names

end Assembly

end EventProcessing
