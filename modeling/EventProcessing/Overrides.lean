import EventProcessing.Handler
import EventProcessing.OverrideTable
import EventProcessing.SagaStore
import EventProcessing.Sequencing
import EventProcessing.TokenStore
import EventProcessing.Transaction

namespace EventProcessing

variable {σ : Type}

inductive Axis where
  | listenerErrorHandler
  | sequencingPolicy
  | errorHandler
  | tokenStore
  | rollbackRule
  | transactionManager
  deriving DecidableEq

namespace Axis

abbrev Value (σ : Type) : Axis → Type
  | .listenerErrorHandler => ListenerErrorHandler σ
  | .sequencingPolicy => SequencingPolicy
  | .errorHandler => ErrorHandler σ
  | .tokenStore => TokenStore σ
  | .rollbackRule => RollbackRule σ
  | .transactionManager => TransactionManager σ

def name : Axis → String
  | .listenerErrorHandler => "listener_invocation_error_handler"
  | .sequencingPolicy => "sequencing_policy"
  | .errorHandler => "error_handler"
  | .tokenStore => "token_store"
  | .rollbackRule => "rollback_configuration"
  | .transactionManager => "transaction_manager"

def standard : (axis : Axis) → Factory σ (axis.Value σ)
  | .listenerErrorHandler => fun _ => .logging <$> Program.fresh
  | .sequencingPolicy => fun _ => .perAggregate <$> Program.fresh
  | .errorHandler => fun _ => .propagating <$> Program.fresh
  | .tokenStore => fun _ => .inMemory <$> Program.fresh
  | .rollbackRule => fun _ => .anyError <$> Program.fresh
  | .transactionManager => fun _ => .none <$> Program.fresh

def self : {axis : Axis} → axis.Value σ → Instance
  | .listenerErrorHandler => ListenerErrorHandler.self
  | .sequencingPolicy => SequencingPolicy.self
  | .errorHandler => ErrorHandler.self
  | .tokenStore => TokenStore.self
  | .rollbackRule => RollbackRule.self
  | .transactionManager => TransactionManager.self

end Axis

/-- Monitors are made anew for every question. -/
abbrev MonitorFactory (σ : Type) := Configuration σ → MonitorLookup σ

structure Overrides (σ : Type) where
  table : (axis : Axis) → OverrideTable σ (axis.Value σ) :=
    fun axis => .make axis.name axis.standard
  monitorFactories : Table String (MonitorFactory σ) := []
  sagaStore : Part σ SagaStore := .ofFactory "saga_store" fun _ => .inMemory <$> Program.fresh

abbrev Resolving (σ : Type) := StateT (Overrides σ) (ProgramOver σ (Consumer σ))

namespace Overrides

def setTable (overrides : Overrides σ) (axis : Axis) (table : OverrideTable σ (axis.Value σ)) :
    Overrides σ :=
  { overrides with
    table := fun other => if h : axis = other then h ▸ table else overrides.table other }

@[simp] theorem table_setTable_self (overrides : Overrides σ) (axis : Axis)
    (table : OverrideTable σ (axis.Value σ)) :
    (overrides.setTable axis table).table axis = table := by
  simp [setTable]

theorem table_setTable_of_ne (overrides : Overrides σ) {axis other : Axis}
    (table : OverrideTable σ (axis.Value σ)) (h : other ≠ axis) :
    (overrides.setTable axis table).table other = overrides.table other := by
  simp [setTable, Ne.symm h]

def register (axis : Axis) (key : Option String) (factory : Factory σ (axis.Value σ))
    (overrides : Overrides σ) : Program σ (Overrides σ) := do
  let table := overrides.table axis
  overrides.setTable axis <$> match key with
    | some key => table.register key factory
    | none => table.registerDefault factory

def resolve (axis : Axis) (key : String) (configuration : Configuration σ) :
    Resolving σ (axis.Value σ) := fun overrides => do
  let (value, table) ← (overrides.table axis).resolve key configuration
  return (value, overrides.setTable axis table)

def sharedSagaStore (configuration : Configuration σ) : Resolving σ SagaStore :=
  fun overrides => do
    let (value, part) ← overrides.sagaStore.resolve configuration
    return (value, { overrides with sagaStore := part })

def messageMonitor (configuration : Configuration σ) (componentType name : String) :
    Resolving σ (MessageMonitor σ) := fun overrides => do
  let lookup := match overrides.monitorFactories.get? name with
    | some factory => factory configuration
    | none => configuration.monitors
  return (← lookup componentType name, overrides)

def registerMonitors (name : String) (factory : MonitorFactory σ) (overrides : Overrides σ) :
    Overrides σ :=
  { overrides with monitorFactories := overrides.monitorFactories.put name factory }

def registerMonitor (name : String) (factory : Factory σ (MessageMonitor σ)) :
    Overrides σ → Overrides σ :=
  registerMonitors name fun configuration _ _ => factory configuration

def registerSagaStore (factory : Factory σ SagaStore) (overrides : Overrides σ) :
    Program σ (Overrides σ) := do
  return { overrides with sagaStore := ← overrides.sagaStore.replace factory }

def reset (overrides : Overrides σ) : Overrides σ where
  table axis := (overrides.table axis).reset
  monitorFactories := overrides.monitorFactories
  sagaStore := overrides.sagaStore.reset

def describe (overrides : Overrides σ) : String :=
  Text.record "OverrideRegistry"
    [("error_handlers", (overrides.table .errorHandler).describe),
      ("token_stores", (overrides.table .tokenStore).describe)]
    .partially

def describeWith (overrides : Overrides σ) (configuration : Configuration σ) : String :=
  Text.record "ProcessingContext"
    [("configuration", configuration.describe), ("overrides", overrides.describe)]
    .complete

end Overrides

end EventProcessing
