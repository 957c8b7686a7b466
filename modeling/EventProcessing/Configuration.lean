import EventProcessing.Component
import EventProcessing.Monitor
import EventProcessing.Settings
import EventProcessing.UnitOfWork

namespace EventProcessing

variable {σ : Type}

abbrev MonitorLookup (σ : Type) := String → String → Program σ (MessageMonitor σ)

structure Configuration (σ : Type) where
  bus : BusId
  providers : List CorrelationProvider := [CorrelationProvider.origin]
  monitors : MonitorLookup σ := fun _ _ => return .silent
  settings : ProcessingSettings := {}

def Configuration.describe (configuration : Configuration σ) : String :=
  Text.record "Configuration"
    [("correlation_data_providers", toString configuration.providers.length),
      ("settings", configuration.settings.describe)]
    .partially

abbrev Part (σ α : Type) := Component (ProgramOver σ (Consumer σ)) (Configuration σ) Empty α

abbrev Factory (σ α : Type) := Configuration σ → Program σ α

namespace Part

variable {α : Type}

def ofFactory (name : String) (factory : Factory σ α) : Part σ α where
  name
  factory configuration := do return .ok (← factory configuration)

def replace (part : Part σ α) (factory : Factory σ α) : Program σ (Part σ α) :=
  Component.update part fun configuration => do return .ok (← factory configuration)

def resolve (part : Part σ α) (configuration : Configuration σ) : Program σ (α × Part σ α) :=
  Component.value part configuration

end Part

end EventProcessing
