import EventProcessing.Program

namespace EventProcessing

variable {σ : Type}

structure MonitorCallback (σ : Type) where
  success : Program σ Unit
  failure : Failure → Program σ Unit
  ignored : Program σ Unit

structure MessageMonitor (σ : Type) where
  ingest : EventMessage → Program σ (MonitorCallback σ)

namespace MessageMonitor

def silent : MessageMonitor σ where
  ingest _ := return { success := return (), failure := fun _ => return (), ignored := return () }

def record (component outcome : String) : Program σ Unit := do
  Program.count (.messages component outcome)
  Program.count (.duration component)

def metrics (component : String) : MessageMonitor σ where
  ingest _ := return {
    success := record component "success"
    failure := fun _ => record component "failure"
    ignored := record component "ignored" }

end MessageMonitor

end EventProcessing
