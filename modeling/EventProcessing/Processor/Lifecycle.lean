import EventProcessing.Processor.Tracking

namespace EventProcessing.Processor

variable {σ : Type}

def startSubscribing (processor : Processor σ) (pipeline : Pipeline σ) (bus : BusId) :
    Run σ Outcome := do
  let state ← processor.state
  if state.subscription.isSome then return .ok ()
  else
    let subscription ← modifyGet fun system =>
      system.subscribe bus (.processor processor.self.id pipeline)
    processor.updateState fun state => { state with subscription := some subscription }
    Run.trace (.event .info "subscribing event processor started" [("processor", processor.name)])
    return .ok ()

def shutDownSubscribing (processor : Processor σ) (bus : BusId) : Run σ Outcome := do
  let state ← processor.state
  match state.subscription with
  | none => return .ok ()
  | some subscription =>
    processor.updateState fun state => { state with subscription := none }
    Run.update fun system => system.cancel bus subscription
    Run.trace (.event .info "subscribing event processor stopped" [("processor", processor.name)])
    return .ok ()

def switchCustom (processor : Processor σ) (program : Program σ Outcome) (running : Bool) :
    Run σ Outcome := do
  match ← program with
  | .error failure => return .error failure
  | .ok () =>
    processor.updateState fun state => { state with running }
    return .ok ()

def start (processor : Processor σ) : Run σ Outcome :=
  match processor.kind with
  | .subscribing pipeline bus => processor.startSubscribing pipeline bus
  | .tracking tracking => processor.startTracking tracking
  | .custom c => processor.switchCustom c.start true

def shutDown (processor : Processor σ) : Run σ Outcome :=
  match processor.kind with
  | .subscribing _ bus => processor.shutDownSubscribing bus
  | .tracking _ => processor.shutDownTracking
  | .custom c => processor.switchCustom c.shutDown false

end EventProcessing.Processor
