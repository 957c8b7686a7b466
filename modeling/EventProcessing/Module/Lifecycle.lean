import EventProcessing.Module.Queries

namespace EventProcessing.Module

variable {σ : Type}

def startAll : List String → Managing σ Outcome
  | [] => return .ok ()
  | name :: rest => do
    match ← processor? name with
    | .error failure => return .error failure
    | .ok none => startAll rest
    | .ok (some processor) =>
      match ← processor.start with
      | .error failure =>
        if failure.isDefect then return .error failure
        else return .error (.lifecycle name .start failure)
      | .ok () =>
        Traces.trace (.event .info "event processor started" [("processor", name)])
        startAll rest

def start : Managing σ Outcome := do
  match (← get).processorNames with
  | .error failure => return .error failure
  | .ok names => startAll names

def shutDownEach : List (String × Processor σ) → Run σ Outcome
  | [] => return .ok ()
  | (name, processor) :: rest => do
    match ← processor.shutDown with
    | .ok () =>
      Run.trace (.event .info "event processor shut down" [("processor", name)])
      shutDownEach rest
    | .error failure =>
      Run.trace (.event .error "event processor failed to shut down"
        [("processor", name), ("error", failure.message)])
      let _ ← shutDownEach rest
      return .error (.lifecycle name .shutDown failure)

/-- A processor that was never built stays so. -/
def shutDown : Managing σ Outcome := do
  let built := (← get).processors.filterMap fun entry =>
    entry.2.built.map fun processor => (entry.1, processor)
  liftM (shutDownEach built.reverse)

end EventProcessing.Module
