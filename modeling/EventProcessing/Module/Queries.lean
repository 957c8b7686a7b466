import EventProcessing.Module.SetUp

namespace EventProcessing.Module

variable {σ : Type}

def configured (module : Module σ) : Except Failure (Configuration σ) :=
  match module.configuration with
  | some configuration => .ok configuration
  | none => .error .notInitialized

def processorNames (module : Module σ) : Except Failure (List String) := do
  let _ ← module.configured
  return module.processors.keys

def groupsOf (module : Module σ) (name : String) : Except Failure (List String) := do
  let _ ← module.configured
  return ((module.assembly.get? name).getD []).map InvokerSource.group

def processorNameOf (module : Module σ) (group : String) : Except Failure String := do
  let _ ← module.configured
  return module.names.resolve group

def sagaConfigurations (module : Module σ) : Except Failure (List (Saga σ)) := do
  let _ ← module.configured
  return module.activeSagas

def obtain (name : String) (cell : ProcessorCell σ) :
    Managing σ (Except Failure (Processor σ)) := fun module => do
  let ((outcome, cell), overrides) ← (cell.get module.interceptors).run module.overrides
  let module := { module with overrides, processors := module.processors.put name cell }
  match outcome with
  | .ok processor => return (.ok processor, module)
  | .error failure => return (.error (.processorBuild name failure), module)

def processor? (name : String) : Managing σ (Except Failure (Option (Processor σ))) := do
  let module ← get
  match module.configured, module.processors.get? name with
  | .error failure, _ => return .error failure
  | .ok _, none => return .ok none
  | .ok _, some cell =>
    match ← obtain name cell with
    | .ok processor => return .ok (some processor)
    | .error failure => return .error failure

/-- The processor of a name as one of a certain kind; `none` also when it is of another. -/
def processorAs? (isWanted : Processor σ → Bool) (name : String) :
    Managing σ (Except Failure (Option (Processor σ))) := do
  match ← processor? name with
  | .error failure => return .error failure
  | .ok found => return .ok (found.filter isWanted)

def processorOfGroup? (group : String) : Managing σ (Except Failure (Option (Processor σ))) := do
  match (← get).processorNameOf group with
  | .error failure => return .error failure
  | .ok name => processor? name

def obtainAll : List String → Managing σ (Except Failure (List (String × Processor σ)))
  | [] => return .ok []
  | name :: rest => do
    match ← processor? name with
    | .error failure => return .error failure
    | .ok none => obtainAll rest
    | .ok (some processor) =>
      match ← obtainAll rest with
      | .error failure => return .error failure
      | .ok processors => return .ok ((name, processor) :: processors)

def allProcessors : Managing σ (Except Failure (List (String × Processor σ))) := do
  match (← get).processorNames with
  | .error failure => return .error failure
  | .ok names => obtainAll names

def interceptorsOf (name : String) : Managing σ (Except Failure (List (Interceptor σ))) := do
  match ← processor? name with
  | .error failure => return .error failure
  | .ok none => return .ok []
  | .ok (some processor) => return .ok (← processor.interceptors)

def consult {α : Type} (inquiry : Inquiry σ α) : Managing σ (Except Failure α) := do
  let module ← get
  match module.configured with
  | .error failure => return .error failure
  | .ok configuration =>
    let (value, overrides) ← (inquiry.run configuration).run module.overrides
    set { module with overrides }
    return .ok value

end EventProcessing.Module
