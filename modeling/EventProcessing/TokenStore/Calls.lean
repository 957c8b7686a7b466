import EventProcessing.System

namespace EventProcessing.TokenStore

variable {σ : Type}

def memory (store : TokenStore σ) : Run σ TokenMemory := do
  return (← Run.system).tokenMemory store.self.id

def begin (store : TokenStore σ) (processor : String) (count : Nat) (initial : Option Token) :
    Run σ Outcome := do
  match ← store.gate (.begin processor count initial) with
  | .error failure => return .error failure
  | .ok () =>
    match (← store.memory).begin? processor count initial with
    | .error failure => return .error failure
    | .ok memory =>
      Run.update fun system => system.setTokenMemory store.self.id memory
      return .ok ()

def put (store : TokenStore σ) (processor : String) (segment : Nat) (token : Token) :
    Run σ Outcome := do
  match ← store.gate (.store processor segment token) with
  | .error failure => return .error failure
  | .ok () =>
    let memory ← store.memory
    Run.update fun system =>
      system.setTokenMemory store.self.id (memory.store processor segment token)
    return .ok ()

def fetch (store : TokenStore σ) (processor : String) (segment : Nat) :
    Run σ (Except Failure (Option Token)) := do
  match ← store.gate (.fetch processor segment) with
  | .error failure => return .error failure
  | .ok () => return (← store.memory).fetch processor segment

def segments (store : TokenStore σ) (processor : String) : Run σ (Except Failure (List Nat)) := do
  match ← store.gate (.segments processor) with
  | .error failure => return .error failure
  | .ok () => return .ok ((← store.memory).segments processor)

end EventProcessing.TokenStore
