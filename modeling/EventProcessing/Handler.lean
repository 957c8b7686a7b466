import EventProcessing.Program
import EventProcessing.UnitOfWork

namespace EventProcessing

variable {σ : Type}

def pathBefore : List Char → Option (List Char)
  | [] => none
  | c :: rest =>
    match pathBefore rest with
    | some path => some (c :: path)
    | none => if c = ':' ∧ rest.head? = some ':' then some [] else none

/-- The path of a type name, its generic arguments left out; a name without a path is its own. -/
def namespaceOf (typeName : String) : String :=
  let base := typeName.toList.takeWhile (· ≠ '<')
  String.ofList ((pathBefore base).getD base)

structure EventHandler (σ : Type) where
  label : String
  typeName : String
  /-- The group of a handler that nothing else assigns. -/
  package : String
  declaredGroup : Option String
  tag : Json
  canHandle : EventMessage → Bool
  handle : EventMessage → UnitOfWork → Program σ Outcome

structure ListenerErrorHandler (σ : Type) where
  self : Instance
  onError : Failure → EventMessage → EventHandler σ → Program σ Outcome

namespace ListenerErrorHandler

def logging (id : Nat) : ListenerErrorHandler σ where
  self := ⟨id, "LoggingErrorHandler"⟩
  onError failure event handler := do
    Program.trace (.event .error "event handler failed; continuing with next handler"
      [("handler", handler.typeName), ("event_id", event.identifier),
        ("payload_type", event.payloadType), ("error", failure.message)])
    return .ok ()

def propagating (id : Nat) : ListenerErrorHandler σ where
  self := ⟨id, "PropagatingErrorHandler"⟩
  onError failure _ _ := return .error failure

end ListenerErrorHandler

structure BatchFailure where
  processor : String
  failure : Failure
  events : List EventMessage

structure ErrorHandler (σ : Type) where
  self : Instance
  handleError : BatchFailure → Program σ Outcome

def ErrorHandler.propagating (id : Nat) : ErrorHandler σ where
  self := ⟨id, "PropagatingErrorHandler"⟩
  handleError batch := return .error (.batch batch.processor batch.events.length batch.failure)

end EventProcessing
