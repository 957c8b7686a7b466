import EventProcessing.Proofs.Execution
import EventProcessing.Proofs.Tables

/-! A notebook beside the state that collaborators share. The quiet copy of a collaborator does what
it did before and leaves the notebook alone; a loud copy also writes down what is asked of it. -/

namespace EventProcessing

variable {σ κ α β : Type}

inductive Verdict where
  | success
  | failure (failure : Failure)
  | ignored

inductive Ending where
  | committed (outcome : Outcome)
  | rolledBack

/-- What is written down of a batch. Callbacks go by the number of their ingestion, handlers by
their place in the invoker. -/
inductive Note where
  | began
  | ingested (event : EventMessage)
  | entered (event : EventMessage)
  | called (handler : List ℕ) (event : EventMessage)
  | left (event : EventMessage) (outcome : Outcome)
  | reported (ingestion : ℕ) (verdict : Verdict)
  | weighed (failure : Failure) (rollsBack : Bool)
  | ended (ending : Ending)
  | consulted (batch : BatchFailure) (verdict : Outcome)

structure Noted (σ : Type) where
  state : σ
  notes : List Note

def Request.quietly : (request : Request σ) → (request.Reply → ProgramOver (Noted σ) κ α) →
    ProgramOver (Noted σ) κ α
  | .get, next => .ask .get fun noted => next noted.state
  | .set state, next => .ask .get fun noted => .ask (.set ⟨state, noted.notes⟩) next
  | .fresh, next => .ask .fresh next
  | .trace line, next => .ask (.trace line) next
  | .count metric, next => .ask (.count metric) next
  | .view bus, next => .ask (.view bus) next
  | .publish bus events, next => .ask (.publish bus events) next
  | .cancel bus subscription, next => .ask (.cancel bus subscription) next

mutual

def Consumer.quiet : Consumer σ → Consumer (Noted σ)
  | .mk react => .mk fun events => quietReaction (react events)

def quietReaction : ProgramOver σ (Consumer σ) Outcome →
    ProgramOver (Noted σ) (Consumer (Noted σ)) Outcome
  | .done outcome => .done outcome
  | .ask request next => request.quietly fun reply => quietReaction (next reply)
  | .subscribe bus consumer next => .subscribe bus consumer.quiet fun id => quietReaction (next id)

end

def ProgramOver.quiet : ProgramOver σ (Consumer σ) α → ProgramOver (Noted σ) (Consumer (Noted σ)) α
  | .done value => .done value
  | .ask request next => request.quietly fun reply => (next reply).quiet
  | .subscribe bus consumer next => .subscribe bus consumer.quiet fun id => (next id).quiet

lemma quietReaction_eq (program : Program σ Outcome) : quietReaction program = program.quiet := by
  induction program with
  | done _ => rfl
  | ask request next ih => exact congrArg request.quietly (funext ih)
  | subscribe bus consumer next ih =>
    exact congrArg (ProgramOver.subscribe bus consumer.quiet) (funext ih)

lemma Consumer.react_quiet (consumer : Consumer σ) (events : List EventMessage) :
    consumer.quiet.react events = (consumer.react events).quiet := by
  cases consumer with
  | mk react => exact quietReaction_eq _

section Copies

variable (loud : Bool)

def note (entry : Note) : Program (Noted σ) Unit :=
  if loud then Program.modify fun noted => { noted with notes := noted.notes ++ [entry] }
  else pure ()

def said (notes : List Note) : List Note := if loud then notes else []

def Interception.quiet : Interception σ → Interception (Noted σ)
  | .stop outcome data => .stop outcome data
  | .proceed data leave => .proceed data fun unit outcome => (leave unit outcome).quiet

def Interceptor.quiet (interceptor : Interceptor σ) : Interceptor (Noted σ) where
  self := interceptor.self
  enter unit := do return (← (interceptor.enter unit).quiet).quiet

/-- Stands before all other interceptors and notes what enters and leaves the chain. -/
def Interceptor.gatekeeper : Interceptor (Noted σ) where
  self := ⟨0, "gatekeeper"⟩
  enter unit := do
    note loud (.entered unit.message)
    return .proceed [] fun unit outcome => do
      note loud (.left unit.message outcome)
      return outcome

def EventHandler.copy (path : List ℕ) (place : ℕ) (handler : EventHandler σ) :
    EventHandler (Noted σ) where
  label := handler.label
  typeName := handler.typeName
  package := handler.package
  declaredGroup := handler.declaredGroup
  tag := .number (.integer place)
  canHandle := handler.canHandle
  handle event unit := do
    note loud (.called (path ++ [place]) event)
    (handler.handle event unit).quiet

def original? (handlers : List (EventHandler σ)) (copy : EventHandler (Noted σ)) :
    Option (EventHandler σ) :=
  copy.tag.integer?.bind fun place => handlers[place.toNat]?

def ListenerErrorHandler.quiet (handlers : List (EventHandler σ))
    (errorHandler : ListenerErrorHandler σ) : ListenerErrorHandler (Noted σ) where
  self := errorHandler.self
  onError failure event copy :=
    match original? handlers copy with
    | some handler => (errorHandler.onError failure event handler).quiet
    | none => return .error failure

def EventHandler.copies (path : List ℕ) : ℕ → List (EventHandler σ) → List (EventHandler (Noted σ))
  | _, [] => []
  | place, handler :: rest =>
    handler.copy loud path place :: EventHandler.copies path (place + 1) rest

def HandlerGroup.copy (path : List ℕ) (group : HandlerGroup σ) : HandlerGroup (Noted σ) where
  handlers := EventHandler.copies loud path 0 group.handlers
  errorHandler := group.errorHandler.quiet group.handlers
  policy := group.policy

def Manager.quiet (manager : Manager σ) : Manager (Noted σ) where
  self := manager.self
  canHandle := manager.canHandle
  handle event unit segment := (manager.handle event unit segment).quiet
  supportsReset := manager.supportsReset

mutual

def Invoker.copy : List ℕ → Invoker σ → Invoker (Noted σ)
  | path, .group g => .group (g.copy loud path)
  | _, .manager m => .manager m.quiet
  | path, .all invokers => .all (Invoker.copyAll path 0 invokers)

def Invoker.copyAll : List ℕ → ℕ → List (Invoker σ) → List (Invoker (Noted σ))
  | _, _, [] => []
  | path, place, invoker :: rest =>
    invoker.copy (path ++ [place]) :: Invoker.copyAll path (place + 1) rest

end

def MonitorCallback.copy (ingestion : ℕ) (callback : MonitorCallback σ) :
    MonitorCallback (Noted σ) where
  success := do
    note loud (.reported ingestion .success)
    callback.success.quiet
  failure failure := do
    note loud (.reported ingestion (.failure failure))
    (callback.failure failure).quiet
  ignored := do
    note loud (.reported ingestion .ignored)
    callback.ignored.quiet

def Note.ingestion? : Note → Option EventMessage
  | .ingested event => some event
  | _ => none

def ingestions (notes : List Note) : List EventMessage := notes.filterMap Note.ingestion?

def MessageMonitor.copy (monitor : MessageMonitor σ) : MessageMonitor (Noted σ) where
  ingest event := do
    let ingestion := (ingestions (← Program.get).notes).length
    note loud (.ingested event)
    return (← (monitor.ingest event).quiet).copy loud ingestion

def Transaction.copy (transaction : Transaction σ) : Transaction (Noted σ) where
  commit := do
    let outcome ← transaction.commit.quiet
    note loud (.ended (.committed outcome))
    return outcome
  rollback := do
    transaction.rollback.quiet
    note loud (.ended .rolledBack)

def TransactionManager.copy (transactions : TransactionManager σ) :
    TransactionManager (Noted σ) where
  self := transactions.self
  start := do
    note loud .began
    return (← transactions.start.quiet).copy loud

def RollbackRule.copy (rule : RollbackRule σ) : RollbackRule (Noted σ) where
  self := rule.self
  rollsBackOn failure := do
    let rollsBack ← (rule.rollsBackOn failure).quiet
    note loud (.weighed failure rollsBack)
    return rollsBack

def ErrorHandler.copy (errorHandler : ErrorHandler σ) : ErrorHandler (Noted σ) where
  self := errorHandler.self
  handleError batch := do
    let verdict ← (errorHandler.handleError batch).quiet
    note loud (.consulted batch verdict)
    return verdict

def Pipeline.copy (pipeline : Pipeline σ) : Pipeline (Noted σ) where
  name := pipeline.name
  invoker := pipeline.invoker.copy loud []
  errorHandler := pipeline.errorHandler.copy loud
  rollback := pipeline.rollback.copy loud
  transactions := pipeline.transactions.copy loud
  monitor := pipeline.monitor.copy loud

end Copies

def Subscriber.quiet : Subscriber σ → Subscriber (Noted σ)
  | .consumer c => .consumer c.quiet
  | .processor id pipeline => .processor id (pipeline.copy false)

def Bus.quiet (bus : Bus (Subscriber σ)) : Bus (Subscriber (Noted σ)) where
  log := bus.log
  subscriptions := bus.subscriptions.map fun entry => (entry.1, entry.2.quiet)
  nextSubscription := bus.nextSubscription

def ProcessorState.quiet (state : ProcessorState σ) : ProcessorState (Noted σ) where
  chain := state.chain.map Interceptor.quiet
  subscription := state.subscription
  workers := state.workers
  stopping := state.stopping
  running := state.running

def System.quiet (notes : List Note) (s : System σ) : System (Noted σ) where
  shared := ⟨s.shared, notes⟩
  nextId := s.nextId
  buses := s.buses.mapValues Bus.quiet
  processors := s.processors.mapValues ProcessorState.quiet
  trace := s.trace
  metrics := s.metrics

end EventProcessing
