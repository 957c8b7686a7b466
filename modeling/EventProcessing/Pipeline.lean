import EventProcessing.Interceptor
import EventProcessing.Invoker
import EventProcessing.Monitor
import EventProcessing.Transaction

/-!
The pipeline of a processor: a batch of events goes through its monitor, interceptors and invoker
in one transaction. The first failing event ends the batch, and a failed batch goes to the error
handler.
-/

namespace EventProcessing

variable {σ : Type}

structure Pipeline (σ : Type) where
  name : String
  invoker : Invoker σ
  errorHandler : ErrorHandler σ
  rollback : RollbackRule σ
  transactions : TransactionManager σ
  monitor : MessageMonitor σ

namespace Pipeline

def dispatch (pipeline : Pipeline σ) (chain : List (Interceptor σ)) (segment : Segment)
    (event : EventMessage) : Program σ Outcome := do
  let target := fun unit : UnitOfWork => pipeline.invoker.handle unit.message unit segment
  let (outcome, _) ← Interceptor.chain target chain { message := event }
  return outcome

def dispatchAll (pipeline : Pipeline σ) (chain : List (Interceptor σ)) (segment : Segment) :
    List EventMessage → Program σ (List (MonitorCallback σ) × Option Failure)
  | [] => return ([], none)
  | event :: rest => do
    let callback ← pipeline.monitor.ingest event
    if pipeline.invoker.canHandle event segment then
      match ← pipeline.dispatch chain segment event with
      | .ok () =>
        let (processed, failure) ← pipeline.dispatchAll chain segment rest
        return (callback :: processed, failure)
      | .error failure =>
        callback.failure failure
        return ([], some failure)
    else
      callback.ignored
      pipeline.dispatchAll chain segment rest

def reportSuccess (processed : List (MonitorCallback σ)) : Program σ Unit :=
  processed.forM fun callback => callback.success

def reportFailure (processed : List (MonitorCallback σ)) (failure : Failure) : Program σ Unit :=
  processed.forM fun callback => callback.failure failure

/-- Ends the transaction and reports on the events that were processed in it. The answer is the
failure of the batch. -/
def settle (pipeline : Pipeline σ) (transaction : Transaction σ)
    (processed : List (MonitorCallback σ)) : Option Failure → Program σ (Option Failure)
  | none => do
    match ← transaction.commit with
    | .ok () => reportSuccess processed; return none
    | .error failure => reportFailure processed failure; return some failure
  | some failure => do
    if ← pipeline.rollback.rollsBackOn failure then
      transaction.rollback
      reportFailure processed failure
    else
      match ← transaction.commit with
      | .ok () => reportSuccess processed
      | .error commitFailure =>
        Program.trace (.event .warn "commit after failed event failed"
          [("processor", pipeline.name), ("error", commitFailure.message)])
        reportFailure processed commitFailure
    return some failure

def processBatch (pipeline : Pipeline σ) (chain : List (Interceptor σ))
    (events : List EventMessage) (segment : Segment) : Program σ Outcome := do
  Program.trace (.span "process_batch"
    [("processor", pipeline.name), ("segment", toString segment.id),
      ("size", toString events.length)])
  let transaction ← pipeline.transactions.start
  let (processed, failure) ← pipeline.dispatchAll chain segment events
  match ← pipeline.settle transaction processed failure with
  | none => return .ok ()
  | some failure =>
    Program.trace (.event .debug "batch failed"
      [("processor", pipeline.name), ("error", failure.message)])
    pipeline.errorHandler.handleError ⟨pipeline.name, failure, events⟩

def describe (pipeline : Pipeline σ) (interceptors : Nat) : String :=
  Text.record "ProcessingPipeline"
    [("processor_name", Text.quoted pipeline.name), ("interceptors", toString interceptors)]
    .partially

end Pipeline

end EventProcessing
