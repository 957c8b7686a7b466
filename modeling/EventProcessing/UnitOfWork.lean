import EventProcessing.Message

namespace EventProcessing

structure UnitOfWork where
  message : EventMessage
  correlation : MetaData := []

namespace UnitOfWork

def register (unit : UnitOfWork) (data : MetaData) : UnitOfWork :=
  { unit with correlation := unit.correlation.merge data }

def correlated (unit : UnitOfWork) (outgoing : EventMessage) : EventMessage :=
  outgoing.withMetaData unit.correlation

@[simp] theorem register_message (unit : UnitOfWork) (data : MetaData) :
    (unit.register data).message = unit.message := rfl

end UnitOfWork

abbrev CorrelationProvider := EventMessage → MetaData

namespace CorrelationProvider

def correlationKey : String := "correlationId"

def traceKey : String := "traceId"

def origin : CorrelationProvider := fun message =>
  let trace := (message.metadataString? traceKey).getD message.identifier
  .ofList [(correlationKey, .string message.identifier), (traceKey, .string trace)]

def copying (keys : List String) : CorrelationProvider := fun message =>
  .ofList (keys.filterMap fun key => (message.metadata.get? key).map fun value => (key, value))

def merged (providers : List CorrelationProvider) (message : EventMessage) : MetaData :=
  providers.foldl (fun data provider => data.merge (provider message)) []

end CorrelationProvider

end EventProcessing
