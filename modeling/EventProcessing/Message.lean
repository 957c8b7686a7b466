import EventProcessing.Json.Text

namespace EventProcessing

abbrev MetaData := Json.Object

structure EventMessage where
  identifier : String
  payloadType : String
  payload : Json
  aggregateIdentifier : Option String
  metadata : MetaData
  timestampMillis : Nat
  deriving Inhabited

namespace EventMessage

def withMetaData (message : EventMessage) (extra : MetaData) : EventMessage :=
  { message with metadata := message.metadata.merge extra }

def metadataString? (message : EventMessage) (key : String) : Option String :=
  (message.metadata.get? key).bind Json.string?

def same (a b : EventMessage) : Bool :=
  a.identifier == b.identifier && a.payloadType == b.payloadType && a.payload.same b.payload &&
    a.aggregateIdentifier == b.aggregateIdentifier &&
    Json.sameFields a.metadata b.metadata && a.timestampMillis == b.timestampMillis

end EventMessage

/-- The index of an event in its log, from zero. A processor that stored `n` has handled every
event up to and with index `n`. -/
abbrev Token := Nat

structure TrackedEvent where
  token : Token
  message : EventMessage
  deriving Inhabited

end EventProcessing
