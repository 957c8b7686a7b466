import EventProcessing.Json.Record
import EventProcessing.Message
import EventProcessing.Segment

/-!
Events, tokens and segments as JSON. A written record has its fields in a fixed order; a record that
is read may have them in any order, with others between them.
-/

namespace EventProcessing

open Json

def recordText (fields : List (String × List Char)) : List Char :=
  '\x7b' :: (List.intercalate [','] (fields.map fun f => stringText f.1 ++ ':' :: f.2)) ++ ['\x7d']

def naturalText (n : Nat) : List Char := Nat.toDigits 10 n

namespace EventMessage

def text (m : EventMessage) : List Char :=
  recordText [("identifier", stringText m.identifier), ("payload_type", stringText m.payloadType),
    ("payload", m.payload.text),
    ("aggregate_identifier", (m.aggregateIdentifier.elim Json.null Json.string).text),
    ("metadata", (Json.object m.metadata).text),
    ("timestamp_millis", naturalText m.timestampMillis)]

structure Draft where
  identifier : Option String := none
  payloadType : Option String := none
  payload : Option Json := none
  aggregateIdentifier : Option (Option String) := none
  metadata : Option MetaData := none
  timestampMillis : Option Nat := none

def Draft.field (depth : Nat) (d : Draft) : String → Except Fault (Reader Draft)
  | "identifier" =>
    onceField "identifier" d.identifier readStringValue fun v => { d with identifier := some v }
  | "payload_type" =>
    onceField "payload_type" d.payloadType readStringValue fun v =>
      { d with payloadType := some v }
  | "payload" =>
    onceField "payload" d.payload (readValue depth) fun v => { d with payload := some v }
  | "aggregate_identifier" =>
    onceField "aggregate_identifier" d.aggregateIdentifier (readOptional readStringValue) fun v =>
      { d with aggregateIdentifier := some v }
  | "metadata" =>
    onceField "metadata" d.metadata (readMap depth) fun v => { d with metadata := some v }
  | "timestamp_millis" =>
    onceField "timestamp_millis" d.timestampMillis readWord64 fun v =>
      { d with timestampMillis := some v }
  | _ => unknownField d

def Draft.finish (d : Draft) : Except Fault EventMessage := do
  return {
    identifier := ← requiredField "identifier" d.identifier
    payloadType := ← requiredField "payload_type" d.payloadType
    payload := ← requiredField "payload" d.payload
    aggregateIdentifier := d.aggregateIdentifier.getD none
    metadata := ← requiredField "metadata" d.metadata
    timestampMillis := ← requiredField "timestamp_millis" d.timestampMillis }

def readElementsInOrder (depth : Nat) (cs : List Char) : Except Fault (Front EventMessage) := do
  let size := "struct EventMessage with 6 elements"
  let (identifier, cs) ← elementAt 0 size readStringValue cs
  let (payloadType, cs) ← elementAt 1 size readStringValue cs
  let (payload, cs) ← elementAt 2 size (readValue depth) cs
  let (aggregateIdentifier, cs) ← elementAt 3 size (readOptional readStringValue) cs
  let (metadata, cs) ← elementAt 4 size (readMap depth) cs
  let (timestampMillis, cs) ← elementAt 5 size readWord64 cs
  return ({ identifier, payloadType, payload, aggregateIdentifier, metadata, timestampMillis }, cs)

def shape : RecordShape Draft EventMessage where
  expected := "struct EventMessage"
  start := {}
  field := Draft.field
  finish := Draft.finish
  elements := readElementsInOrder

def encode (m : EventMessage) : String := String.ofList m.text

def decode? (text : String) : Except Fault EventMessage := readWhole (shape.read depthLimit) text

end EventMessage

namespace TrackedEvent

def text (t : TrackedEvent) : List Char :=
  recordText [("token", naturalText t.token), ("message", t.message.text)]

structure Draft where
  token : Option Token := none
  message : Option EventMessage := none

def Draft.field (depth : Nat) (d : Draft) : String → Except Fault (Reader Draft)
  | "token" => onceField "token" d.token readWord64 fun v => { d with token := some v }
  | "message" =>
    onceField "message" d.message (EventMessage.shape.read depth) fun v =>
      { d with message := some v }
  | _ => unknownField d

def Draft.finish (d : Draft) : Except Fault TrackedEvent := do
  return {
    token := ← requiredField "token" d.token
    message := ← requiredField "message" d.message }

def readElementsInOrder (depth : Nat) (cs : List Char) : Except Fault (Front TrackedEvent) := do
  let size := "struct TrackedEventMessage with 2 elements"
  let (token, cs) ← elementAt 0 size readWord64 cs
  let (message, cs) ← elementAt 1 size (EventMessage.shape.read depth) cs
  return ({ token, message }, cs)

def shape : RecordShape Draft TrackedEvent where
  expected := "struct TrackedEventMessage"
  start := {}
  field := Draft.field
  finish := Draft.finish
  elements := readElementsInOrder

def encode (t : TrackedEvent) : String := String.ofList t.text

def decode? (text : String) : Except Fault TrackedEvent := readWhole (shape.read depthLimit) text

end TrackedEvent

def Token.encode (token : Token) : String := String.ofList (naturalText token)

def Token.decode? (text : String) : Except Fault Token := readWhole readWord64 text

namespace Segment

def text (s : Segment) : List Char :=
  recordText [("segment_id", naturalText s.id.toNat), ("mask", naturalText s.mask.toNat)]

structure Draft where
  id : Option Nat := none
  mask : Option Nat := none

def Draft.field (_ : Nat) (d : Draft) : String → Except Fault (Reader Draft)
  | "segment_id" => onceField "segment_id" d.id readWord32 fun v => { d with id := some v }
  | "mask" => onceField "mask" d.mask readWord32 fun v => { d with mask := some v }
  | _ => unknownField d

def Draft.finish (d : Draft) : Except Fault Segment := do
  return {
    id := UInt32.ofNat (← requiredField "segment_id" d.id)
    mask := UInt32.ofNat (← requiredField "mask" d.mask) }

def readElementsInOrder (_ : Nat) (cs : List Char) : Except Fault (Front Segment) := do
  let size := "struct Segment with 2 elements"
  let (id, cs) ← elementAt 0 size readWord32 cs
  let (mask, cs) ← elementAt 1 size readWord32 cs
  return ({ id := UInt32.ofNat id, mask := UInt32.ofNat mask }, cs)

def shape : RecordShape Draft Segment where
  expected := "struct Segment"
  start := {}
  field := Draft.field
  finish := Draft.finish
  elements := readElementsInOrder

def encode (s : Segment) : String := String.ofList s.text

def decode? (text : String) : Except Fault Segment := readWhole (shape.read depthLimit) text

end Segment

end EventProcessing
