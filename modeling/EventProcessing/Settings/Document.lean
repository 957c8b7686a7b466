import EventProcessing.Json.Record
import EventProcessing.Settings

/-!
Settings as a JSON document. A field that is missing keeps its default, a field that is not known
is passed over, and none may be given twice.
-/

namespace EventProcessing

open Json

def InitialPosition.names : List (String × InitialPosition) := [("tail", .tail), ("head", .head)]

namespace TrackingSettings

structure Draft where
  batchSize : Option Nat := none
  segmentCount : Option Nat := none
  pollInterval : Option Nat := none
  initialPosition : Option InitialPosition := none

def Draft.field (depth : Nat) (d : Draft) : String → Except Fault (Reader Draft)
  | "batch_size" =>
    onceField "batch_size" d.batchSize readSize fun v => { d with batchSize := some v }
  | "segment_count" =>
    onceField "segment_count" d.segmentCount readWord32 fun v => { d with segmentCount := some v }
  | "poll_interval_ms" =>
    onceField "poll_interval_ms" d.pollInterval readWord64 fun v =>
      { d with pollInterval := some v }
  | "initial_position" =>
    onceField "initial_position" d.initialPosition (readVariant InitialPosition.names depth)
      fun v => { d with initialPosition := some v }
  | _ => unknownField d

def Draft.over (d : Draft) (s : TrackingSettings) : TrackingSettings where
  batchSize := d.batchSize.getD s.batchSize
  segmentCount := d.segmentCount.getD s.segmentCount
  pollInterval := d.pollInterval.getD s.pollInterval
  initialPosition := d.initialPosition.getD s.initialPosition

def readElementsInOrder (depth : Nat) (cs : List Char) :
    Except Fault (Front TrackingSettings) := do
  let missing : TrackingSettings := {}
  let (batchSize, cs) ← elementOr 0 missing.batchSize readSize cs
  let (segmentCount, cs) ← elementOr 1 missing.segmentCount readWord32 cs
  let (pollInterval, cs) ← elementOr 2 missing.pollInterval readWord64 cs
  let (initialPosition, cs) ←
    elementOr 3 missing.initialPosition (readVariant InitialPosition.names depth) cs
  return ({ batchSize, segmentCount, pollInterval, initialPosition }, cs)

def shape : RecordShape Draft TrackingSettings where
  expected := "struct TrackingProcessorSettings"
  start := {}
  field := Draft.field
  finish := fun d => .ok (d.over {})
  elements := readElementsInOrder

def decode? (text : String) : Except Fault TrackingSettings :=
  readWhole (shape.read depthLimit) text

end TrackingSettings

namespace ProcessingSettings

structure Draft where
  tracking : Option TrackingSettings := none

def Draft.field (depth : Nat) (d : Draft) : String → Except Fault (Reader Draft)
  | "tracking" =>
    onceField "tracking" d.tracking (TrackingSettings.shape.read depth) fun v =>
      { d with tracking := some v }
  | _ => unknownField d

def readElementsInOrder (depth : Nat) (cs : List Char) :
    Except Fault (Front ProcessingSettings) := do
  let (tracking, cs) ← elementOr 0 {} (TrackingSettings.shape.read depth) cs
  return ({ tracking }, cs)

def shape : RecordShape Draft ProcessingSettings where
  expected := "struct ProcessingSettings"
  start := {}
  field := Draft.field
  finish := fun d => .ok { tracking := d.tracking.getD {} }
  elements := readElementsInOrder

def decode? (text : String) : Except Fault ProcessingSettings :=
  readWhole (shape.read depthLimit) text

end ProcessingSettings

end EventProcessing
