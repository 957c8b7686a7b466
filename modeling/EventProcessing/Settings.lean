import EventProcessing.Text.Quoted

namespace EventProcessing

/-- Where a tracking processor begins when its token store has no segments yet: before the first
event, or after the last one published so far. -/
inductive InitialPosition where
  | tail
  | head
  deriving DecidableEq, Inhabited

structure TrackingSettings where
  /-- The most events that are read and processed in one transaction; zero counts as one. -/
  batchSize : Nat := 1
  segmentCount : Nat := 1
  pollInterval : Nat := 1000
  initialPosition : InitialPosition := .tail
  deriving DecidableEq, Inhabited

structure ProcessingSettings where
  tracking : TrackingSettings := {}
  deriving DecidableEq, Inhabited

def InitialPosition.describe : InitialPosition → String
  | .tail => "Tail"
  | .head => "Head"

def TrackingSettings.describe (s : TrackingSettings) : String :=
  Text.record "TrackingProcessorSettings"
    [("batch_size", toString s.batchSize), ("segment_count", toString s.segmentCount),
      ("poll_interval_ms", toString s.pollInterval),
      ("initial_position", s.initialPosition.describe)]
    .complete

def ProcessingSettings.describe (s : ProcessingSettings) : String :=
  Text.record "ProcessingSettings" [("tracking", s.tracking.describe)] .complete

end EventProcessing
