import EventProcessing.Text.Quoted

namespace EventProcessing

inductive LifecycleAction where
  | start
  | shutDown
  deriving DecidableEq

def LifecycleAction.text : LifecycleAction → String
  | .start => "start"
  | .shutDown => "shut down"

inductive Failure where
  | report (text : String)
  | context (text : String) (cause : Failure)
  | notInitialized
  | duplicateProcessor (name : String)
  | noRuntime (name : String)
  | stillStopping (name : String)
  | processorBuild (name : String) (cause : Failure)
  | lifecycle (name : String) (action : LifecycleAction) (cause : Failure)
  | segmentsExist (processor : String)
  | noToken (processor : String) (segment : Nat)
  | brokenLayout (processor : String) (segments : List Nat)
  | batch (processor : String) (events : Nat) (failure : Failure)
  | overflow
  | idOutsideMask

abbrev Outcome := Except Failure Unit

namespace Failure

def texts : Failure → List String
  | .report text => [text]
  | .context text cause => text :: cause.texts
  | .notInitialized => ["event processing configuration has not been initialized"]
  | .duplicateProcessor name => ["an event processor with name [" ++ name ++ "] already exists"]
  | .noRuntime name => ["event processor [" ++ name ++ "] needs a running Tokio runtime to start"]
  | .stillStopping name =>
    ["event processor [" ++ name ++ "] is still stopping its previous workers"]
  | .processorBuild name cause =>
    ("failed to build event processor [" ++ name ++ "]") :: cause.texts
  | .lifecycle name action cause =>
    ("event processor [" ++ name ++ "] failed to " ++ action.text) :: cause.texts
  | .segmentsExist processor =>
    ["token segments for processor '" ++ processor ++ "' already exist"]
  | .noToken processor segment =>
    ["no token for processor '" ++ processor ++ "' segment " ++ toString segment]
  | .brokenLayout processor segments =>
    ["token store holds segments " ++ Text.list (segments.map toString) ++ " for [" ++ processor ++
      "]; expected ids 0..n with n a power of two"]
  | .batch processor events failure =>
    ["processor '" ++ processor ++ "' failed to handle " ++ toString events ++ " event(s): " ++
      String.intercalate ": " failure.texts]
  | .overflow => ["attempt to add with overflow"]
  | .idOutsideMask => ["segment id outside of mask"]

def message (failure : Failure) : String := failure.texts.headD ""

def causes (failure : Failure) : List String := failure.texts.tail

def fullText (failure : Failure) : String := String.intercalate ": " failure.texts

/-- A defect lies with the caller. It ends the whole call and is no failure of one of its parts. -/
def isDefect : Failure → Bool
  | .overflow | .idOutsideMask => true
  | _ => false

end Failure

end EventProcessing
