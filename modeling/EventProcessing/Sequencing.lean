import EventProcessing.Message
import EventProcessing.Program

namespace EventProcessing

structure SequencingPolicy where
  self : Instance
  identifierFor : EventMessage → Option String

namespace SequencingPolicy

def perAggregate (id : Nat) : SequencingPolicy where
  self := ⟨id, "SequentialPerAggregatePolicy"⟩
  identifierFor event := event.aggregateIdentifier

def sequential (id : Nat) : SequencingPolicy where
  self := ⟨id, "SequentialPolicy"⟩
  identifierFor _ := some "sequential"

def fullConcurrency (id : Nat) : SequencingPolicy where
  self := ⟨id, "FullConcurrencyPolicy"⟩
  identifierFor _ := none

/-- A string entry stands for itself, any other value for its compact text. -/
def perMetaData (key : String) (id : Nat) : SequencingPolicy where
  self := ⟨id, "MetaDataSequencingPolicy"⟩
  identifierFor event :=
    (event.metadata.get? key).map fun value => value.string?.getD value.compact

/-- Events without a sequence identifier are spread by their own. -/
def segmentKey (policy : SequencingPolicy) (event : EventMessage) : String :=
  (policy.identifierFor event).getD event.identifier

end SequencingPolicy

end EventProcessing
