import EventProcessing.Json.Value
import EventProcessing.Program
import EventProcessing.Table

namespace EventProcessing

abbrev Association := String × String

structure SagaEntry where
  state : Json
  associations : List Association

abbrev SagaMemory := Table (String × String) SagaEntry

namespace SagaMemory

def load (memory : SagaMemory) (sagaType id : String) : Option SagaEntry :=
  memory.get? (sagaType, id)

def find (memory : SagaMemory) (sagaType : String) (association : Association) : List String :=
  (memory.filterMap fun entry =>
    if entry.1.1 = sagaType ∧ association ∈ entry.2.associations then some entry.1.2
    else none).mergeSort fun a b => decide (a ≤ b)

def save (memory : SagaMemory) (sagaType id : String) (entry : SagaEntry) : SagaMemory :=
  memory.put (sagaType, id) entry

def delete (memory : SagaMemory) (sagaType id : String) : SagaMemory :=
  memory.remove (sagaType, id)

end SagaMemory

structure SagaStore where
  self : Instance
  deriving Inhabited

def SagaStore.inMemory (id : Nat) : SagaStore := ⟨id, "InMemorySagaStore"⟩

end EventProcessing
