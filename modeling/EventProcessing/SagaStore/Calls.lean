import EventProcessing.System

namespace EventProcessing.SagaStore

variable {σ : Type}

def memory (store : SagaStore) : Run σ SagaMemory := do
  return (← Run.system).sagaMemory store.self.id

def update (store : SagaStore) (f : SagaMemory → SagaMemory) : Run σ Unit :=
  Run.update fun system => system.setSagaMemory store.self.id (f (system.sagaMemory store.self.id))

def save (store : SagaStore) (sagaType id : String) (entry : SagaEntry) : Run σ Unit :=
  store.update fun memory => memory.save sagaType id entry

def load (store : SagaStore) (sagaType id : String) : Run σ (Option SagaEntry) := do
  return (← store.memory).load sagaType id

def find (store : SagaStore) (sagaType : String) (association : Association) :
    Run σ (List String) := do
  return (← store.memory).find sagaType association

def delete (store : SagaStore) (sagaType id : String) : Run σ Unit :=
  store.update fun memory => memory.delete sagaType id

end EventProcessing.SagaStore
