import EventProcessing.Program

namespace EventProcessing

variable {σ : Type}

structure Transaction (σ : Type) where
  commit : Program σ Outcome
  rollback : Program σ Unit

structure TransactionManager (σ : Type) where
  self : Instance
  start : Program σ (Transaction σ)

def TransactionManager.none (id : Nat) : TransactionManager σ where
  self := ⟨id, "NoTransactionManager"⟩
  start := return { commit := return .ok (), rollback := return () }

structure RollbackRule (σ : Type) where
  self : Instance
  rollsBackOn : Failure → Program σ Bool

namespace RollbackRule

def anyError (id : Nat) : RollbackRule σ where
  self := ⟨id, "AnyError"⟩
  rollsBackOn _ := return true

def never (id : Nat) : RollbackRule σ where
  self := ⟨id, "Never"⟩
  rollsBackOn _ := return false

end RollbackRule

end EventProcessing
