import EventProcessing.Program
import EventProcessing.UnitOfWork

namespace EventProcessing

variable {σ : Type}

inductive Interception (σ : Type) where
  | stop (outcome : Outcome) (data : MetaData := [])
  | proceed (data : MetaData) (leave : UnitOfWork → Outcome → Program σ Outcome)

structure Interceptor (σ : Type) where
  self : Instance
  enter : UnitOfWork → Program σ (Interception σ)

namespace Interceptor

/-- Runs the chain around `target`. The unit of work comes back with all data registered on it. -/
def chain (target : UnitOfWork → Program σ Outcome) :
    List (Interceptor σ) → UnitOfWork → Program σ (Outcome × UnitOfWork)
  | [], unit => do return (← target unit, unit)
  | interceptor :: rest, unit => do
    match ← interceptor.enter unit with
    | .stop outcome data => return (outcome, unit.register data)
    | .proceed data leave =>
      let (outcome, unit) ← chain target rest (unit.register data)
      return (← leave unit outcome, unit)

def correlation (providers : List CorrelationProvider) (id : Nat) : Interceptor σ where
  self := ⟨id, "correlation"⟩
  enter unit :=
    return .proceed (CorrelationProvider.merged providers unit.message) fun _ outcome =>
      return outcome

def addUnique (chain : List (Interceptor σ)) (interceptor : Interceptor σ) : List (Interceptor σ) :=
  if chain.any fun existing => existing.self.id == interceptor.self.id then chain
  else chain ++ [interceptor]

end Interceptor

end EventProcessing
