import EventProcessing.Overrides

/-!
What may be done with the context of a module: builders of processors and sagas run programs, and
ask for overrides, for the saga store and for monitors. Nothing else of the module is open to them.
-/

namespace EventProcessing

inductive Inquiry (σ α : Type) where
  | done (value : α)
  | ask (request : Request σ) (next : request.Reply → Inquiry σ α)
  | subscribe (bus : BusId) (consumer : Consumer σ) (next : Nat → Inquiry σ α)
  | override (axis : Axis) (key : String) (next : axis.Value σ → Inquiry σ α)
  | sagaStore (next : SagaStore → Inquiry σ α)
  | monitor (componentType name : String) (next : MessageMonitor σ → Inquiry σ α)

namespace Inquiry

variable {σ α β : Type}

instance [Inhabited α] : Inhabited (Inquiry σ α) := ⟨.done default⟩

def bind : Inquiry σ α → (α → Inquiry σ β) → Inquiry σ β
  | .done a, f => f a
  | .ask request next, f => .ask request fun reply => (next reply).bind f
  | .subscribe bus consumer next, f => .subscribe bus consumer fun id => (next id).bind f
  | .override axis key next, f => .override axis key fun value => (next value).bind f
  | .sagaStore next, f => .sagaStore fun store => (next store).bind f
  | .monitor componentType name next, f =>
    .monitor componentType name fun monitor => (next monitor).bind f

instance : Monad (Inquiry σ) where
  pure := .done
  bind := bind

instance : LawfulMonad (Inquiry σ) := LawfulMonad.mk' _
  (by
    intro α x
    induction x with
    | done => rfl
    | ask request next ih => exact congrArg (ask request) (funext ih)
    | subscribe bus consumer next ih => exact congrArg (subscribe bus consumer) (funext ih)
    | override axis key next ih => exact congrArg (override axis key) (funext ih)
    | sagaStore next ih => exact congrArg sagaStore (funext ih)
    | monitor componentType name next ih => exact congrArg (monitor componentType name) (funext ih))
  (fun _ _ => rfl)
  (by
    intro α β γ x f g
    induction x with
    | done => rfl
    | ask request next ih => exact congrArg (ask request) (funext ih)
    | subscribe bus consumer next ih => exact congrArg (subscribe bus consumer) (funext ih)
    | override axis key next ih => exact congrArg (override axis key) (funext ih)
    | sagaStore next ih => exact congrArg sagaStore (funext ih)
    | monitor componentType name next ih => exact congrArg (monitor componentType name) (funext ih))

def ofProgram : Program σ α → Inquiry σ α
  | .done value => .done value
  | .ask request next => .ask request fun reply => ofProgram (next reply)
  | ProgramOver.subscribe bus consumer next => .subscribe bus consumer fun id => ofProgram (next id)

instance : MonadLift (ProgramOver σ (Consumer σ)) (Inquiry σ) := ⟨ofProgram⟩

def resolve (axis : Axis) (key : String) : Inquiry σ (axis.Value σ) := .override axis key .done

def sharedSagaStore : Inquiry σ SagaStore := .sagaStore .done

def messageMonitor (componentType name : String) : Inquiry σ (MessageMonitor σ) :=
  .monitor componentType name .done

def run (configuration : Configuration σ) : Inquiry σ α → Resolving σ α
  | .done value => return value
  | .ask request next => do
    let reply ← (Program.send request : Program σ _)
    (next reply).run configuration
  | .subscribe bus consumer next => do
    let id ← Program.subscribe bus consumer.react
    (next id).run configuration
  | .override axis key next => do
    let value ← Overrides.resolve axis key configuration
    (next value).run configuration
  | .sagaStore next => do
    let store ← Overrides.sharedSagaStore configuration
    (next store).run configuration
  | .monitor componentType name next => do
    let monitor ← Overrides.messageMonitor configuration componentType name
    (next monitor).run configuration

end Inquiry

end EventProcessing
