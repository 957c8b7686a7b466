import EventProcessing.Failure
import EventProcessing.Message
import EventProcessing.Trace

/-!
Programs of collaborators. Handlers, interceptors, stores and all other collaborators are free in
what they do: they read and change a state `σ` of their own, and ask the system for the rest. A
program is the tree of its requests; each reply selects a branch.
-/

namespace EventProcessing

abbrev BusId := Nat

structure BusView where
  log : List TrackedEvent
  subscriptions : List Nat

inductive Request (σ : Type) where
  | get
  | set (state : σ)
  | fresh
  | trace (line : TraceLine)
  | count (metric : Metric)
  | view (bus : BusId)
  | publish (bus : BusId) (events : List EventMessage)
  | cancel (bus : BusId) (subscription : Nat)

abbrev Request.Reply {σ : Type} : Request σ → Type
  | .get => σ
  | .set _ => Unit
  | .fresh => Nat
  | .trace _ => Unit
  | .count _ => Unit
  | .view _ => BusView
  | .publish _ _ => Outcome
  | .cancel _ _ => Unit

inductive ProgramOver (σ κ α : Type) where
  | done (value : α)
  | ask (request : Request σ) (next : request.Reply → ProgramOver σ κ α)
  | subscribe (bus : BusId) (consumer : κ) (next : Nat → ProgramOver σ κ α)

inductive Consumer (σ : Type) where
  | mk (react : List EventMessage → ProgramOver σ (Consumer σ) Outcome)

abbrev Program (σ α : Type) := ProgramOver σ (Consumer σ) α

def Consumer.react {σ : Type} : Consumer σ → List EventMessage → Program σ Outcome
  | .mk react => react

namespace ProgramOver

variable {σ κ α β : Type}

instance [Inhabited α] : Inhabited (ProgramOver σ κ α) := ⟨.done default⟩

def bind : ProgramOver σ κ α → (α → ProgramOver σ κ β) → ProgramOver σ κ β
  | .done a, f => f a
  | .ask q next, f => .ask q fun reply => (next reply).bind f
  | .subscribe b c next, f => .subscribe b c fun id => (next id).bind f

instance : Monad (ProgramOver σ κ) where
  pure := .done
  bind := bind

instance : LawfulMonad (ProgramOver σ κ) := LawfulMonad.mk' _
  (by
    intro α x
    induction x with
    | done => rfl
    | ask q next ih => exact congrArg (ask q) (funext ih)
    | subscribe b c next ih => exact congrArg (subscribe b c) (funext ih))
  (fun _ _ => rfl)
  (by
    intro α β γ x f g
    induction x with
    | done => rfl
    | ask q next ih => exact congrArg (ask q) (funext ih)
    | subscribe b c next ih => exact congrArg (subscribe b c) (funext ih))

end ProgramOver

namespace Program

variable {σ : Type}

def send (request : Request σ) : Program σ request.Reply := .ask request .done

def get : Program σ σ := send .get

def set (state : σ) : Program σ Unit := send (.set state)

def modify (f : σ → σ) : Program σ Unit := do set (f (← get))

def fresh : Program σ Nat := send .fresh

def trace (line : TraceLine) : Program σ Unit := send (.trace line)

def count (metric : Metric) : Program σ Unit := send (.count metric)

def view (bus : BusId) : Program σ BusView := send (.view bus)

def publish (bus : BusId) (events : List EventMessage) : Program σ Outcome :=
  send (.publish bus events)

def cancel (bus : BusId) (subscription : Nat) : Program σ Unit := send (.cancel bus subscription)

def subscribe (bus : BusId) (react : List EventMessage → Program σ Outcome) : Program σ Nat :=
  ProgramOver.subscribe bus (Consumer.mk react) .done

end Program

/-- An object and the name it is shown under. Two objects are the same when their ids are. -/
structure Instance where
  id : Nat
  name : String
  deriving DecidableEq, Inhabited

def Instance.make {σ : Type} (name : String) : Program σ Instance := do
  return ⟨← Program.fresh, name⟩

class Traces (m : Type → Type) where
  trace : TraceLine → m Unit

instance {σ : Type} : Traces (ProgramOver σ (Consumer σ)) := ⟨Program.trace⟩

end EventProcessing
