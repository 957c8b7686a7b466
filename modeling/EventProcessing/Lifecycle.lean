import EventProcessing.Module.Lifecycle

/-!
The lifecycle of a set of modules. They are set up and started by ascending phase and shut down in
the reverse order; modules of one phase keep the order of their registration.
-/

namespace EventProcessing

variable {σ : Type}

structure PlainModule (σ : Type) where
  phase : Int := 0
  setUp : Configuration σ → Program σ Unit
  start : Program σ Outcome
  shutDown : Program σ Outcome

inductive Member (σ : Type) where
  | plain (module : PlainModule σ)
  | processing (module : Module σ)

namespace Member

def phase : Member σ → Int
  | .plain module => module.phase
  | .processing _ => 0

def setUp (configuration : Configuration σ) : Member σ → Run σ (Member σ)
  | .plain module => do
    module.setUp configuration
    return .plain module
  | .processing module => do
    let (_, module) ← (Module.setUp configuration).run module
    return .processing module

def start : Member σ → Run σ (Outcome × Member σ)
  | .plain module => do return (← module.start, .plain module)
  | .processing module => do
    let (outcome, module) ← Module.start.run module
    return (outcome, .processing module)

def shutDown : Member σ → Run σ (Outcome × Member σ)
  | .plain module => do return (← module.shutDown, .plain module)
  | .processing module => do
    let (outcome, module) ← Module.shutDown.run module
    return (outcome, .processing module)

end Member

structure Lifecycle (σ : Type) where
  members : List (Member σ) := []

namespace Lifecycle

def register (lifecycle : Lifecycle σ) (member : Member σ) : Lifecycle σ :=
  ⟨lifecycle.members ++ [member]⟩

def sort (members : List (Member σ)) : List (Member σ) :=
  members.mergeSort fun a b => decide (a.phase ≤ b.phase)

def setUp (configuration : Configuration σ) (lifecycle : Lifecycle σ) : Run σ (Lifecycle σ) := do
  return ⟨← (sort lifecycle.members).mapM (Member.setUp configuration)⟩

def startEach : List (Member σ) → Run σ (Outcome × List (Member σ))
  | [] => return (.ok (), [])
  | member :: rest => do
    match ← member.start with
    | (.error failure, member) => return (.error failure, member :: rest)
    | (.ok (), member) =>
      let (outcome, rest) ← startEach rest
      return (outcome, member :: rest)

def start (lifecycle : Lifecycle σ) : Run σ (Outcome × Lifecycle σ) := do
  let (outcome, members) ← startEach lifecycle.members
  if outcome matches .ok () then
    Run.trace (.event .info "modules started" [("modules", toString members.length)])
  return (outcome, ⟨members⟩)

def shutDownEach : List (Member σ) → Run σ (Outcome × List (Member σ))
  | [] => return (.ok (), [])
  | member :: rest => do
    match ← member.shutDown with
    | (.ok (), member) =>
      let (outcome, rest) ← shutDownEach rest
      return (outcome, member :: rest)
    | (.error failure, member) =>
      Run.trace (.event .error "module failed to shut down"
        [("phase", toString member.phase), ("error", failure.message)])
      let (_, rest) ← shutDownEach rest
      return (.error failure, member :: rest)

def shutDown (lifecycle : Lifecycle σ) : Run σ (Outcome × Lifecycle σ) := do
  let (outcome, members) ← shutDownEach lifecycle.members.reverse
  return (outcome, ⟨members.reverse⟩)

def describe (lifecycle : Lifecycle σ) : String :=
  Text.record "ModuleLifecycle" [("modules", toString lifecycle.members.length)] .complete

end Lifecycle

end EventProcessing
