import EventProcessing.Program

/-!
Components: values that are built on first use and kept. The factory runs at most once until the
component is reset; a run that fails keeps nothing.
-/

namespace EventProcessing

/-- A factory takes a `κ` and works in `m`; it may fail with an `ε`. -/
structure Component (m : Type → Type) (κ ε α : Type) where
  name : String
  factory : κ → m (Except ε α)
  built : Option α := none

namespace Component

variable {m : Type → Type} {κ ε α : Type}

def get [Monad m] [Traces m] (component : Component m κ ε α) (input : κ) :
    m (Except ε α × Component m κ ε α) := do
  match component.built with
  | some value => return (.ok value, component)
  | none =>
    Traces.trace (.event .debug "building component" [("component", component.name)])
    match ← component.factory input with
    | .ok value => return (.ok value, { component with built := some value })
    | .error failure => return (.error failure, component)

def value [Monad m] [Traces m] (component : Component m κ Empty α) (input : κ) :
    m (α × Component m κ Empty α) := do
  match ← component.get input with
  | (.ok value, component) => return (value, component)
  | (.error impossible, _) => nomatch impossible

/-- A new factory; a value that is built already stays until the reset. -/
def update [Monad m] [Traces m] (component : Component m κ ε α) (factory : κ → m (Except ε α)) :
    m (Component m κ ε α) := do
  if component.built.isSome then
    Traces.trace (.event .warn
      "component replaced after it was built; the built value is kept until reset"
      [("component", component.name)])
  return { component with factory }

def reset (component : Component m κ ε α) : Component m κ ε α := { component with built := none }

def describe (component : Component m κ ε α) : String :=
  Text.record "Component"
    [("name", Text.quoted component.name), ("initialized", toString component.built.isSome)]
    .complete

end Component

end EventProcessing
