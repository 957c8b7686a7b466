import EventProcessing.Module

/-!
Setting a module up against a configuration: its registrations are fixed, handlers are assigned to
groups and groups to processors, and each processor gets a cell that builds it on first use. What
was built before is dropped; handlers and sagas are kept.
-/

namespace EventProcessing.Module

variable {σ : Type}

def resolveParts {α : Type} (configuration : Configuration σ) :
    List (Part σ α) → Program σ (List α × List (Part σ α))
  | [] => return ([], [])
  | part :: rest => do
    let (value, part) ← part.resolve configuration
    let (values, rest) ← resolveParts configuration rest
    return (value :: values, part :: rest)

def builtProcessors (module : Module σ) : List (Processor σ) :=
  module.processors.filterMap fun entry => entry.2.built

def builderOf (module : Module σ) (name : String) : ProcessorBuilder σ :=
  (module.builders.get? name).getD module.defaultBuilder

def setUpSaga (configuration : Configuration σ) (saga : Saga σ) : Resolving σ Unit :=
  (saga.setUp configuration).run configuration

/-- What is left of a module before it is set up again: nothing that was built but handlers and
sagas. -/
def cleared (module : Module σ) (configuration : Configuration σ) : Module σ :=
  { module with
    configuration := some configuration
    overrides := module.overrides.reset
    selectors := module.selectors.sort
    processors := [] }

def withAssembly (module : Module σ) (configuration : Configuration σ) (assembly : Assembly σ) :
    Module σ :=
  { module with
    assembly
    processors := assembly.map fun entry =>
      let order : ProcessorOrder σ :=
        { name := entry.1, sources := entry.2, builder := module.builderOf entry.1, configuration }
      (entry.1, order.cell) }

def assemble (module : Module σ) (configuration : Configuration σ) : Program σ (Module σ) := do
  let module := module.cleared configuration
  let (handlers, handlerParts) ← resolveParts configuration module.handlers
  let (sagas, sagaParts) ← resolveParts configuration module.sagas
  let (_, overrides) ← (sagas.forM (setUpSaga configuration)).run module.overrides
  let module :=
    { module with handlers := handlerParts, sagas := sagaParts, activeSagas := sagas, overrides }
  let assembly ← Assembly.make handlers sagas module.selectors module.names
  let module := module.withAssembly configuration assembly
  Program.trace (.event .info "event processing initialized"
    [("handlers", toString handlers.length), ("sagas", toString sagas.length),
      ("processors", toString module.processors.length)])
  return module

def setUp (configuration : Configuration σ) : Managing σ Unit := do
  let module ← get
  module.builtProcessors.forM fun processor => processor.abandon
  set (← module.assemble configuration)

end EventProcessing.Module
