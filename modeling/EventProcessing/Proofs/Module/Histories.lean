import EventProcessing.Module.Lifecycle
import EventProcessing.Proofs.Chains

/-! The calls on a module, and the states they lead to. Between two calls anything may happen in the
system that leaves the chains of the processors alone. -/

namespace EventProcessing

variable {σ : Type}

inductive Registration (σ : Type) where
  | handler (factory : Factory σ (EventHandler σ))
  | saga (factory : Factory σ (Saga σ))
  | selector (selector : Selector σ)
  | fallback (fallback : EventHandler σ → String)
  | assignment (group processor : String)
  | namingRule (rule : String → String)
  | builder (name : String) (builder : ProcessorBuilder σ)
  | defaultBuilder (builder : ProcessorBuilder σ)
  | interceptor (name : String) (factory : InterceptorFactory σ)
  | defaultInterceptor (factory : DefaultInterceptorFactory σ)
  | override (axis : Axis) (key : Option String) (factory : Factory σ (axis.Value σ))
  | monitors (name : String) (factory : MonitorFactory σ)
  | sagaStore (factory : Factory σ SagaStore)

/-- The calls that change what a module is set up with. -/
inductive Change (σ : Type) where
  | register (registration : Registration σ)
  | setUp (configuration : Configuration σ)

/-- The calls that only use what a module was set up with. -/
inductive Query (σ : Type) where
  | consult (inquiry : Inquiry σ Unit)
  | processor (name : String)
  | processorOfGroup (group : String)
  | allProcessors
  | interceptorsOf (name : String)
  | start
  | shutDown

def Part.renew {α : Type} (part : Part σ α) (factory : Factory σ α) : Part σ α :=
  { Part.ofFactory part.name factory with built := part.built }

def OverrideTable.enter {α : Type} (table : OverrideTable σ α) (key : Option String)
    (factory : Factory σ α) : OverrideTable σ α :=
  match key with
  | none => { table with default := table.default.renew factory }
  | some key =>
    { table with
      keyed := table.keyed.put key <| match table.keyed.get? key with
        | some part => part.renew factory
        | none => .ofFactory (table.axis ++ "[" ++ key ++ "]") factory }

def Overrides.enter (overrides : Overrides σ) (axis : Axis) (key : Option String)
    (factory : Factory σ (axis.Value σ)) : Overrides σ :=
  overrides.setTable axis ((overrides.table axis).enter key factory)

namespace Registration

def enter (module : Module σ) : Registration σ → Module σ
  | .handler factory => module.registerHandler factory
  | .saga factory => module.registerSaga factory
  | .selector added => module.addSelector added
  | .fallback groupOf => module.setFallback groupOf
  | .assignment group processor => module.assignGroup group processor
  | .namingRule rule => module.setNamingRule rule
  | .builder name build => (module.registerBuilder name build).toOption.getD module
  | .defaultBuilder build => module.setDefaultBuilder build
  | .interceptor name factory =>
    { module with interceptors := module.interceptors.register name factory }
  | .defaultInterceptor factory => module.registerDefaultInterceptor factory
  | .override axis key factory =>
    { module with overrides := module.overrides.enter axis key factory }
  | .monitors name factory =>
    { module with overrides := module.overrides.registerMonitors name factory }
  | .sagaStore factory =>
    { module with
      overrides := { module.overrides with
        sagaStore := module.overrides.sagaStore.renew factory } }

def perform : Registration σ → Managing σ Unit
  | .interceptor name factory => Module.registerInterceptor name factory
  | .override axis key factory => Module.changeOverrides (Overrides.register axis key factory)
  | .sagaStore factory => Module.changeOverrides (Overrides.registerSagaStore factory)
  | registration => modify fun module => registration.enter module

end Registration

def Change.perform : Change σ → Managing σ Unit
  | .register registration => registration.perform
  | .setUp configuration => Module.setUp configuration

def Query.perform : Query σ → Managing σ Unit
  | .consult inquiry => do let _ ← Module.consult inquiry
  | .processor name => do let _ ← Module.processor? name
  | .processorOfGroup group => do let _ ← Module.processorOfGroup? group
  | .allProcessors => do let _ ← Module.allProcessors
  | .interceptorsOf name => do let _ ← Module.interceptorsOf name
  | .start => do let _ ← Module.start
  | .shutDown => do let _ ← Module.shutDown

namespace Module

/-- What a module and its system can come to by these changes, in this order, with any queries
between them and with whatever else happens in the system. -/
inductive Reaches (m₀ : Module σ) (s₀ : System σ) : List (Change σ) → Module σ → System σ → Prop
  | init : Reaches m₀ s₀ [] m₀ s₀
  | change {history : List (Change σ)} {m m' : Module σ} {s s' : System σ} {change : Change σ}
      {depth : ℕ} (h : Reaches m₀ s₀ history m s)
      (hc : change.perform m depth s = some (((), m'), s')) :
      Reaches m₀ s₀ (history ++ [change]) m' s'
  | query {history : List (Change σ)} {m m' : Module σ} {s s' : System σ} {query : Query σ}
      {depth : ℕ} (h : Reaches m₀ s₀ history m s)
      (hq : query.perform m depth s = some (((), m'), s')) : Reaches m₀ s₀ history m' s'
  | beside {history : List (Change σ)} {m : Module σ} {s s' : System σ}
      (h : Reaches m₀ s₀ history m s) (hp : s.Passes s') : Reaches m₀ s₀ history m s'

def Built (m : Module σ) (name : String) (p : Processor σ) : Prop :=
  (m.processors.get? name).bind Component.built = some p

def following? (depth : ℕ) :
    List (Change σ ⊕ Query σ) → Module σ → System σ → Option (Module σ × System σ)
  | [], m, s => some (m, s)
  | call :: rest, m, s => do
    let ((_, m), s) ← call.elim Change.perform Query.perform m depth s
    following? depth rest m s

lemma Reaches.following {m₀ m : Module σ} {s₀ s : System σ} {history : List (Change σ)}
    {depth : ℕ} {calls : List (Change σ ⊕ Query σ)} {after : Module σ × System σ}
    (h : Reaches m₀ s₀ history m s) (hf : following? depth calls m s = some after) :
    Reaches m₀ s₀ (history ++ calls.filterMap Sum.getLeft?) after.1 after.2 := by
  induction calls generalizing history m s with
  | nil =>
    cases hf
    rwa [List.filterMap_nil, List.append_nil]
  | cons call rest ih =>
    obtain ⟨⟨⟨_, m₁⟩, s₁⟩, hcall, hrest⟩ := Option.bind_eq_some_iff.mp hf
    cases call with
    | inl change =>
      have hlater := ih (.change h hcall) hrest
      rwa [List.append_assoc] at hlater
    | inr query => exact ih (.query h hcall) hrest

end Module

namespace Change

def registration? : Change σ → Option (Registration σ)
  | .register registration => some registration
  | .setUp _ => none

def isRegistration : Change σ → Bool
  | .register _ => true
  | .setUp _ => false

def registered (history : List (Change σ)) : Module σ :=
  (history.filterMap registration?).foldl Registration.enter {}

def Overridden (history : List (Change σ)) (axis : Axis) (key : String) : Prop :=
  ∃ factory, .register (.override axis (some key) factory) ∈ history

def NoSetUp (history : List (Change σ)) : Prop := ∀ configuration, .setUp configuration ∉ history

end Change

namespace Sample

def blank : System Unit where
  shared := ()

lemma vacant_blank : blank.Vacant := fun _ _ => rfl

def configuration (bus : BusId) : Configuration Unit where
  bus

def ledger : Saga Unit := .simple "Ledger" (some "ledger") (.all [])

def calls (changes : List (Change Unit)) (names : List String) :
    List (Change Unit ⊕ Query Unit) :=
  changes.map .inl ++ names.map fun name => .inr (.processor name)

def state (changes : List (Change Unit)) (names : List String)
    (h : (Module.following? 1 (calls changes names) {} blank).isSome = true) :
    Module Unit × System Unit :=
  (Module.following? 1 (calls changes names) {} blank).get h

lemma reaches_state (changes : List (Change Unit)) (names : List String)
    (h : (Module.following? 1 (calls changes names) {} blank).isSome = true) :
    Module.Reaches {} blank changes (state changes names h).1 (state changes names h).2 := by
  have hchanges : (calls changes names).filterMap Sum.getLeft? = changes := by
    simp [calls, List.filterMap_map, Function.comp_def]
  have hreaches := Module.Reaches.init.following (Option.some_get h).symm
  rw [hchanges] at hreaches
  exact hreaches

def oneSaga : List (Change Unit) :=
  [.register (.saga fun _ => return ledger), .setUp (configuration 0)]

end Sample

end EventProcessing
