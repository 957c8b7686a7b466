import EventProcessing.Configuration
import EventProcessing.Interceptor
import EventProcessing.Table

/-!
Registrations of interceptors. The chain of a processor holds its own interceptors, then the
defaults that apply to it, then one that carries correlation data on.
-/

namespace EventProcessing

variable {σ : Type}

abbrev InterceptorFactory (σ : Type) := Factory σ (Interceptor σ)

abbrev DefaultInterceptorFactory (σ : Type) :=
  Configuration σ → String → Program σ (Option (Interceptor σ))

structure InterceptorRegistry (σ : Type) where
  byProcessor : Table String (List (InterceptorFactory σ)) := []
  defaults : List (DefaultInterceptorFactory σ) := []

namespace InterceptorRegistry

def register (registry : InterceptorRegistry σ) (processor : String)
    (factory : InterceptorFactory σ) : InterceptorRegistry σ :=
  { registry with byProcessor := registry.byProcessor.push processor factory }

def registerDefault (registry : InterceptorRegistry σ) (factory : DefaultInterceptorFactory σ) :
    InterceptorRegistry σ :=
  { registry with defaults := registry.defaults ++ [factory] }

def factoriesOf (registry : InterceptorRegistry σ) (processor : String) :
    List (InterceptorFactory σ) :=
  (registry.byProcessor.get? processor).getD []

def unique (interceptors : List (Interceptor σ)) : List (Interceptor σ) :=
  interceptors.foldl Interceptor.addUnique []

def buildChain (registry : InterceptorRegistry σ) (configuration : Configuration σ)
    (processor : String) : Program σ (List (Interceptor σ)) := do
  let explicit ← (registry.factoriesOf processor).mapM fun factory => factory configuration
  let defaults ← registry.defaults.mapM fun factory => factory configuration processor
  let correlation := Interceptor.correlation configuration.providers (← Program.fresh)
  return unique (explicit ++ defaults.filterMap id) ++ [correlation]

def describe (registry : InterceptorRegistry σ) : String :=
  let processors := registry.byProcessor.keys.mergeSort fun a b => decide (a ≤ b)
  Text.record "InterceptorRegistry"
    [("processors", Text.list (processors.map Text.quoted)),
      ("defaults", toString registry.defaults.length)]
    .complete

end InterceptorRegistry

end EventProcessing
