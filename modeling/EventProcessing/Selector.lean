import EventProcessing.Handler

/-!
Selectors assign handlers to processing groups. The first selector that matches names the group; a
handler that none matches goes to the group it declares, and without one to the fallback.
-/

namespace EventProcessing

variable {σ : Type}

structure Selector (σ : Type) where
  priority : Int
  group : String
  applies : EventHandler σ → Bool

namespace Selector

def defaultPriority : Int := 0

def select? (selector : Selector σ) (handler : EventHandler σ) : Option String :=
  if selector.applies handler then some selector.group else none

def describe (selector : Selector σ) : String :=
  Text.record "ProcessorSelector"
    [("priority", toString selector.priority), ("processing_group", Text.quoted selector.group)]
    .partially

end Selector

structure SelectorChain (σ : Type) where
  selectors : List (Selector σ) := []
  fallback : EventHandler σ → String := fun handler => handler.package

namespace SelectorChain

def add (chain : SelectorChain σ) (selector : Selector σ) : SelectorChain σ :=
  { chain with selectors := chain.selectors ++ [selector] }

/-- Higher priorities come first; equal ones keep their order. -/
def sort (chain : SelectorChain σ) : SelectorChain σ :=
  { chain with selectors := chain.selectors.mergeSort fun a b => decide (b.priority ≤ a.priority) }

def selected? (chain : SelectorChain σ) (handler : EventHandler σ) : Option String :=
  chain.selectors.findSome? fun selector => selector.select? handler

def groupOf (chain : SelectorChain σ) (handler : EventHandler σ) : String :=
  (chain.selected? handler).getD (handler.declaredGroup.getD (chain.fallback handler))

def assign (chain : SelectorChain σ) (handler : EventHandler σ) : Program σ String := do
  let how := match chain.selected? handler with
    | some _ => "handler assigned by selector"
    | none => "handler assigned by default selector"
  let group := chain.groupOf handler
  Program.trace (.event .debug how [("handler", handler.typeName), ("group", group)])
  return group

end SelectorChain

end EventProcessing
