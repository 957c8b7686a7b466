import EventProcessing.Configuration
import EventProcessing.Table

/-!
Override tables: components by key, and one default for all other keys. A value is built when it is
first asked for and kept until the reset.
-/

namespace EventProcessing

structure OverrideTable (σ α : Type) where
  axis : String
  keyed : Table String (Part σ α) := []
  default : Part σ α

namespace OverrideTable

variable {σ α : Type}

def make (axis : String) (factory : Factory σ α) : OverrideTable σ α where
  axis
  default := .ofFactory (axis ++ "[default]") factory

def register (table : OverrideTable σ α) (key : String) (factory : Factory σ α) :
    Program σ (OverrideTable σ α) := do
  let part ← match table.keyed.get? key with
    | some part => part.replace factory
    | none => pure (.ofFactory (table.axis ++ "[" ++ key ++ "]") factory)
  return { table with keyed := table.keyed.put key part }

def registerDefault (table : OverrideTable σ α) (factory : Factory σ α) :
    Program σ (OverrideTable σ α) := do
  return { table with default := ← table.default.replace factory }

def hasOverride (table : OverrideTable σ α) (key : String) : Bool := table.keyed.contains key

def serving (table : OverrideTable σ α) (key : String) : Part σ α :=
  (table.keyed.get? key).getD table.default

def resolve (table : OverrideTable σ α) (key : String) (configuration : Configuration σ) :
    Program σ (α × OverrideTable σ α) := do
  match table.keyed.get? key with
  | some part =>
    let (value, part) ← part.resolve configuration
    return (value, { table with keyed := table.keyed.put key part })
  | none =>
    let (value, part) ← table.default.resolve configuration
    return (value, { table with default := part })

def reset (table : OverrideTable σ α) : OverrideTable σ α :=
  { table with
    keyed := table.keyed.map fun entry => (entry.1, entry.2.reset)
    default := table.default.reset }

def describe (table : OverrideTable σ α) : String :=
  let keys := table.keyed.keys.mergeSort fun a b => decide (a ≤ b)
  Text.record "OverrideTable"
    [("axis", Text.quoted table.axis), ("keys", Text.list (keys.map Text.quoted))]
    .complete

end OverrideTable

end EventProcessing
