import EventProcessing.Bus
import EventProcessing.SagaStore
import EventProcessing.Worker

/-!
The system that programs run in: buses, memories, processors and workers, each under its number. A
publish delivers to the subscriptions it finds, inside the call; deliveries nest to a given depth,
and a run that needs more has no answer.
-/

namespace EventProcessing

inductive Subscriber (σ : Type) where
  | consumer (consumer : Consumer σ)
  | processor (id : Nat) (pipeline : Pipeline σ)

namespace Subscriber

variable {σ : Type}

def isConsumer : Subscriber σ → Bool
  | .consumer _ => true
  | .processor .. => false

end Subscriber

/-- Ends a subscription that a program made. That of a processor is for the processor alone to
cancel. -/
def Bus.withdraw {σ : Type} (bus : Bus (Subscriber σ)) (subscription : Nat) :
    Bus (Subscriber σ) :=
  { bus with
    subscriptions := bus.subscriptions.filter fun s => !(s.1 == subscription && s.2.isConsumer) }

/-- How many waits that are over at once may follow each other before all others have a turn. -/
def patience : Nat := 128

structure System (σ : Type) where
  shared : σ
  nextId : Nat := 0
  buses : Table Nat (Bus (Subscriber σ)) := []
  tokens : Table Nat TokenMemory := []
  sagas : Table Nat SagaMemory := []
  processors : Table Nat (ProcessorState σ) := []
  workers : Table Nat (Worker σ) := []
  /-- Workers that are ready, in the order in which they run. -/
  ready : List Nat := []
  /-- Workers that idle, with their deadlines, in the order in which they went idle. -/
  idle : List (Nat × Nat) := []
  now : Nat := 0
  /-- How many more waits of the caller may be over at once before the workers have a round. -/
  waitsLeft : Nat := patience
  hasRuntime : Bool := true
  trace : List TraceLine := []
  metrics : Table Metric Nat := []

namespace System

variable {σ α : Type}

def bus (system : System σ) (id : BusId) : Bus (Subscriber σ) := (system.buses.get? id).getD {}

def setBus (system : System σ) (id : BusId) (bus : Bus (Subscriber σ)) : System σ :=
  { system with buses := system.buses.put id bus }

def tokenMemory (system : System σ) (id : Nat) : TokenMemory := (system.tokens.get? id).getD []

def setTokenMemory (system : System σ) (id : Nat) (memory : TokenMemory) : System σ :=
  { system with tokens := system.tokens.put id memory }

def sagaMemory (system : System σ) (id : Nat) : SagaMemory := (system.sagas.get? id).getD []

def setSagaMemory (system : System σ) (id : Nat) (memory : SagaMemory) : System σ :=
  { system with sagas := system.sagas.put id memory }

def processor (system : System σ) (id : Nat) : ProcessorState σ :=
  (system.processors.get? id).getD {}

def setProcessor (system : System σ) (id : Nat) (state : ProcessorState σ) : System σ :=
  { system with processors := system.processors.put id state }

def view (system : System σ) (id : BusId) : BusView :=
  ⟨(system.bus id).log, (system.bus id).subscriptions.map Prod.fst⟩

def addTrace (system : System σ) (line : TraceLine) : System σ :=
  { system with trace := system.trace ++ [line] }

def addMetric (system : System σ) (metric : Metric) : System σ :=
  { system with metrics := system.metrics.put metric ((system.metrics.get? metric).getD 0 + 1) }

def takeId (system : System σ) : Nat × System σ :=
  (system.nextId, { system with nextId := system.nextId + 1 })

def subscribe (system : System σ) (id : BusId) (subscriber : Subscriber σ) : Nat × System σ :=
  let (subscription, bus) := (system.bus id).subscribe subscriber
  (subscription, system.setBus id bus)

def cancel (system : System σ) (id : BusId) (subscription : Nat) : System σ :=
  system.setBus id ((system.bus id).cancel subscription)

def withdraw (system : System σ) (id : BusId) (subscription : Nat) : System σ :=
  system.setBus id ((system.bus id).withdraw subscription)

/-- How a batch reaches one subscriber. `none` stands for a run without an answer. -/
abbrev Delivery (σ : Type) :=
  Subscriber σ → List EventMessage → System σ → Option (Outcome × System σ)

def deliverAll (deliver : Delivery σ) (events : List EventMessage) :
    List (Subscriber σ) → System σ → Option (Outcome × System σ)
  | [], system => some (.ok (), system)
  | subscriber :: rest, system => do
    match ← deliver subscriber events system with
    | (.ok (), system) => deliverAll deliver events rest system
    | (.error failure, system) => return (.error failure, system)

/-- Logs a batch and delivers it to those subscribed at this moment. An empty batch is nothing. -/
def publish (deliver : Delivery σ) (id : BusId) (events : List EventMessage) (system : System σ) :
    Option (Outcome × System σ) :=
  if events.isEmpty then some (.ok (), system)
  else
    let bus := system.bus id
    deliverAll deliver events bus.subscribers (system.setBus id (bus.append events))

def answer (deliver : Delivery σ) (system : System σ) :
    (request : Request σ) → Option (request.Reply × System σ)
  | .get => some (system.shared, system)
  | .set state => some ((), { system with shared := state })
  | .fresh => some system.takeId
  | .trace line => some ((), system.addTrace line)
  | .count metric => some ((), system.addMetric metric)
  | .view bus => some (system.view bus, system)
  | .publish bus events => system.publish deliver bus events
  | .cancel bus subscription => some ((), system.withdraw bus subscription)

def execute (deliver : Delivery σ) : Program σ α → System σ → Option (α × System σ)
  | .done value, system => some (value, system)
  | .ask request next, system => do
    let (reply, system) ← system.answer deliver request
    execute deliver (next reply) system
  | ProgramOver.subscribe bus consumer next, system =>
    let (subscription, system) := system.subscribe bus (.consumer consumer)
    execute deliver (next subscription) system

def reaction (system : System σ) (events : List EventMessage) :
    Subscriber σ → Program σ Outcome
  | .consumer consumer => consumer.react events
  | .processor id pipeline => pipeline.processBatch (system.processor id).chain events .root

def deliver : Nat → Delivery σ
  | 0, _, _, _ => none
  | depth + 1, subscriber, events, system =>
    execute (deliver depth) (system.reaction events subscriber) system

/-- Runs a program whose publishes nest no deeper than `depth`. -/
def run (depth : Nat) (program : Program σ α) (system : System σ) : Option (α × System σ) :=
  execute (deliver depth) program system

end System

abbrev Run (σ : Type) := ReaderT Nat (StateT (System σ) Option)

namespace Run

variable {σ α : Type}

def program (p : Program σ α) : Run σ α := fun depth system => System.run depth p system

instance : MonadLift (ProgramOver σ (Consumer σ)) (Run σ) := ⟨program⟩

def system : Run σ (System σ) := get

def update (f : System σ → System σ) : Run σ Unit := modify f

def takeId : Run σ Nat := modifyGet System.takeId

def trace (line : TraceLine) : Run σ Unit := update fun system => system.addTrace line

instance : Traces (Run σ) := ⟨trace⟩

end Run

end EventProcessing
