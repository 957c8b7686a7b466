import EventProcessing.Message
import EventProcessing.Text.Quoted

/-!
An event bus: a log that only grows, read from any position, and the subscriptions to which each
published batch is delivered. The delivery itself is the system's.
-/

namespace EventProcessing

structure Bus (κ : Type) where
  log : List TrackedEvent := []
  subscriptions : List (Nat × κ) := []
  nextSubscription : Nat := 0

namespace Bus

variable {κ : Type}

def entriesFrom : Nat → List EventMessage → List TrackedEvent
  | _, [] => []
  | n, event :: rest => ⟨n, event⟩ :: entriesFrom (n + 1) rest

def append (bus : Bus κ) (events : List EventMessage) : Bus κ :=
  { bus with log := bus.log ++ entriesFrom bus.log.length events }

def subscribe (bus : Bus κ) (subscriber : κ) : Nat × Bus κ :=
  (bus.nextSubscription,
    { bus with
      subscriptions := bus.subscriptions ++ [(bus.nextSubscription, subscriber)]
      nextSubscription := bus.nextSubscription + 1 })

def cancel (bus : Bus κ) (subscription : Nat) : Bus κ :=
  { bus with subscriptions := bus.subscriptions.filter fun s => s.1 != subscription }

def describeSubscription : String := Text.record "Registration" [] .partially

def subscribers (bus : Bus κ) : List κ := bus.subscriptions.map Prod.snd

end Bus

def readLog (log : List TrackedEvent) (after : Option Token) (max : Nat) : List TrackedEvent :=
  (log.drop (after.elim 0 (· + 1))).take max

def headToken? (log : List TrackedEvent) : Option Token := log.getLast?.map TrackedEvent.token

theorem Bus.length_entriesFrom (n : Nat) (events : List EventMessage) :
    (entriesFrom n events).length = events.length := by
  induction events generalizing n with
  | nil => rfl
  | cons event rest ih => simp [entriesFrom, ih]

theorem Bus.append_nil {κ : Type} (bus : Bus κ) : bus.append [] = bus := by
  simp [append, entriesFrom]

end EventProcessing
