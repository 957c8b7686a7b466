import EventProcessing.Program
import EventProcessing.Table

/-!
Token stores keep, for each processor and segment, the token of the last event that was handled. A
store holds its tokens in a memory behind a gate that may refuse any call.
-/

namespace EventProcessing

/-- The positions by processor and segment; `none` is before the first event. -/
abbrev TokenMemory := Table (String × Nat) (Option Token)

namespace TokenMemory

def segments (memory : TokenMemory) (processor : String) : List Nat :=
  (memory.keys.filterMap fun key => if key.1 = processor then some key.2 else none).mergeSort

def fetch (memory : TokenMemory) (processor : String) (segment : Nat) :
    Except Failure (Option Token) :=
  match memory.get? (processor, segment) with
  | some token => .ok token
  | none => .error (.noToken processor segment)

def store (memory : TokenMemory) (processor : String) (segment : Nat) (token : Token) :
    TokenMemory :=
  memory.put (processor, segment) (some token)

def create (memory : TokenMemory) (processor : String) (initial : Option Token) (count : Nat) :
    TokenMemory :=
  (List.range count).foldl (fun memory segment => memory.put (processor, segment) initial) memory

def begin? (memory : TokenMemory) (processor : String) (count : Nat) (initial : Option Token) :
    Except Failure TokenMemory :=
  if (memory.segments processor).isEmpty then .ok (memory.create processor initial count)
  else .error (.segmentsExist processor)

end TokenMemory

inductive TokenCall where
  | begin (processor : String) (count : Nat) (initial : Option Token)
  | store (processor : String) (segment : Nat) (token : Token)
  | fetch (processor : String) (segment : Nat)
  | segments (processor : String)

structure TokenStore (σ : Type) where
  self : Instance
  gate : TokenCall → Program σ Outcome

def TokenStore.inMemory {σ : Type} (id : Nat) : TokenStore σ where
  self := ⟨id, "InMemoryTokenStore"⟩
  gate _ := return .ok ()

end EventProcessing
