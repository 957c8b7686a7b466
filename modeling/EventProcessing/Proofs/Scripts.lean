import EventProcessing.Proofs.Notebook.Attribution

/-! Programs with marks, one before each call of a handler. Without its marks the script of a batch
is the program of that batch, and its marks follow the events of the batch. -/

namespace EventProcessing

variable {σ α β : Type}

inductive Script (σ α : Type) where
  | done (value : α)
  | ask (request : Request σ) (next : request.Reply → Script σ α)
  | subscribe (bus : BusId) (consumer : Consumer σ) (next : ℕ → Script σ α)
  | mark (call : Call) (next : Script σ α)

namespace Script

def bind : Script σ α → (α → Script σ β) → Script σ β
  | .done a, f => f a
  | .ask request next, f => .ask request fun reply => (next reply).bind f
  | .subscribe bus consumer next, f => .subscribe bus consumer fun id => (next id).bind f
  | .mark call next, f => .mark call (next.bind f)

instance : Monad (Script σ) where
  pure := .done
  bind := bind

def ofProgram : Program σ α → Script σ α
  | .done value => .done value
  | .ask request next => .ask request fun reply => ofProgram (next reply)
  | ProgramOver.subscribe bus consumer next => .subscribe bus consumer fun id => ofProgram (next id)

instance : MonadLift (ProgramOver σ (Consumer σ)) (Script σ) := ⟨ofProgram⟩

def erase : Script σ α → Program σ α
  | .done value => .done value
  | .ask request next => .ask request fun reply => (next reply).erase
  | .subscribe bus consumer next => ProgramOver.subscribe bus consumer fun id => (next id).erase
  | .mark _ next => next.erase

@[simp] lemma erase_pure (a : α) : (pure a : Script σ α).erase = pure a := rfl

@[simp] lemma erase_bind (script : Script σ α) (f : α → Script σ β) :
    (script >>= f).erase = script.erase >>= fun a => (f a).erase := by
  induction script with
  | done a => rfl
  | ask request next ih => exact congrArg (ProgramOver.ask request) (funext ih)
  | subscribe bus consumer next ih =>
    exact congrArg (ProgramOver.subscribe bus consumer) (funext ih)
  | mark call next ih => exact ih

@[simp] lemma erase_ofProgram (program : Program σ α) : (ofProgram program).erase = program := by
  induction program with
  | done a => rfl
  | ask request next ih => exact congrArg (ProgramOver.ask request) (funext ih)
  | subscribe bus consumer next ih =>
    exact congrArg (ProgramOver.subscribe bus consumer) (funext ih)

@[simp] lemma erase_lift (program : Program σ α) : (liftM program : Script σ α).erase = program :=
  erase_ofProgram program

@[simp] lemma erase_mark (call : Call) (script : Script σ α) :
    (Script.mark call script).erase = script.erase := rfl

/-- Marks are for events from `lo` to `hi`, in the order of the events. -/
def Within : Script σ α → ℕ → ℕ → Prop
  | .done _, lo, hi => lo ≤ hi
  | .ask _ next, lo, hi => ∀ reply, (next reply).Within lo hi
  | .subscribe _ _ next, lo, hi => ∀ id, (next id).Within lo hi
  | .mark call next, lo, hi => lo ≤ call.index ∧ call.index ≤ hi ∧ next.Within call.index hi

namespace Within

variable {script : Script σ α} {f : α → Script σ β} {lo mid hi : ℕ}

lemma pure (h : lo ≤ hi) (a : α) : (Pure.pure a : Script σ α).Within lo hi := h

lemma ofProgram (h : lo ≤ hi) (program : Program σ α) :
    (Script.ofProgram program).Within lo hi := by
  induction program with
  | done a => exact h
  | ask request next ih => exact ih
  | subscribe bus consumer next ih => exact ih

lemma lower {lo' : ℕ} (h : script.Within lo hi) (hl : lo' ≤ lo) : script.Within lo' hi := by
  induction script generalizing lo lo' with
  | done a => exact hl.trans h
  | ask request next ih => exact fun reply => ih reply (h reply) hl
  | subscribe bus consumer next ih => exact fun id => ih id (h id) hl
  | mark call next ih => exact ⟨hl.trans h.1, h.2⟩

lemma bind (h : script.Within lo mid) (hm : mid ≤ hi) (hf : ∀ a, (f a).Within mid hi) :
    (script >>= f).Within lo hi := by
  induction script generalizing lo with
  | done a => exact (hf a).lower h
  | ask request next ih => exact fun reply => ih reply (h reply)
  | subscribe bus consumer next ih => exact fun id => ih id (h id)
  | mark call next ih => exact ⟨h.1, h.2.1.trans hm, ih h.2.2⟩

end Within

end Script

section Scripts

variable (index : ℕ) (event : EventMessage) (unit : UnitOfWork) (segment : Segment)

def HandlerGroup.callScript (errorHandler : ListenerErrorHandler σ) (path : List ℕ) :
    ℕ → List (EventHandler σ) → Script σ Outcome
  | _, [] => return .ok ()
  | place, handler :: rest =>
    if handler.canHandle event then
      .mark ⟨path ++ [place], index, event⟩ do
        match ← handler.handle event unit with
        | .ok () => callScript errorHandler path (place + 1) rest
        | .error failure =>
          match ← errorHandler.onError failure event handler with
          | .ok () => callScript errorHandler path (place + 1) rest
          | .error failure => return .error failure
    else callScript errorHandler path (place + 1) rest

namespace Invoker

mutual

def script : List ℕ → Invoker σ → Script σ Outcome
  | path, .group g =>
    if g.owns event segment then
      HandlerGroup.callScript index event unit g.errorHandler path 0 g.handlers
    else return .ok ()
  | _, .manager m => m.handle event unit segment
  | path, .all invokers => scriptAll path 0 invokers

def scriptAll : List ℕ → ℕ → List (Invoker σ) → Script σ Outcome
  | _, _, [] => return .ok ()
  | path, place, invoker :: rest =>
    if invoker.canHandle event segment then do
      match ← invoker.script (path ++ [place]) with
      | .ok () => scriptAll path (place + 1) rest
      | .error failure => return .error failure
    else scriptAll path (place + 1) rest

end

end Invoker

def Interceptor.chainScript (target : UnitOfWork → Script σ Outcome) :
    List (Interceptor σ) → UnitOfWork → Script σ (Outcome × UnitOfWork)
  | [], unit => do return (← target unit, unit)
  | interceptor :: rest, unit => do
    match ← interceptor.enter unit with
    | .stop outcome data => return (outcome, unit.register data)
    | .proceed data leave =>
      let (outcome, unit) ← chainScript target rest (unit.register data)
      return (← leave unit outcome, unit)

end Scripts

namespace Pipeline

variable (pipeline : Pipeline σ) (chain : List (Interceptor σ)) (segment : Segment)

def dispatchScript (index : ℕ) (event : EventMessage) : Script σ Outcome := do
  let target := fun unit : UnitOfWork => pipeline.invoker.script index unit.message unit segment []
  let (outcome, _) ← Interceptor.chainScript target chain { message := event }
  return outcome

def dispatchAllScript :
    ℕ → List EventMessage → Script σ (List (MonitorCallback σ) × Option Failure)
  | _, [] => return ([], none)
  | index, event :: rest => do
    let callback ← pipeline.monitor.ingest event
    if pipeline.invoker.canHandle event segment then
      match ← pipeline.dispatchScript chain segment index event with
      | .ok () =>
        let (processed, failure) ← dispatchAllScript (index + 1) rest
        return (callback :: processed, failure)
      | .error failure =>
        callback.failure failure
        return ([], some failure)
    else
      callback.ignored
      dispatchAllScript (index + 1) rest

def script (first : ℕ) (events : List EventMessage) : Script σ Outcome := do
  Script.ofProgram (Program.trace (.span "process_batch"
    [("processor", pipeline.name), ("segment", toString segment.id),
      ("size", toString events.length)]))
  let transaction ← pipeline.transactions.start
  let (processed, failure) ← pipeline.dispatchAllScript chain segment first events
  match ← pipeline.settle transaction processed failure with
  | none => return .ok ()
  | some failure =>
    Script.ofProgram (Program.trace (.event .debug "batch failed"
      [("processor", pipeline.name), ("error", failure.message)]))
    pipeline.errorHandler.handleError ⟨pipeline.name, failure, events⟩

end Pipeline

section Erase

variable (index : ℕ) (event : EventMessage) (unit : UnitOfWork) (segment : Segment)

lemma HandlerGroup.erase_callScript (errorHandler : ListenerErrorHandler σ) (path : List ℕ)
    (place : ℕ) (handlers : List (EventHandler σ)) :
    (callScript index event unit errorHandler path place handlers).erase =
      callEach errorHandler event unit handlers := by
  induction handlers generalizing place with
  | nil => rfl
  | cons handler rest ih =>
    unfold callScript callEach
    split
    · rw [Script.erase_mark, Script.erase_bind, Script.erase_lift]
      congr 1
      funext outcome
      cases outcome with
      | ok _ => exact ih (place + 1)
      | error failure =>
        simp only [Script.erase_bind, Script.erase_lift]
        congr 1
        funext verdict
        cases verdict with
        | ok _ => exact ih (place + 1)
        | error failure => rfl
    · exact ih (place + 1)

namespace Invoker

mutual

lemma erase_script : ∀ (path : List ℕ) (invoker : Invoker σ),
    (invoker.script index event unit segment path).erase = invoker.handle event unit segment
  | path, .group g => by
    unfold script handle HandlerGroup.handle
    split
    · exact HandlerGroup.erase_callScript index event unit g.errorHandler path 0 g.handlers
    · rfl
  | _, .manager m => Script.erase_lift _
  | path, .all invokers => erase_scriptAll path 0 invokers

lemma erase_scriptAll : ∀ (path : List ℕ) (place : ℕ) (invokers : List (Invoker σ)),
    (scriptAll index event unit segment path place invokers).erase =
      handleAll invokers event unit segment
  | _, _, [] => rfl
  | path, place, invoker :: rest => by
    have hrest := erase_scriptAll path (place + 1) rest
    unfold scriptAll handleAll
    split
    · rw [Script.erase_bind, erase_script (path ++ [place]) invoker]
      congr 1
      funext outcome
      cases outcome with
      | ok _ => exact hrest
      | error failure => rfl
    · exact hrest

end

end Invoker

lemma Interceptor.erase_chainScript {target : UnitOfWork → Script σ Outcome}
    (chain : List (Interceptor σ)) (unit : UnitOfWork) :
    (chainScript target chain unit).erase =
      Interceptor.chain (fun unit => (target unit).erase) chain unit := by
  induction chain generalizing unit with
  | nil => exact Script.erase_bind _ _
  | cons interceptor rest ih =>
    unfold chainScript Interceptor.chain
    rw [Script.erase_bind, Script.erase_lift]
    congr 1
    funext interception
    cases interception with
    | stop outcome => rfl
    | proceed data leave =>
      simp only [Script.erase_bind, ih, Script.erase_lift]
      rfl

namespace Pipeline

variable (pipeline : Pipeline σ) (chain : List (Interceptor σ))

lemma erase_dispatchScript :
    (pipeline.dispatchScript chain segment index event).erase =
      pipeline.dispatch chain segment event := by
  unfold dispatchScript dispatch
  simp only [Script.erase_bind, Interceptor.erase_chainScript, Invoker.erase_script]
  rfl

lemma erase_dispatchAllScript (events : List EventMessage) :
    (pipeline.dispatchAllScript chain segment index events).erase =
      pipeline.dispatchAll chain segment events := by
  induction events generalizing index with
  | nil => rfl
  | cons event rest ih =>
    unfold dispatchAllScript dispatchAll
    rw [Script.erase_bind, Script.erase_lift]
    congr 1
    funext callback
    split
    · rw [Script.erase_bind, erase_dispatchScript]
      congr 1
      funext outcome
      cases outcome with
      | ok _ =>
        simp only [Script.erase_bind, ih]
        rfl
      | error failure =>
        simp only [Script.erase_bind, Script.erase_lift]
        rfl
    · rw [Script.erase_bind, Script.erase_lift, ih]

theorem erase_script (first : ℕ) (events : List EventMessage) :
    (pipeline.script chain segment first events).erase =
      pipeline.processBatch chain events segment := by
  unfold script processBatch
  simp only [Script.erase_bind, Script.erase_lift, Script.erase_ofProgram,
    erase_dispatchAllScript]
  congr 1
  funext _
  congr 1
  funext transaction
  congr 1
  funext dispatched
  congr 1
  funext answer
  cases answer with
  | none => rfl
  | some failure => simp only [Script.erase_bind, Script.erase_lift, Script.erase_ofProgram]

end Pipeline

end Erase

section Order

variable (index : ℕ) (event : EventMessage) (unit : UnitOfWork) (segment : Segment)

lemma HandlerGroup.within_callScript (errorHandler : ListenerErrorHandler σ) (path : List ℕ)
    (place : ℕ) (handlers : List (EventHandler σ)) :
    (callScript index event unit errorHandler path place handlers).Within index index := by
  induction handlers generalizing place with
  | nil => exact .pure le_rfl _
  | cons handler rest ih =>
    unfold callScript
    split
    · refine ⟨le_rfl, le_rfl, .bind (.ofProgram le_rfl _) le_rfl ?_⟩
      rintro (failure | _)
      · refine .bind (.ofProgram le_rfl _) le_rfl ?_
        rintro (failure | _)
        · exact .pure le_rfl _
        · exact ih (place + 1)
      · exact ih (place + 1)
    · exact ih (place + 1)

namespace Invoker

mutual

lemma within_script : ∀ (path : List ℕ) (invoker : Invoker σ),
    (invoker.script index event unit segment path).Within index index
  | path, .group g => by
    unfold script
    split
    · exact HandlerGroup.within_callScript index event unit g.errorHandler path 0 g.handlers
    · exact .pure le_rfl _
  | _, .manager m => .ofProgram le_rfl _
  | path, .all invokers => within_scriptAll path 0 invokers

lemma within_scriptAll : ∀ (path : List ℕ) (place : ℕ) (invokers : List (Invoker σ)),
    (scriptAll index event unit segment path place invokers).Within index index
  | _, _, [] => .pure le_rfl _
  | path, place, invoker :: rest => by
    have hrest := within_scriptAll path (place + 1) rest
    unfold scriptAll
    split
    · refine .bind (within_script (path ++ [place]) invoker) le_rfl ?_
      rintro (failure | _)
      · exact .pure le_rfl _
      · exact hrest
    · exact hrest

end

end Invoker

lemma Interceptor.within_chainScript {target : UnitOfWork → Script σ Outcome}
    (ht : ∀ unit, (target unit).Within index index) (chain : List (Interceptor σ))
    (unit : UnitOfWork) : (chainScript target chain unit).Within index index := by
  induction chain generalizing unit with
  | nil => exact .bind (ht unit) le_rfl fun _ => .pure le_rfl _
  | cons interceptor rest ih =>
    refine .bind (.ofProgram le_rfl _) le_rfl fun interception => ?_
    cases interception with
    | stop outcome => exact .pure le_rfl _
    | proceed data leave =>
      refine .bind (ih _) le_rfl fun result => ?_
      exact .bind (.ofProgram le_rfl _) le_rfl fun _ => .pure le_rfl _

namespace Pipeline

variable (pipeline : Pipeline σ) (chain : List (Interceptor σ))

lemma within_dispatchScript :
    (pipeline.dispatchScript chain segment index event).Within index index :=
  .bind (Interceptor.within_chainScript index
    (fun unit => Invoker.within_script index unit.message unit segment [] _) chain _) le_rfl
    fun _ => .pure le_rfl _

lemma within_dispatchAllScript {lo hi : ℕ} (events : List EventMessage) (hl : lo ≤ index)
    (hh : index + events.length ≤ hi + 1) (hle : lo ≤ hi) :
    (pipeline.dispatchAllScript chain segment index events).Within lo hi := by
  induction events generalizing lo index with
  | nil => exact .pure hle _
  | cons event rest ih =>
    have hindex : index ≤ hi := by simp at hh; omega
    have hrest : ∀ mid ≤ index, mid ≤ hi →
        (pipeline.dispatchAllScript chain segment (index + 1) rest).Within mid hi := by
      intro mid hm hmid
      exact ih (index + 1) (by omega) (by simp at hh; omega) hmid
    refine .bind (.ofProgram le_rfl _) hle fun callback => ?_
    split
    · refine .bind ((pipeline.within_dispatchScript index event segment chain).lower hl) hindex ?_
      rintro (failure | _)
      · exact .bind (.ofProgram le_rfl _) hindex fun _ => .pure hindex _
      · exact .bind (hrest index le_rfl hindex) le_rfl fun _ => .pure le_rfl _
    · exact .bind (.ofProgram le_rfl _) hle fun _ => hrest lo hl hle

theorem within_script (first : ℕ) (events : List EventMessage) (hne : events ≠ []) :
    (pipeline.script chain segment first events).Within first (first + events.length - 1) := by
  have hpos : 0 < events.length := List.length_pos_iff.mpr hne
  have hle : first ≤ first + events.length - 1 := by omega
  refine .bind (.ofProgram le_rfl _) hle fun _ => .bind (.ofProgram le_rfl _) hle fun _ => ?_
  refine .bind (pipeline.within_dispatchAllScript first segment chain events le_rfl (by omega) hle)
    le_rfl fun dispatched => .bind (.ofProgram le_rfl _) le_rfl fun answer => ?_
  cases answer with
  | none => exact .pure le_rfl _
  | some failure => exact .bind (.ofProgram le_rfl _) le_rfl fun _ => .ofProgram le_rfl _

end Pipeline

end Order

end EventProcessing
