import EventProcessing.Proofs.Execution

/-! Logics of programs. What is closed under values, sequences and traces holds of a batch as soon
as it holds of whatever the batch may ask its collaborators. -/

namespace EventProcessing

/-- What is said of programs and of the values they come to, with the rules by which it is said. -/
structure ProgramLogic (σ : Type) where
  Holds {α : Type} : Program σ α → (α → Prop) → Prop
  pure {α : Type} {P : α → Prop} {a : α} (h : P a) : Holds (Pure.pure a) P
  bind {α β : Type} {P : α → Prop} {Q : β → Prop} {program : Program σ α}
    {next : α → Program σ β} (hp : Holds program P) (hn : ∀ a, P a → Holds (next a) Q) :
    Holds (program >>= next) Q
  trace (line : TraceLine) : Holds (Program.trace line) fun _ => True

variable {σ α β : Type} {L : ProgramLogic σ}

namespace ProgramLogic

abbrev Runs (L : ProgramLogic σ) (program : Program σ α) : Prop := L.Holds program fun _ => True

lemma runs_pure (a : α) : L.Runs (Pure.pure a : Program σ α) := L.pure trivial

lemma runs_bind {program : Program σ α} {next : α → Program σ β} (hp : L.Runs program)
    (hn : ∀ a, L.Runs (next a)) : L.Runs (program >>= next) :=
  L.bind hp fun a _ => hn a

lemma forM {items : List α} {act : α → Program σ Unit} (h : ∀ item ∈ items, L.Runs (act item)) :
    L.Runs (items.forM act) := by
  induction items with
  | nil => exact L.runs_pure _
  | cons item rest ih =>
    apply L.runs_bind (h item List.mem_cons_self)
    exact fun _ => ih fun other ho => h other (List.mem_cons_of_mem _ ho)

end ProgramLogic

structure MonitorCallback.Obeys (L : ProgramLogic σ) (callback : MonitorCallback σ) : Prop where
  success : L.Runs callback.success
  failure : ∀ failure, L.Runs (callback.failure failure)
  ignored : L.Runs callback.ignored

def Interception.Obeys (L : ProgramLogic σ) : Interception σ → Prop
  | .stop .. => True
  | .proceed _ leave => ∀ unit outcome, L.Runs (leave unit outcome)

def Interceptor.Obeys (L : ProgramLogic σ) (interceptor : Interceptor σ) : Prop :=
  ∀ unit, L.Holds (interceptor.enter unit) (Interception.Obeys L)

structure Transaction.Obeys (L : ProgramLogic σ) (transaction : Transaction σ) : Prop where
  commit : L.Runs transaction.commit
  rollback : L.Runs transaction.rollback

structure HandlerGroup.Obeys (L : ProgramLogic σ) (group : HandlerGroup σ) : Prop where
  handle : ∀ handler ∈ group.handlers, ∀ event unit, L.Runs (handler.handle event unit)
  onError : ∀ handler ∈ group.handlers, ∀ failure event,
    L.Runs (group.errorHandler.onError failure event handler)

namespace Invoker

mutual

def Obeys (L : ProgramLogic σ) : Invoker σ → Prop
  | .group g => g.Obeys L
  | .manager m => ∀ event unit segment, L.Runs (m.handle event unit segment)
  | .all invokers => AllObey L invokers

def AllObey (L : ProgramLogic σ) : List (Invoker σ) → Prop
  | [] => True
  | invoker :: rest => invoker.Obeys L ∧ AllObey L rest

end

lemma runs_callEach {errorHandler : ListenerErrorHandler σ} {handlers : List (EventHandler σ)}
    (hh : ∀ handler ∈ handlers, ∀ event unit, L.Runs (handler.handle event unit))
    (he : ∀ handler ∈ handlers, ∀ failure event,
      L.Runs (errorHandler.onError failure event handler))
    (event : EventMessage) (unit : UnitOfWork) :
    L.Runs (HandlerGroup.callEach errorHandler event unit handlers) := by
  induction handlers with
  | nil => exact L.runs_pure _
  | cons handler rest ih =>
    have hrest := ih (fun other ho => hh other (List.mem_cons_of_mem _ ho))
      (fun other ho => he other (List.mem_cons_of_mem _ ho))
    unfold HandlerGroup.callEach
    split
    · apply L.runs_bind (hh handler List.mem_cons_self event unit)
      rintro (failure | _)
      · apply L.runs_bind (he handler List.mem_cons_self failure event)
        rintro (failure | _)
        · exact L.runs_pure _
        · exact hrest
      · exact hrest
    · exact hrest

mutual

lemma runs_handle (event : EventMessage) (unit : UnitOfWork) (segment : Segment) :
    ∀ invoker : Invoker σ, invoker.Obeys L → L.Runs (invoker.handle event unit segment)
  | .group g, h => by
    unfold handle HandlerGroup.handle
    split
    · exact runs_callEach h.handle h.onError event unit
    · exact L.runs_pure _
  | .manager m, h => h event unit segment
  | .all invokers, h => runs_handleAll event unit segment invokers h

lemma runs_handleAll (event : EventMessage) (unit : UnitOfWork) (segment : Segment) :
    ∀ invokers : List (Invoker σ), AllObey L invokers →
      L.Runs (handleAll invokers event unit segment)
  | [], _ => L.runs_pure _
  | invoker :: rest, h => by
    have hrest := runs_handleAll event unit segment rest h.2
    unfold handleAll
    split
    · apply L.runs_bind (runs_handle event unit segment invoker h.1)
      rintro (failure | _)
      · exact L.runs_pure _
      · exact hrest
    · exact hrest

end

end Invoker

structure Pipeline.Obeys (L : ProgramLogic σ) (pipeline : Pipeline σ)
    (chain : List (Interceptor σ)) (segment : Segment) : Prop where
  start : L.Holds pipeline.transactions.start (Transaction.Obeys L)
  ingest : ∀ event, L.Holds (pipeline.monitor.ingest event) (MonitorCallback.Obeys L)
  enter : ∀ interceptor ∈ chain, interceptor.Obeys L
  handle : ∀ event unit, L.Runs (pipeline.invoker.handle event unit segment)
  weigh : ∀ failure, L.Runs (pipeline.rollback.rollsBackOn failure)
  consult : ∀ batch, L.Runs (pipeline.errorHandler.handleError batch)

structure Pipeline.Within (L : ProgramLogic σ) (pipeline : Pipeline σ) : Prop where
  start : L.Holds pipeline.transactions.start (Transaction.Obeys L)
  ingest : ∀ event, L.Holds (pipeline.monitor.ingest event) (MonitorCallback.Obeys L)
  invoker : pipeline.invoker.Obeys L
  weigh : ∀ failure, L.Runs (pipeline.rollback.rollsBackOn failure)
  consult : ∀ batch, L.Runs (pipeline.errorHandler.handleError batch)

lemma Pipeline.Within.obeys {pipeline : Pipeline σ} {chain : List (Interceptor σ)}
    (h : pipeline.Within L) (hc : ∀ interceptor ∈ chain, interceptor.Obeys L)
    (segment : Segment) : pipeline.Obeys L chain segment where
  start := h.start
  ingest := h.ingest
  enter := hc
  handle event unit := Invoker.runs_handle event unit segment _ h.invoker
  weigh := h.weigh
  consult := h.consult

section Batch

variable {pipeline : Pipeline σ} {chain : List (Interceptor σ)} {segment : Segment}
  {transaction : Transaction σ} {processed : List (MonitorCallback σ)}

lemma Interceptor.runs_chain {target : UnitOfWork → Program σ Outcome}
    (ht : ∀ unit, L.Runs (target unit)) (hc : ∀ interceptor ∈ chain, interceptor.Obeys L)
    (unit : UnitOfWork) : L.Runs (Interceptor.chain target chain unit) := by
  induction chain generalizing unit with
  | nil => exact L.runs_bind (ht unit) fun _ => L.runs_pure _
  | cons interceptor rest ih =>
    apply L.bind (hc interceptor List.mem_cons_self unit)
    intro interception hi
    cases interception with
    | stop outcome => exact L.runs_pure _
    | proceed data leave =>
      have hrest := ih (fun other ho => hc other (List.mem_cons_of_mem _ ho)) (unit.register data)
      apply L.runs_bind hrest
      rintro ⟨outcome, last⟩
      exact L.runs_bind (hi last outcome) fun _ => L.runs_pure _

namespace Pipeline.Obeys

lemma dispatchAll (h : pipeline.Obeys L chain segment) (events : List EventMessage) :
    L.Holds (pipeline.dispatchAll chain segment events)
      fun result => ∀ callback ∈ result.1, callback.Obeys L := by
  induction events with
  | nil => exact L.pure fun _ hm => by cases hm
  | cons event rest ih =>
    apply L.bind (h.ingest event)
    intro callback hcallback
    split
    · have hchain := Interceptor.runs_chain (fun unit => h.handle unit.message unit) h.enter
        { message := event }
      have hdispatch : L.Runs (pipeline.dispatch chain segment event) :=
        L.runs_bind hchain fun _ => L.runs_pure _
      apply L.bind hdispatch
      rintro (failure | _) -
      · apply L.bind (hcallback.failure failure)
        exact fun _ _ => L.pure fun _ hm => by cases hm
      · apply L.bind ih
        exact fun result hr => L.pure (List.forall_mem_cons.mpr ⟨hcallback, hr⟩)
    · exact L.bind hcallback.ignored fun _ _ => ih

lemma settle (h : pipeline.Obeys L chain segment) (ht : transaction.Obeys L)
    (hp : ∀ callback ∈ processed, callback.Obeys L) (failure : Option Failure) :
    L.Runs (pipeline.settle transaction processed failure) := by
  have hsuccess : L.Runs (Pipeline.reportSuccess processed) :=
    L.forM fun callback hm => (hp callback hm).success
  have hfailure : ∀ f, L.Runs (Pipeline.reportFailure processed f) :=
    fun f => L.forM fun callback hm => (hp callback hm).failure f
  cases failure with
  | none =>
    apply L.runs_bind ht.commit
    rintro (f | _)
    · exact L.runs_bind (hfailure f) fun _ => L.runs_pure _
    · exact L.runs_bind hsuccess fun _ => L.runs_pure _
  | some failure =>
    apply L.runs_bind (h.weigh failure)
    intro rollsBack
    cases rollsBack with
    | true =>
      apply L.runs_bind ht.rollback
      exact fun _ => L.runs_bind (hfailure failure) fun _ => L.runs_pure _
    | false =>
      apply L.runs_bind ht.commit
      rintro (f | _)
      · apply L.runs_bind (L.trace _)
        exact fun _ => L.runs_bind (hfailure f) fun _ => L.runs_pure _
      · exact L.runs_bind hsuccess fun _ => L.runs_pure _

theorem processBatch (h : pipeline.Obeys L chain segment) (events : List EventMessage) :
    L.Runs (pipeline.processBatch chain events segment) := by
  apply L.runs_bind (L.trace _)
  intro _
  apply L.bind h.start
  intro transaction ht
  apply L.bind (h.dispatchAll events)
  intro dispatched hd
  apply L.runs_bind (h.settle ht hd dispatched.2)
  rintro (_ | failure)
  · exact L.runs_pure _
  · exact L.runs_bind (L.trace _) fun _ => h.consult _

end Pipeline.Obeys

end Batch

end EventProcessing
