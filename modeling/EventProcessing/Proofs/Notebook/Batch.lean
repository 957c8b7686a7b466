import EventProcessing.Proofs.Notebook.Calls

namespace EventProcessing

variable {σ : Type}

def Dispatched (pipeline : Pipeline σ) (chain : List (Interceptor σ)) (segment : Segment)
    (event : EventMessage) (outcome : Outcome) (notes : List Note) : Prop :=
  ∃ calls, notes = .entered event :: (calls ++ [.left event outcome]) ∧
    (calls = [] ∨ ∃ inner, Calls event (pipeline.invoker.takers event segment []) inner calls) ∧
    ((∀ interceptor ∈ chain, interceptor.Passes) →
      Calls event (pipeline.invoker.takers event segment []) outcome calls ∧
      (pipeline.invoker.Swallows → outcome = .ok ()))

/-- What is noted of the events of a batch, from the `n`-th ingestion up to the first event that
fails. Those in `pending` wait for the end of the transaction. -/
inductive Ingests (pipeline : Pipeline σ) (chain : List (Interceptor σ)) (segment : Segment) :
    ℕ → List EventMessage → List Note → List ℕ → Option Failure → Prop
  | done (n : ℕ) : Ingests pipeline chain segment n [] [] [] none
  | ignored {n : ℕ} {event : EventMessage} {events : List EventMessage} {notes : List Note}
      {pending : List ℕ} {failure : Option Failure}
      (hc : pipeline.invoker.canHandle event segment = false)
      (hr : Ingests pipeline chain segment (n + 1) events notes pending failure) :
      Ingests pipeline chain segment n (event :: events)
        (.ingested event :: .reported n .ignored :: notes) pending failure
  | handled {n : ℕ} {event : EventMessage} {events : List EventMessage} {inner notes : List Note}
      {pending : List ℕ} {failure : Option Failure}
      (hc : pipeline.invoker.canHandle event segment = true)
      (hd : Dispatched pipeline chain segment event (.ok ()) inner)
      (hr : Ingests pipeline chain segment (n + 1) events notes pending failure) :
      Ingests pipeline chain segment n (event :: events)
        (.ingested event :: (inner ++ notes)) (n :: pending) failure
  | failed {n : ℕ} {event : EventMessage} {events : List EventMessage} {inner : List Note}
      {failure : Failure}
      (hc : pipeline.invoker.canHandle event segment = true)
      (hd : Dispatched pipeline chain segment event (.error failure) inner) :
      Ingests pipeline chain segment n (event :: events)
        (.ingested event :: (inner ++ [.reported n (.failure failure)])) [] (some failure)

def reports (pending : List ℕ) (verdict : Verdict) : List Note :=
  pending.map (Note.reported · verdict)

/-- What is noted of the end of a transaction; the failure of the events comes first, that of the
batch second. -/
inductive Closes (pending : List ℕ) : Option Failure → Option Failure → List Note → Prop
  | committed : Closes pending none none
      (.ended (.committed (.ok ())) :: reports pending .success)
  | commitFailed (failure : Failure) : Closes pending none (some failure)
      (.ended (.committed (.error failure)) :: reports pending (.failure failure))
  | rolledBack (failure : Failure) : Closes pending (some failure) (some failure)
      (.weighed failure true :: .ended .rolledBack :: reports pending (.failure failure))
  | kept (failure : Failure) : Closes pending (some failure) (some failure)
      (.weighed failure false :: .ended (.committed (.ok ())) :: reports pending .success)
  | keptInVain (failure commitFailure : Failure) : Closes pending (some failure) (some failure)
      (.weighed failure false :: .ended (.committed (.error commitFailure)) ::
        reports pending (.failure commitFailure))

def ErrorHandler.Gives (errorHandler : ErrorHandler σ) (batch : BatchFailure)
    (verdict : Outcome) : Prop :=
  ∃ depth s s', System.run depth (errorHandler.handleError batch) s = some (verdict, s')

inductive Decides (pipeline : Pipeline σ) (events : List EventMessage) :
    Option Failure → Outcome → List Note → Prop
  | done : Decides pipeline events none (.ok ()) []
  | failed (failure : Failure) (verdict : Outcome)
      (hg : pipeline.errorHandler.Gives ⟨pipeline.name, failure, events⟩ verdict) :
      Decides pipeline events (some failure) verdict
        [.consulted ⟨pipeline.name, failure, events⟩ verdict]

inductive Processes (pipeline : Pipeline σ) (chain : List (Interceptor σ)) (segment : Segment)
    (events : List EventMessage) (outcome : Outcome) : List Note → Prop
  | mk {body closing verdict : List Note} {pending : List ℕ} {failure answer : Option Failure}
      (hi : Ingests pipeline chain segment 0 events body pending failure)
      (hc : Closes pending failure answer closing)
      (hd : Decides pipeline events answer outcome verdict) :
      Processes pipeline chain segment events outcome (.began :: (body ++ (closing ++ verdict)))

lemma ingestions_nil : ingestions [] = [] := rfl

lemma ingestions_cons (entry : Note) (notes : List Note) :
    ingestions (entry :: notes) = entry.ingestion?.toList ++ ingestions notes := by
  cases entry <;> rfl

lemma ingestions_append (xs ys : List Note) :
    ingestions (xs ++ ys) = ingestions xs ++ ingestions ys := List.filterMap_append

lemma ingestions_map_called (places : List (List ℕ)) (event : EventMessage) :
    ingestions (places.map (Note.called · event)) = [] := by
  induction places with
  | nil => rfl
  | cons place rest ih => exact ih

lemma ingestions_reports (pending : List ℕ) (verdict : Verdict) :
    ingestions (reports pending verdict) = [] := by
  induction pending with
  | nil => rfl
  | cons n rest ih => exact ih

lemma Dispatched.places {pipeline : Pipeline σ} {chain : List (Interceptor σ)}
    {segment : Segment} {event : EventMessage} {outcome : Outcome} {notes : List Note}
    (h : Dispatched pipeline chain segment event outcome notes) :
    ∃ places : List (List ℕ), notes =
      .entered event :: (places.map (Note.called · event) ++ [.left event outcome]) := by
  obtain ⟨_, rfl, rfl | ⟨_, places, rfl, -, -⟩, -⟩ := h
  · exact ⟨[], rfl⟩
  · exact ⟨places, rfl⟩

lemma Dispatched.ingestions_eq {pipeline : Pipeline σ} {chain : List (Interceptor σ)}
    {segment : Segment} {event : EventMessage} {outcome : Outcome} {notes : List Note}
    (h : Dispatched pipeline chain segment event outcome notes) : ingestions notes = [] := by
  obtain ⟨places, rfl⟩ := h.places
  change ingestions (_ ++ _) = []
  rw [ingestions_append, ingestions_map_called]
  rfl

section

variable {depth : ℕ} (hf : Faithful σ depth) (loud : Bool) (pipeline : Pipeline σ)
  (chain : List (Interceptor σ)) (segment : Segment)

def CopiesChain (depth : ℕ) (chain' : List (Interceptor (Noted σ))) : Prop :=
  ∀ (event : EventMessage) (before : List Note),
    Mirrors depth before
      (fun b a added => b = a ∧ ∃ notes, added = said loud notes ∧
        Dispatched pipeline chain segment event a notes)
      ((pipeline.copy loud).dispatch chain' segment event) (pipeline.dispatch chain segment event)

include hf in
lemma mirrors_around (event : EventMessage) (unit : UnitOfWork) (hu : unit.message = event)
    (before : List Note) :
    Mirrors depth before
      (fun b a added => b = a ∧ a.2.message = event ∧ ∃ calls, added = said loud calls ∧
        (calls = [] ∨ ∃ inner, Calls event (pipeline.invoker.takers event segment []) inner calls) ∧
        ((∀ interceptor ∈ chain, interceptor.Passes) →
          Calls event (pipeline.invoker.takers event segment []) a.1 calls ∧
            (pipeline.invoker.Swallows → a.1 = .ok ())))
      (Interceptor.chain
        (fun unit => (pipeline.copy loud).invoker.handle unit.message unit segment)
        (chain.map Interceptor.quiet) unit)
      (Interceptor.chain (fun unit => pipeline.invoker.handle unit.message unit segment)
        chain unit) := by
  have hends : (Interceptor.chain (fun unit => pipeline.invoker.handle unit.message unit segment)
      chain unit).Ends fun a => (∀ interceptor ∈ chain, interceptor.Passes) →
        pipeline.invoker.Swallows → a.1 = .ok () := by
    intro depth s a s' h hp hs
    exact Interceptor.ends_chain (fun unit => Invoker.ends_handle unit.message unit segment _ hs)
      hp unit depth s a s' h
  have ht : ∀ before unit, unit.message = event →
      MirrorsCalls depth loud before event (pipeline.invoker.takers event segment [])
        ((pipeline.copy loud).invoker.handle unit.message unit segment)
        (pipeline.invoker.handle unit.message unit segment) := by
    intro before unit hu
    rw [hu]
    exact mirrors_handle loud hf event unit segment [] pipeline.invoker before
  apply ((mirrors_chain loud hf ht chain unit hu before).ends hends).mono
  rintro b a _ ⟨⟨rfl, hm, calls, rfl, hc, hp⟩, he⟩
  exact ⟨rfl, hm, calls, rfl, hc, fun h => ⟨hp h, he h⟩⟩

include hf in
lemma copiesChain_quiet :
    CopiesChain false pipeline chain segment depth (chain.map Interceptor.quiet) := by
  intro event before
  apply (mirrors_around hf false pipeline chain segment event _ rfl before).bind
  rintro ⟨outcome, _⟩ _ _ ⟨rfl, -, calls, rfl, hc, hp⟩
  exact .pure ⟨rfl, _, rfl, calls, rfl, hc, hp⟩

include hf in
lemma copiesChain_watched :
    CopiesChain true pipeline chain segment depth
      (.gatekeeper true :: chain.map Interceptor.quiet) := by
  intro event before
  have hm : UnitOfWork.register { message := event } [] = { message := event } := rfl
  simp only [Pipeline.dispatch, Interceptor.chain, Interceptor.gatekeeper, bind_assoc, pure_bind,
    hm]
  refine .note_bind ((mirrors_around hf true pipeline chain segment event _ rfl _).bind ?_)
  rintro ⟨outcome, last⟩ _ _ ⟨rfl, rfl, calls, hs, hc, hp⟩
  obtain rfl : _ = calls := hs
  exact .note_bind (.pure ⟨rfl, _, by simp [said], _, rfl, hc, hp⟩)

end

section

variable {depth : ℕ} (loud : Bool)

lemma MonitorCallback.copy_congr {m n : ℕ} (h : loud = true → m = n)
    (callback : MonitorCallback σ) : callback.copy loud m = callback.copy loud n := by
  cases loud with
  | false => rfl
  | true => rw [h rfl]

def numbered (pending : List ℕ) (callbacks : List (MonitorCallback σ)) :
    List (MonitorCallback (Noted σ)) :=
  List.zipWith (MonitorCallback.copy loud) pending callbacks

variable (hf : Faithful σ depth)

include hf

lemma mirrors_ingest (monitor : MessageMonitor σ) (event : EventMessage) {n : ℕ}
    {before : List Note} (hn : loud = true → (ingestions before).length = n) :
    Mirrors depth before
      (fun b a added => b = a.copy loud n ∧ added = said loud [.ingested event])
      ((monitor.copy loud).ingest event) (monitor.ingest event) := by
  refine .get_bind fun state => .note_bind ?_
  apply (Mirrors.quiet hf _).map
  rintro b a _ ⟨rfl, rfl⟩
  exact ⟨MonitorCallback.copy_congr loud hn b, List.append_nil _⟩

lemma mirrors_report (n : ℕ) (verdict : Verdict) {p : Program σ Unit} {before : List Note} :
    Mirrors depth before (fun _ _ added => added = said loud [.reported n verdict])
      (do note loud (.reported n verdict); p.quiet) p := by
  refine .note_bind ((Mirrors.quiet hf _).mono ?_)
  rintro _ _ _ ⟨-, rfl⟩
  exact List.append_nil _

lemma mirrors_reportSuccess (pending : List ℕ) (callbacks : List (MonitorCallback σ))
    (hl : pending.length = callbacks.length) (before : List Note) :
    Mirrors depth before (fun _ _ added => added = said loud (reports pending .success))
      (Pipeline.reportSuccess (numbered loud pending callbacks))
      (Pipeline.reportSuccess callbacks) := by
  induction pending generalizing callbacks before with
  | nil =>
    obtain rfl := List.length_eq_zero_iff.mp hl.symm
    exact .pure (said_nil loud).symm
  | cons n pending ih =>
    cases callbacks with
    | nil => cases hl
    | cons callback callbacks =>
      apply (mirrors_report loud hf n .success (p := callback.success)).bind
      rintro _ _ _ rfl
      apply (ih callbacks (Nat.succ.inj hl) _).mono
      rintro _ _ _ rfl
      exact said_append loud _ _

lemma mirrors_reportFailure (failure : Failure) (pending : List ℕ)
    (callbacks : List (MonitorCallback σ)) (hl : pending.length = callbacks.length)
    (before : List Note) :
    Mirrors depth before (fun _ _ added => added = said loud (reports pending (.failure failure)))
      (Pipeline.reportFailure (numbered loud pending callbacks) failure)
      (Pipeline.reportFailure callbacks failure) := by
  induction pending generalizing callbacks before with
  | nil =>
    obtain rfl := List.length_eq_zero_iff.mp hl.symm
    exact .pure (said_nil loud).symm
  | cons n pending ih =>
    cases callbacks with
    | nil => cases hl
    | cons callback callbacks =>
      apply (mirrors_report loud hf n (.failure failure) (p := callback.failure failure)).bind
      rintro _ _ _ rfl
      apply (ih callbacks (Nat.succ.inj hl) _).mono
      rintro _ _ _ rfl
      exact said_append loud _ _

variable {pipeline : Pipeline σ} {chain : List (Interceptor σ)} {segment : Segment}
  {chain' : List (Interceptor (Noted σ))}

lemma mirrors_dispatchAll (hc : CopiesChain loud pipeline chain segment depth chain')
    (events : List EventMessage) (n : ℕ) (before : List Note)
    (hn : loud = true → (ingestions before).length = n) :
    Mirrors depth before
      (fun b a added => ∃ notes pending, added = said loud notes ∧
        Ingests pipeline chain segment n events notes pending a.2 ∧
        pending.length = a.1.length ∧ b = (numbered loud pending a.1, a.2))
      ((pipeline.copy loud).dispatchAll chain' segment events)
      (pipeline.dispatchAll chain segment events) := by
  induction events generalizing n before with
  | nil => exact .pure ⟨[], [], (said_nil loud).symm, .done n, rfl, rfl⟩
  | cons event rest ih =>
    have hh : (pipeline.copy loud).invoker.canHandle event segment =
        pipeline.invoker.canHandle event segment :=
      Invoker.canHandle_copy loud event segment [] pipeline.invoker
    simp only [Pipeline.dispatchAll, hh]
    apply (mirrors_ingest loud hf pipeline.monitor event hn).bind
    rintro _ callback _ ⟨rfl, rfl⟩
    split
    · next ht =>
      apply (hc event _).bind
      rintro outcome _ _ ⟨rfl, inner, rfl, hd⟩
      cases outcome with
      | ok _ =>
        refine (ih (n + 1) _ fun hl => ?_).bind ?_
        · subst hl
          simp [ingestions_append, ingestions_cons, Note.ingestion?, said, hd.ingestions_eq,
            hn rfl]
        · rintro _ ⟨processed, failure⟩ _ ⟨notes, pending, rfl, hi, hl, rfl⟩
          exact .pure ⟨_, n :: pending, by simp, .handled ht hd hi, congrArg (· + 1) hl, rfl⟩
      | error failure =>
        apply (mirrors_report loud hf n (.failure failure) (p := callback.failure failure)).bind
        rintro _ _ _ rfl
        exact .pure ⟨_, [], by simp, .failed ht hd, rfl, rfl⟩
    · next ht =>
      apply (mirrors_report loud hf n .ignored (p := callback.ignored)).bind
      rintro _ _ _ rfl
      refine (ih (n + 1) _ fun hl => ?_).mono ?_
      · subst hl
        simp [ingestions_append, ingestions_cons, ingestions_nil, Note.ingestion?, said, hn rfl]
      · rintro _ a _ ⟨notes, pending, rfl, hi, hl, rfl⟩
        exact ⟨_, pending, by simp, .ignored (by simpa using ht) hi, hl, rfl⟩

lemma mirrors_commit (transaction : Transaction σ) (before : List Note) :
    Mirrors depth before
      (fun b a added => b = a ∧ added = said loud [.ended (.committed a)])
      (transaction.copy loud).commit transaction.commit :=
  .noting hf loud transaction.commit fun outcome => .ended (.committed outcome)

lemma mirrors_rollback (transaction : Transaction σ) (before : List Note) :
    Mirrors depth before (fun _ _ added => added = said loud [.ended .rolledBack])
      (transaction.copy loud).rollback transaction.rollback := by
  rw [← bind_pure transaction.rollback]
  apply (Mirrors.quiet hf _).bind
  rintro _ _ _ ⟨-, rfl⟩
  exact Mirrors.note.mono fun _ _ _ h => h

lemma mirrors_rollsBackOn (rule : RollbackRule σ) (failure : Failure) (before : List Note) :
    Mirrors depth before
      (fun b a added => b = a ∧ added = said loud [.weighed failure a])
      ((rule.copy loud).rollsBackOn failure) (rule.rollsBackOn failure) :=
  .noting hf loud (rule.rollsBackOn failure) (.weighed failure)

lemma mirrors_handleError (errorHandler : ErrorHandler σ) (batch : BatchFailure)
    (before : List Note) :
    Mirrors depth before
      (fun b a added => b = a ∧ added = said loud [.consulted batch a])
      ((errorHandler.copy loud).handleError batch) (errorHandler.handleError batch) :=
  .noting hf loud (errorHandler.handleError batch) (.consulted batch)

lemma mirrors_trace (line : TraceLine) (before : List Note) :
    Mirrors depth before (fun _ _ added => added = [])
      (Program.trace line : Program (Noted σ) Unit) (Program.trace line) :=
  (Mirrors.quiet hf (Program.trace line)).mono fun _ _ _ h => h.2

lemma mirrors_settle (transaction : Transaction σ) {pending : List ℕ}
    {callbacks : List (MonitorCallback σ)} (hl : pending.length = callbacks.length)
    (failure : Option Failure) (before : List Note) :
    Mirrors depth before
      (fun b a added => b = a ∧ ∃ notes, added = said loud notes ∧ Closes pending failure a notes)
      ((pipeline.copy loud).settle (transaction.copy loud) (numbered loud pending callbacks)
        failure)
      (pipeline.settle transaction callbacks failure) := by
  cases failure with
  | none =>
    apply (mirrors_commit loud hf transaction before).bind
    rintro outcome _ _ ⟨rfl, rfl⟩
    cases outcome with
    | ok _ =>
      apply (mirrors_reportSuccess loud hf pending callbacks hl _).bind
      rintro _ _ _ rfl
      exact .pure ⟨rfl, _, by simp, .committed⟩
    | error failure =>
      apply (mirrors_reportFailure loud hf failure pending callbacks hl _).bind
      rintro _ _ _ rfl
      exact .pure ⟨rfl, _, by simp, .commitFailed failure⟩
  | some failure =>
    apply (mirrors_rollsBackOn loud hf pipeline.rollback failure before).bind
    rintro rollsBack _ _ ⟨rfl, rfl⟩
    cases rollsBack with
    | true =>
      apply (mirrors_rollback loud hf transaction _).bind
      rintro _ _ _ rfl
      apply (mirrors_reportFailure loud hf failure pending callbacks hl _).bind
      rintro _ _ _ rfl
      exact .pure ⟨rfl, _, by simp, .rolledBack failure⟩
    | false =>
      apply (mirrors_commit loud hf transaction _).bind
      rintro outcome _ _ ⟨rfl, rfl⟩
      cases outcome with
      | ok _ =>
        apply (mirrors_reportSuccess loud hf pending callbacks hl _).bind
        rintro _ _ _ rfl
        exact .pure ⟨rfl, _, by simp, .kept failure⟩
      | error commitFailure =>
        apply (mirrors_trace hf _ _).bind
        rintro _ _ _ rfl
        apply (mirrors_reportFailure loud hf commitFailure pending callbacks hl _).bind
        rintro _ _ _ rfl
        exact .pure ⟨rfl, _, by simp, .keptInVain failure commitFailure⟩

lemma mirrors_start (transactions : TransactionManager σ) (before : List Note) :
    Mirrors depth before
      (fun b a added => b = a.copy loud ∧ added = said loud [.began])
      (transactions.copy loud).start transactions.start := by
  refine .note_bind ((Mirrors.quiet hf _).map ?_)
  rintro b a _ ⟨rfl, rfl⟩
  exact ⟨rfl, List.append_nil _⟩

lemma mirrors_processBatch (hc : CopiesChain loud pipeline chain segment depth chain')
    (events : List EventMessage) (before : List Note)
    (hb : loud = true → ingestions before = []) :
    Mirrors depth before
      (fun b a added => b = a ∧ ∃ notes, added = said loud notes ∧
        Processes pipeline chain segment events a notes)
      ((pipeline.copy loud).processBatch chain' events segment)
      (pipeline.processBatch chain events segment) := by
  apply (mirrors_trace hf _ _).bind
  rintro _ _ _ rfl
  apply (mirrors_start loud hf pipeline.transactions _).bind
  rintro _ transaction _ ⟨rfl, rfl⟩
  refine (mirrors_dispatchAll loud hf hc events 0 _ fun hl => ?_).bind ?_
  · subst hl
    simp [ingestions_append, ingestions_cons, ingestions_nil, Note.ingestion?, said, hb rfl]
  rintro _ ⟨processed, failure⟩ _ ⟨body, pending, rfl, hi, hl, rfl⟩
  apply (mirrors_settle loud hf transaction hl failure _).bind
  rintro answer _ _ ⟨rfl, closing, rfl, hs⟩
  cases answer with
  | none => exact .pure ⟨rfl, _, by simp, .mk hi hs .done⟩
  | some failure =>
    apply (mirrors_trace hf _ _).bind
    rintro _ _ _ rfl
    have hg : (pipeline.errorHandler.handleError ⟨pipeline.name, failure, events⟩).Ends
        (pipeline.errorHandler.Gives ⟨pipeline.name, failure, events⟩) :=
      fun depth s verdict s' h => ⟨depth, s, s', h⟩
    apply ((mirrors_handleError loud hf pipeline.errorHandler _ _).ends hg).mono
    rintro verdict _ _ ⟨⟨rfl, rfl⟩, hg⟩
    exact ⟨rfl, _, by simp, .mk hi hs (.failed failure verdict hg)⟩

end

lemma faithful (depth : ℕ) : Faithful σ depth := by
  -- A subscriber at one depth delivers at the depth below, so its reaction is faithful by `ih`.
  induction depth with
  | zero =>
    intro _ _ _ _ _ _ h
    cases h
  | succ depth ih =>
    intro subscriber events s outcome s' notes h
    cases subscriber with
    | consumer c =>
      change System.run depth (c.quiet.react events) (s.quiet notes) = _
      rw [Consumer.react_quiet]
      exact run_quiet ih notes h
    | processor id pipeline =>
      have hb := mirrors_processBatch false ih
        (copiesChain_quiet ih pipeline (s.processor id).chain .root) events notes (by simp)
      obtain ⟨_, _, ⟨rfl, _, rfl, -⟩, hq⟩ := hb s outcome s' h
      change System.run depth ((pipeline.copy false).processBatch
        ((s.quiet notes).processor id).chain events .root) (s.quiet notes) = _
      rw [System.chain_quiet, hq]
      simp [said]

def Pipeline.watched (pipeline : Pipeline σ) (chain : List (Interceptor σ))
    (events : List EventMessage) (segment : Segment) : Program (Noted σ) Outcome :=
  (pipeline.copy true).processBatch (.gatekeeper true :: chain.map Interceptor.quiet) events segment

theorem watched_processBatch {pipeline : Pipeline σ} {chain : List (Interceptor σ)}
    {events : List EventMessage} {segment : Segment} {depth : ℕ} {s s' : System σ}
    {outcome : Outcome}
    (h : System.run depth (pipeline.processBatch chain events segment) s = some (outcome, s')) :
    ∃ notes, Processes pipeline chain segment events outcome notes ∧
      System.run depth (pipeline.watched chain events segment) (s.quiet []) =
        some (outcome, s'.quiet notes) := by
  have hm := mirrors_processBatch true (faithful depth)
    (copiesChain_watched (faithful depth) pipeline chain segment) events [] (fun _ => rfl)
  obtain ⟨_, added, ⟨rfl, notes, hs, hp⟩, hq⟩ := hm s outcome s' h
  obtain rfl : added = notes := hs
  exact ⟨added, hp, hq⟩

end EventProcessing
