import EventProcessing.Proofs.ProgramLogic

namespace EventProcessing

variable {σ α β : Type}

def ProgramOver.Returns (depth : ℕ) (program : Program σ α) (P : α → Prop) : Prop :=
  ∀ s, ∃ value s', System.run depth program s = some (value, s') ∧ P value

namespace ProgramOver.Returns

variable {depth : ℕ} {program : Program σ α} {P : α → Prop} {Q : β → Prop}

lemma pure {value : α} (h : P value) : (Pure.pure value : Program σ α).Returns depth P :=
  fun s => ⟨value, s, rfl, h⟩

lemma bind {next : α → Program σ β} (hp : program.Returns depth P)
    (hn : ∀ a, P a → (next a).Returns depth Q) : (program >>= next).Returns depth Q := by
  intro s
  obtain ⟨a, middle, ha, hpa⟩ := hp s
  obtain ⟨value, s', hv, hq⟩ := hn a hpa middle
  exact ⟨value, s', System.run_bind_eq_some.mpr ⟨a, middle, ha, hv⟩, hq⟩

lemma mono {P' : α → Prop} (hp : program.Returns depth P) (h : ∀ a, P a → P' a) :
    program.Returns depth P' := by
  intro s
  obtain ⟨value, s', hv, hp⟩ := hp s
  exact ⟨value, s', hv, h value hp⟩

end ProgramOver.Returns

def ProgramLogic.returns (σ : Type) (depth : ℕ) : ProgramLogic σ where
  Holds program P := program.Returns depth P
  pure := .pure
  bind := .bind
  trace line s := ⟨(), s.addTrace line, rfl, trivial⟩

structure MonitorCallback.Responsive (callback : MonitorCallback σ) (depth : ℕ) : Prop where
  success : callback.success.Returns depth fun _ => True
  failure : ∀ failure, (callback.failure failure).Returns depth fun _ => True
  ignored : callback.ignored.Returns depth fun _ => True

def Interception.Responsive (depth : ℕ) : Interception σ → Prop
  | .stop .. => True
  | .proceed _ leave => ∀ unit outcome, (leave unit outcome).Returns depth fun _ => True

def Interceptor.Responsive (interceptor : Interceptor σ) (depth : ℕ) : Prop :=
  ∀ unit, (interceptor.enter unit).Returns depth (Interception.Responsive depth)

structure Transaction.Responsive (transaction : Transaction σ) (depth : ℕ) : Prop where
  commit : transaction.commit.Returns depth fun _ => True
  rollback : transaction.rollback.Returns depth fun _ => True

/-- Whatever is asked of the collaborators of a batch in a segment, they come back to it. Only
publishes that nest too deep keep one from that. -/
structure Pipeline.Responsive (pipeline : Pipeline σ) (chain : List (Interceptor σ))
    (segment : Segment) (depth : ℕ) : Prop where
  start : pipeline.transactions.start.Returns depth (Transaction.Responsive · depth)
  ingest : ∀ event, (pipeline.monitor.ingest event).Returns depth
    (MonitorCallback.Responsive · depth)
  enter : ∀ interceptor ∈ chain, interceptor.Responsive depth
  handle : ∀ event unit, (pipeline.invoker.handle event unit segment).Returns depth fun _ => True
  weigh : ∀ failure, (pipeline.rollback.rollsBackOn failure).Returns depth fun _ => True
  consult : ∀ batch, (pipeline.errorHandler.handleError batch).Returns depth fun _ => True

section Batch

variable {pipeline : Pipeline σ} {chain : List (Interceptor σ)} {segment : Segment} {depth : ℕ}

lemma Pipeline.Responsive.obeys (h : pipeline.Responsive chain segment depth) :
    pipeline.Obeys (.returns σ depth) chain segment where
  start := h.start.mono fun _ ht => ⟨ht.commit, ht.rollback⟩
  ingest event := (h.ingest event).mono fun _ hc => ⟨hc.success, hc.failure, hc.ignored⟩
  enter interceptor hi unit := by
    refine (h.enter interceptor hi unit).mono fun interception hr => ?_
    cases interception with
    | stop outcome => trivial
    | proceed data leave => exact hr
  handle := h.handle
  weigh := h.weigh
  consult := h.consult

lemma returns_processBatch (h : pipeline.Responsive chain segment depth)
    (events : List EventMessage) :
    (pipeline.processBatch chain events segment).Returns depth fun _ => True :=
  h.obeys.processBatch events

end Batch

end EventProcessing
