import EventProcessing.Proofs.Accounting
import EventProcessing.Proofs.Json.Fields

namespace EventProcessing

namespace CorrelationProvider

variable (message : EventMessage)

lemma fields_origin : (origin message).fields =
    (Json.Fields.put correlationKey (.string message.identifier) []).put traceKey
      (.string ((message.metadataString? traceKey).getD message.identifier)) := by
  simp only [origin, Json.Object.ofList, Json.Fields.ofList, Json.Fields.merge_cons,
    Json.Fields.merge_nil]

lemma correlation_origin :
    (origin message).get? correlationKey = some (.string message.identifier) := by
  rw [Json.Object.get?, fields_origin, Json.Fields.get?_put_of_ne _ _ (by decide),
    Json.Fields.get?_put_self]

lemma trace_origin : (origin message).get? traceKey =
    some (.string ((message.metadataString? traceKey).getD message.identifier)) := by
  rw [Json.Object.get?, fields_origin, Json.Fields.get?_put_self]

end CorrelationProvider

namespace Interceptor

variable {σ : Type}

/-- A unit of work gets through a chain that it enters in `s`, with the data registered on the way,
and is handled as `last` in `s'`. -/
inductive Arrives (depth : ℕ) : List (Interceptor σ) → UnitOfWork → System σ → List MetaData →
    UnitOfWork → System σ → Prop
  | target {unit : UnitOfWork} {s : System σ} : Arrives depth [] unit s [] unit s
  | proceed {interceptor : Interceptor σ} {rest : List (Interceptor σ)} {unit last : UnitOfWork}
      {s middle s' : System σ} {data : MetaData} {more : List MetaData}
      {leave : UnitOfWork → Outcome → Program σ Outcome}
      (h : System.run depth (interceptor.enter unit) s = some (.proceed data leave, middle))
      (hr : Arrives depth rest (unit.register data) middle more last s') :
      Arrives depth (interceptor :: rest) unit s (data :: more) last s'

variable {depth : ℕ} {chain xs ys : List (Interceptor σ)} {unit last : UnitOfWork}
  {s s' : System σ} {data : List MetaData}

theorem Arrives.run_chain (h : Arrives depth chain unit s data last s') :
    ∃ back : Outcome → Program σ (Outcome × UnitOfWork), ∀ target,
      System.run depth (Interceptor.chain target chain unit) s =
        System.run depth (target last >>= back) s' := by
  induction h with
  | @target unit s => exact ⟨fun outcome => return (outcome, unit), fun target => rfl⟩
  | @proceed interceptor rest unit last s middle s' data more leave h _ ih =>
    obtain ⟨back, hback⟩ := ih
    let leaving := fun result : Outcome × UnitOfWork =>
      (do return (← leave result.2 result.1, result.2) : Program σ (Outcome × UnitOfWork))
    refine ⟨fun outcome => back outcome >>= leaving, fun target => ?_⟩
    have henter : System.run depth (Interceptor.chain target (interceptor :: rest) unit) s =
        System.run depth (Interceptor.chain target rest (unit.register data) >>= leaving)
          middle := by
      rw [Interceptor.chain, System.run_bind, h]
      rfl
    rw [henter, System.run_bind, hback target, ← System.run_bind, bind_assoc]

theorem arrives_or_stops (depth : ℕ) (chain : List (Interceptor σ)) (unit : UnitOfWork)
    (s : System σ) : (∃ data last s', Arrives depth chain unit s data last s') ∨
      ∀ target target', System.run depth (Interceptor.chain target chain unit) s =
        System.run depth (Interceptor.chain target' chain unit) s := by
  induction chain generalizing unit s with
  | nil => exact .inl ⟨[], unit, s, .target⟩
  | cons interceptor rest ih =>
    cases h : System.run depth (interceptor.enter unit) s with
    | none =>
      refine .inr fun target target' => ?_
      rw [Interceptor.chain, Interceptor.chain, System.run_bind, System.run_bind, h]
      rfl
    | some entered =>
      obtain ⟨interception, middle⟩ := entered
      cases interception with
      | stop outcome =>
        refine .inr fun target target' => ?_
        rw [Interceptor.chain, Interceptor.chain, System.run_bind, System.run_bind, h]
        rfl
      | proceed data leave =>
        rcases ih (unit.register data) middle with ⟨more, last, s', hr⟩ | hsame
        · exact .inl ⟨data :: more, last, s', .proceed h hr⟩
        · refine .inr fun target target' => ?_
          rw [Interceptor.chain, Interceptor.chain, System.run_bind, System.run_bind, h]
          simp only [Option.bind_some, System.run_bind, hsame target target']

namespace Arrives

lemma message_eq (h : Arrives depth chain unit s data last s') : last.message = unit.message := by
  induction h with
  | target => rfl
  | proceed _ _ ih => exact ih

lemma correlation_eq (h : Arrives depth chain unit s data last s') :
    last.correlation = data.foldl Json.Object.merge unit.correlation := by
  induction h with
  | target => rfl
  | proceed _ _ ih => exact ih

lemma split (h : Arrives depth (xs ++ ys) unit s data last s') :
    ∃ before behind middle m, data = before ++ behind ∧
      Arrives depth xs unit s before middle m ∧ Arrives depth ys middle m behind last s' := by
  induction xs generalizing unit s data with
  | nil => exact ⟨[], data, unit, s, rfl, .target, h⟩
  | cons interceptor rest ih =>
    cases h with
    | proceed h hr =>
      obtain ⟨before, behind, middle, m, rfl, hx, hy⟩ := ih hr
      exact ⟨_ :: before, behind, middle, m, rfl, .proceed h hx, hy⟩

lemma of_correlation {providers : List CorrelationProvider} {id : ℕ}
    (h : Arrives depth [Interceptor.correlation providers id] unit s data last s') :
    data = [CorrelationProvider.merged providers unit.message] := by
  cases h with
  | proceed h hr =>
    cases h
    cases hr
    rfl

lemma registered_eq {id : ℕ} (h : Arrives depth
      (xs ++ [Interceptor.correlation [CorrelationProvider.origin] id]) unit s data last s') :
    ∃ before, data = before ++ [CorrelationProvider.origin unit.message] := by
  obtain ⟨before, behind, middle, m, rfl, hx, hy⟩ := h.split
  refine ⟨before, ?_⟩
  rw [hy.of_correlation, hx.message_eq]
  exact congrArg (before ++ [·]) Json.Object.empty_merge

end Arrives

end Interceptor

/-- `effect` is `draft`, sent while `cause` is handled behind interceptors the last of which tells
of the cause. All of them registered what is in `data`, in its order. -/
def Causes (σ : Type) (cause draft : EventMessage) (data : List MetaData)
    (effect : EventMessage) : Prop :=
  ∃ (depth : ℕ) (earlier : List (Interceptor σ)) (id : ℕ) (s s' : System σ) (unit : UnitOfWork),
    Interceptor.Arrives depth
      (earlier ++ [Interceptor.correlation [CorrelationProvider.origin] id])
      { message := cause } s data unit s' ∧ effect = unit.correlated draft

namespace Causes

variable {σ : Type} {cause draft effect : EventMessage} {data : List MetaData}
  (h : Causes σ cause draft data effect)

include h

lemma effect_eq : effect = { draft with metadata := effect.metadata } := by
  obtain ⟨_, _, _, _, _, unit, -, rfl⟩ := h
  rfl

lemma get?_metadata (key : String) : effect.metadata.get? key =
    ((data.foldl Json.Object.merge .empty).get? key).or (draft.metadata.get? key) := by
  obtain ⟨_, _, _, _, _, unit, ha, rfl⟩ := h
  rw [← ha.correlation_eq]
  exact Json.Object.get?_merge

lemma get?_of_origin {key : String} {value : Json}
    (ho : (CorrelationProvider.origin cause).get? key = some value) :
    effect.metadata.get? key = some value := by
  rw [h.get?_metadata]
  obtain ⟨_, _, _, _, _, unit, ha, -⟩ := h
  obtain ⟨before, rfl⟩ := ha.registered_eq
  rw [List.foldl_append, List.foldl_cons, List.foldl_nil, Json.Object.get?_merge, ho]
  rfl

end Causes

open CorrelationProvider in
/-- Every message of a causal chain names the message before it and the trace of the first one. All
else is its own, but for what was registered while its cause was handled. -/
theorem trace_of_chain {σ : Type} {n : ℕ} {messages drafts : ℕ → EventMessage}
    {registered : ℕ → List MetaData}
    (h : ∀ k < n, Causes σ (messages k) (drafts k) (registered k) (messages (k + 1))) (k : ℕ)
    (hk : k < n) :
    (messages (k + 1)).metadata.get? correlationKey = some (.string (messages k).identifier) ∧
      (messages (k + 1)).metadata.get? traceKey = some (.string
        (((messages 0).metadataString? traceKey).getD (messages 0).identifier)) ∧
      (∀ key, (messages (k + 1)).metadata.get? key =
        (((registered k).foldl Json.Object.merge .empty).get? key).or
          ((drafts k).metadata.get? key)) ∧
      messages (k + 1) = { drafts k with metadata := (messages (k + 1)).metadata } := by
  have htrace : (messages (k + 1)).metadata.get? traceKey = some (.string
      (((messages 0).metadataString? traceKey).getD (messages 0).identifier)) := by
    induction k with
    | zero => exact (h 0 hk).get?_of_origin (trace_origin _)
    | succ k ih =>
      -- From here on the trace is a string, so it is handed on as it is.
      have hbefore := ih (by omega)
      rw [(h (k + 1) hk).get?_of_origin (trace_origin _), EventMessage.metadataString?, hbefore]
      rfl
  exact ⟨(h k hk).get?_of_origin (correlation_origin _), htrace,
    (h k hk).get?_metadata, (h k hk).effect_eq⟩

namespace Sample

open CorrelationProvider

def stamp : MetaData := .ofList [(traceKey, .string "other"), ("tenant", .string "north")]

def stamping : Interceptor Unit where
  self := ⟨0, "stamping"⟩
  enter _ := return .proceed stamp fun _ outcome => return outcome

def root : EventMessage := { event "root" with metadata := .ofList [(traceKey, .bool true)] }

def draft (k : ℕ) : EventMessage where
  identifier := "message " ++ toString k
  payloadType := "sample"
  payload := .null
  aggregateIdentifier := none
  metadata := .ofList [(correlationKey, .string "mine"), ("color", .string "red")]
  timestampMillis := 0

def attached (cause : EventMessage) : List MetaData := [stamp, merged [origin] cause]

def caused : ℕ → EventMessage
  | 0 => root
  | k + 1 => (draft k).withMetaData ((attached (caused k)).foldl Json.Object.merge .empty)

lemma caused_causes (k : ℕ) :
    Causes Unit (caused k) (draft k) (attached (caused k)) (caused (k + 1)) :=
  ⟨0, [stamping], 1, { shared := () }, { shared := () }, _,
    .proceed rfl (.proceed rfl .target), rfl⟩

end Sample

theorem caused_trace :
    (∀ k < 2, Causes Unit (Sample.caused k) (Sample.draft k)
      (Sample.attached (Sample.caused k)) (Sample.caused (k + 1))) ∧
    (Sample.caused 2).metadata.get? CorrelationProvider.correlationKey =
      some (.string "message 0") ∧
    (Sample.caused 2).metadata.get? CorrelationProvider.traceKey = some (.string "root") := by
  have hcauses : ∀ k < 2, Causes Unit (Sample.caused k) (Sample.draft k)
      (Sample.attached (Sample.caused k)) (Sample.caused (k + 1)) :=
    fun k _ => Sample.caused_causes k
  obtain ⟨hcorrelation, htrace, -, -⟩ := trace_of_chain hcauses 1 Nat.one_lt_two
  exact ⟨hcauses, hcorrelation, htrace⟩

end EventProcessing
