import EventProcessing.Proofs.Causality

namespace EventProcessing

variable {σ α β : Type}

namespace Interception

def data : Interception σ → MetaData
  | .stop _ data => data
  | .proceed data _ => data

end Interception

namespace Interceptor

structure Passage (σ : Type) where
  interceptor : Interceptor σ
  data : MetaData
  leave : UnitOfWork → Outcome → Program σ Outcome

inductive Enters (depth : ℕ) : List (Passage σ) → UnitOfWork → System σ → UnitOfWork → System σ →
    Prop
  | nil (unit : UnitOfWork) (s : System σ) : Enters depth [] unit s unit s
  | cons {passage : Passage σ} {rest : List (Passage σ)} {unit last : UnitOfWork}
      {s middle s' : System σ}
      (first : System.run depth (passage.interceptor.enter unit) s =
        some (.proceed passage.data passage.leave, middle))
      (others : Enters depth rest (unit.register passage.data) middle last s') :
      Enters depth (passage :: rest) unit s last s'

inductive Leaves (depth : ℕ) (unit : UnitOfWork) : List (Passage σ) → Outcome → System σ →
    Outcome → System σ → Prop
  | nil (outcome : Outcome) (s : System σ) : Leaves depth unit [] outcome s outcome s
  | cons {passage : Passage σ} {rest : List (Passage σ)} {result passed outcome : Outcome}
      {s middle s' : System σ}
      (first : System.run depth (passage.leave unit result) s = some (passed, middle))
      (others : Leaves depth unit rest passed middle outcome s') :
      Leaves depth unit (passage :: rest) result s outcome s'

/-- How a unit of work crosses a chain: all interceptors let it through to the target, which runs
once, or one of them ends the handling and those behind it are not entered. -/
inductive Crosses (depth : ℕ) (target : UnitOfWork → Program σ Outcome) :
    List (Interceptor σ) → UnitOfWork → System σ → Outcome → UnitOfWork → System σ → Prop
  | handled {passages : List (Passage σ)} {unit last : UnitOfWork} {s inside done s' : System σ}
      {result outcome : Outcome} (enters : Enters depth passages unit s last inside)
      (runs : System.run depth (target last) inside = some (result, done))
      (leaves : Leaves depth last passages.reverse result done outcome s') :
      Crosses depth target (passages.map Passage.interceptor) unit s outcome last s'
  | stopped {passages : List (Passage σ)} {interceptor : Interceptor σ}
      {rest : List (Interceptor σ)} {unit within : UnitOfWork} {data : MetaData}
      {s inside done s' : System σ} {result outcome : Outcome}
      (enters : Enters depth passages unit s within inside)
      (stops : System.run depth (interceptor.enter within) inside =
        some (.stop result data, done))
      (leaves : Leaves depth (within.register data) passages.reverse result done outcome s') :
      Crosses depth target (passages.map Passage.interceptor ++ interceptor :: rest) unit s outcome
        (within.register data) s'

variable {depth : ℕ} {target : UnitOfWork → Program σ Outcome} {passages : List (Passage σ)}
  {chain rest : List (Interceptor σ)} {unit last : UnitOfWork} {s s' : System σ}
  {result outcome : Outcome}

lemma Leaves.concat_iff {passage : Passage σ} :
    Leaves depth unit (passages ++ [passage]) result s outcome s' ↔
      ∃ passed middle, Leaves depth unit passages result s passed middle ∧
        System.run depth (passage.leave unit passed) middle = some (outcome, s') := by
  constructor
  · intro h
    induction passages generalizing result s with
    | nil =>
      cases h with
      | cons first others =>
        cases others
        exact ⟨result, s, .nil _ _, first⟩
    | cons head tail ih =>
      cases h with
      | cons first others =>
        obtain ⟨passed, middle, hl, hp⟩ := ih others
        exact ⟨passed, middle, .cons first hl, hp⟩
  · rintro ⟨passed, middle, hl, hp⟩
    induction hl with
    | nil => exact .cons hp (.nil _ _)
    | cons first _ ih => exact .cons first (ih hp)

lemma Enters.run_chain {inside done : System σ} {within : UnitOfWork}
    (h : Enters depth passages unit s within inside)
    (hr : System.run depth (Interceptor.chain target rest within) inside =
      some ((result, last), done))
    (hl : Leaves depth last passages.reverse result done outcome s') :
    System.run depth (Interceptor.chain target (passages.map Passage.interceptor ++ rest) unit) s =
      some ((outcome, last), s') := by
  induction h generalizing outcome s' with
  | nil =>
    cases hl
    exact hr
  | cons first _ ih =>
    rw [List.reverse_cons, Leaves.concat_iff] at hl
    obtain ⟨passed, middle, hl, hp⟩ := hl
    refine System.run_bind_eq_some.mpr ⟨_, _, first, ?_⟩
    exact System.run_bind_eq_some.mpr ⟨_, _, ih hr hl, System.run_bind_eq_some.mpr ⟨_, _, hp, rfl⟩⟩

lemma Enters.arrives {inside : System σ} (h : Enters depth passages unit s last inside) :
    Arrives depth (passages.map Passage.interceptor) unit s (passages.map Passage.data) last
      inside := by
  induction h with
  | nil => exact .target
  | cons first _ ih => exact .proceed first ih

theorem run_chain_iff :
    System.run depth (Interceptor.chain target chain unit) s = some ((outcome, last), s') ↔
      Crosses depth target chain unit s outcome last s' := by
  constructor
  · intro h
    induction chain generalizing unit s outcome s' with
    | nil =>
      obtain ⟨result, done, ht, h⟩ := System.run_bind_eq_some.mp h
      cases h
      change Crosses depth target (List.map Passage.interceptor []) _ _ _ _ _
      exact .handled (.nil _ s) ht (.nil _ _)
    | cons interceptor rest ih =>
      obtain ⟨interception, middle, he, h⟩ := System.run_bind_eq_some.mp h
      cases interception with
      | stop result data =>
        cases h
        change Crosses depth target (List.map Passage.interceptor [] ++ _) _ _ _ _ _
        exact .stopped (.nil _ s) he (.nil _ _)
      | proceed data leave =>
        obtain ⟨⟨passed, within⟩, inside, hc, h⟩ := System.run_bind_eq_some.mp h
        obtain ⟨left, done, hl, h⟩ := System.run_bind_eq_some.mp h
        cases h
        -- What was entered further inside is left before this one.
        have hout {passages : List (Passage σ)} {result : Outcome} {done : System σ}
            (hi : Leaves depth last passages.reverse result done passed inside) :
            Leaves depth last (⟨interceptor, data, leave⟩ :: passages).reverse result done outcome
              s' := by
          rw [List.reverse_cons, Leaves.concat_iff]
          exact ⟨passed, inside, hi, hl⟩
        cases ih hc with
        | handled enters runs leaves => exact .handled (.cons he enters) runs (hout leaves)
        | stopped enters stops leaves => exact .stopped (.cons he enters) stops (hout leaves)
  · intro h
    cases h with
    | handled enters runs leaves =>
      rw [← List.append_nil (List.map _ _)]
      exact enters.run_chain (System.run_bind_eq_some.mpr ⟨_, _, runs, rfl⟩) leaves
    | stopped enters stops leaves =>
      exact enters.run_chain (System.run_bind_eq_some.mpr ⟨_, _, stops, rfl⟩) leaves

/-- An interceptor registers these parts for a message, one after the other, whatever it does
then. -/
def Contributes (interceptor : Interceptor σ) (parts : EventMessage → List MetaData) : Prop :=
  ∀ unit, (interceptor.enter unit).Ends fun interception =>
    interception.data = (parts unit.message).foldl Json.Object.merge .empty

def gathered (contributions : List (EventMessage → List MetaData)) (message : EventMessage) :
    MetaData :=
  (contributions.flatMap fun parts => parts message).foldl Json.Object.merge .empty

lemma get?_gathered (contributions : List (EventMessage → List MetaData)) (message : EventMessage)
    (key : String) : (gathered contributions message).get? key =
      (contributions.flatMap fun parts => parts message).reverse.findSome? fun part =>
        part.get? key := by
  rw [gathered, Json.Object.get?_foldl_merge, Json.Object.get?_empty, Option.or_none]

lemma contributes_correlation (providers : List CorrelationProvider) (id : ℕ) :
    Contributes (Interceptor.correlation providers id : Interceptor σ)
      fun message => providers.map fun provider => provider message := by
  intro unit
  refine ProgramOver.Ends.pure ?_
  rw [Interception.data, CorrelationProvider.merged, List.foldl_map]

section Gathered

variable {contributions : List (EventMessage → List MetaData)}
  (hc : List.Forall₂ Contributes chain contributions)

include hc

lemma Arrives.correlation_of_contributes {data : List MetaData}
    (h : Arrives depth chain unit s data last s') :
    last.correlation = (contributions.flatMap fun parts => parts unit.message).foldl
      Json.Object.merge unit.correlation := by
  induction hc generalizing unit s data with
  | nil =>
    cases h
    rfl
  | @cons interceptor parts rest contributions hparts _ ih =>
    cases h with
    | @proceed _ _ _ _ _ middle _ first more leave hrun hrest =>
      have hfirst : first = (parts unit.message).foldl Json.Object.merge .empty :=
        hparts unit depth s _ _ hrun
      have hmerged : (unit.register first).correlation =
          (parts unit.message).foldl Json.Object.merge unit.correlation := by
        rw [hfirst]
        exact Json.Object.merge_foldl_merge
      rw [ih hrest, hmerged, List.flatMap_cons, List.foldl_append]
      rfl

lemma Arrives.eq_gathered {data : List MetaData} {message : EventMessage}
    (h : Arrives depth chain { message } s data last s') :
    last = ⟨message, gathered contributions message⟩ := by
  have hmessage := h.message_eq
  have hcorrelation := h.correlation_of_contributes hc
  cases last
  cases hmessage
  cases hcorrelation
  rfl

lemma run_chain_congr {target' : UnitOfWork → Program σ Outcome} {message : EventMessage}
    (ht : target ⟨message, gathered contributions message⟩ =
      target' ⟨message, gathered contributions message⟩) :
    System.run depth (Interceptor.chain target chain { message }) s =
      System.run depth (Interceptor.chain target' chain { message }) s := by
  obtain ⟨data, last, s', h⟩ | hstops := arrives_or_stops depth chain { message } s
  · obtain ⟨back, hback⟩ := h.run_chain
    rw [hback, hback, h.eq_gathered hc, ht]
  · exact hstops target target'

end Gathered

end Interceptor

/-- An invoker that is only told the event: the data is what `data` has for it. -/
def Invoker.sealed (invoker : Invoker σ) (data : EventMessage → MetaData) : Invoker σ :=
  .manager
    { self := default
      canHandle := invoker.canHandle
      handle := fun event _ segment => invoker.handle event ⟨event, data event⟩ segment
      supportsReset := invoker.supportsReset }

namespace Program

def Alike (depth : ℕ) (p q : Program σ α) : Prop :=
  ∀ s, System.run depth p s = System.run depth q s

lemma Alike.refl (depth : ℕ) (p : Program σ α) : Alike depth p p := fun _ => rfl

lemma Alike.bind {depth : ℕ} {p q : Program σ α} {f g : α → Program σ β} (h : Alike depth p q)
    (hf : ∀ a, Alike depth (f a) (g a)) : Alike depth (p >>= f) (q >>= g) := by
  intro s
  rw [System.run_bind, System.run_bind, h s]
  exact congrArg _ (funext fun r => hf r.1 r.2)

end Program

namespace Pipeline

open Interceptor Program

def sealed (pipeline : Pipeline σ) (data : EventMessage → MetaData) : Pipeline σ :=
  { pipeline with invoker := pipeline.invoker.sealed data }

variable {depth : ℕ} {chain : List (Interceptor σ)}
  {contributions : List (EventMessage → List MetaData)}
  (hc : List.Forall₂ Contributes chain contributions) (pipeline : Pipeline σ) (segment : Segment)

include hc

lemma dispatch_sealed (event : EventMessage) :
    Alike depth (pipeline.dispatch chain segment event)
      ((pipeline.sealed (gathered contributions)).dispatch chain segment event) := by
  refine .bind (fun s => run_chain_congr hc ?_) fun _ => .refl _ _
  rfl

lemma dispatchAll_sealed (events : List EventMessage) :
    Alike depth (pipeline.dispatchAll chain segment events)
      ((pipeline.sealed (gathered contributions)).dispatchAll chain segment events) := by
  induction events with
  | nil => exact .refl _ _
  | cons event rest ih =>
    refine .bind (.refl _ _) fun callback => ?_
    change Alike depth (if pipeline.invoker.canHandle event segment then _ else _)
      (if pipeline.invoker.canHandle event segment then _ else _)
    split
    · refine (dispatch_sealed hc pipeline segment event).bind fun outcome => ?_
      cases outcome with
      | ok _ => exact ih.bind fun _ => .refl _ _
      | error failure => exact .refl _ _
    · exact .bind (.refl _ _) fun _ => ih

lemma processBatch_sealed (events : List EventMessage) :
    Alike depth (pipeline.processBatch chain events segment)
      ((pipeline.sealed (gathered contributions)).processBatch chain events segment) :=
  .bind (.refl _ _) fun _ => .bind (.refl _ _) fun _ =>
    (dispatchAll_sealed hc pipeline segment events).bind fun _ => .refl _ _

end Pipeline

open Interceptor in
/-- A unit of work crosses a chain by entering interceptors in their order and leaving those it
entered in the reverse order. What arrives at the target is the message as it was sent, with the
data that the chain registers for it: a later part wins. So in a batch, what is seen for an event
comes from that event and the chain alone. -/
theorem chains_nest_and_isolate {chain : List (Interceptor σ)}
    {contributions : List (EventMessage → List MetaData)}
    (hc : List.Forall₂ Contributes chain contributions) :
    (∀ depth target unit s outcome last s',
      System.run depth (Interceptor.chain target chain unit) s = some ((outcome, last), s') ↔
        Crosses depth target chain unit s outcome last s') ∧
    (∀ depth message passages s last inside, passages.map Passage.interceptor = chain →
      Enters depth passages { message } s last inside →
        last = ⟨message, gathered contributions message⟩) ∧
    (∀ message key, (gathered contributions message).get? key =
      (contributions.flatMap fun parts => parts message).reverse.findSome? fun part =>
        part.get? key) ∧
    (∀ providers id,
      Contributes (Interceptor.correlation providers id : Interceptor σ)
        fun message => providers.map fun provider => provider message) ∧
    ∀ depth (pipeline : Pipeline σ) events segment s,
      System.run depth (pipeline.processBatch chain events segment) s =
        System.run depth
          ((pipeline.sealed (gathered contributions)).processBatch chain events segment) s := by
  refine ⟨fun _ _ _ _ _ _ _ => run_chain_iff, ?_, get?_gathered contributions,
    contributes_correlation,
    fun _ pipeline events segment => pipeline.processBatch_sealed hc segment events⟩
  rintro depth message passages s last inside rfl henters
  exact henters.arrives.eq_gathered hc

namespace Sample

open CorrelationProvider Interceptor

def wrapped (text : String) (_ : UnitOfWork) (outcome : Outcome) : Program Unit Outcome :=
  return outcome.mapError (.context text)

def tracing : Interceptor Unit where
  self := ⟨0, "tracing"⟩
  enter _ := return .proceed (.ofList [(traceKey, .string "other")]) (wrapped "outer")

def guarding : Interceptor Unit where
  self := ⟨1, "guarding"⟩
  enter unit :=
    if unit.message.identifier = "blocked" then return .stop (.error (.report "blocked"))
    else return .proceed .empty (wrapped "inner")

def guarded : List (Interceptor Unit) := [tracing, guarding, Interceptor.correlation [origin] 2]

def registering : List (EventMessage → List MetaData) :=
  [fun _ => [.ofList [(traceKey, .string "other")]], fun _ => [], fun message => [origin message]]

lemma guarded_contributes : List.Forall₂ Contributes guarded registering := by
  refine .cons (fun _ => .pure rfl) (.cons (fun unit => ?_)
    (.cons (contributes_correlation [origin] 2) .nil))
  rw [guarding]
  dsimp only
  split
  · exact .pure rfl
  · exact .pure rfl

end Sample

open Interceptor in
theorem guarded_nests_and_isolates :
    List.Forall₂ Contributes Sample.guarded Sample.registering ∧
    (∃ last s', Crosses 0 (fun _ => return .error (.report "broken")) Sample.guarded
      { message := Sample.event "first" } { shared := () }
      (.error (.context "outer" (.context "inner" (.report "broken")))) last s') ∧
    (∃ last s', Crosses 0 (fun _ => return .ok ()) Sample.guarded
      { message := Sample.event "blocked" } { shared := () }
      (.error (.context "outer" (.report "blocked"))) last s') ∧
    (gathered Sample.registering (Sample.event "first")).get? CorrelationProvider.traceKey =
      some (.string "first") ∧
    ∀ events s, System.run 1 (Sample.halfDone.processBatch Sample.guarded events .root) s =
      System.run 1 ((Sample.halfDone.sealed (gathered Sample.registering)).processBatch
        Sample.guarded events .root) s := by
  obtain ⟨hnest, -, hgathered, -, hsealed⟩ := chains_nest_and_isolate Sample.guarded_contributes
  refine ⟨Sample.guarded_contributes, ⟨_, _, (hnest _ _ _ _ _ _ _).mp rfl⟩,
    ⟨_, _, (hnest _ _ _ _ _ _ _).mp rfl⟩, ?_, fun events s => hsealed 1 _ events .root s⟩
  rw [hgathered]
  change List.findSome? _ [CorrelationProvider.origin (Sample.event "first"), _] = _
  rw [List.findSome?_cons, CorrelationProvider.trace_origin]
  rfl

end EventProcessing
