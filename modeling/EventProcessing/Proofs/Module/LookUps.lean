import EventProcessing.Proofs.Module.Steps

namespace EventProcessing

variable {σ α : Type} {depth : ℕ} {s s' : System σ} {m m' : Module σ} {o o' : Overrides σ}

lemma Processor.receives_addInterceptors {τ : Type} {p : Processor σ}
    {interceptors : List (Interceptor σ)} {t t' : τ} {value : PUnit}
    (h : (interceptors.forM fun interceptor =>
      (liftM (p.addInterceptor interceptor) : StateT τ (Run σ) PUnit)) t depth s =
        some ((value, t'), s')) : t' = t ∧ p.Receives interceptors s s' := by
  induction interceptors generalizing s with
  | nil =>
    cases h
    exact ⟨rfl, .of_passes (refl _)⟩
  | cons interceptor rest ih =>
    obtain ⟨_, middle, hfirst, h⟩ := StateT.lift_bind_eq_some.mp h
    obtain ⟨rfl, hrest⟩ := ih h
    exact ⟨rfl, (Processor.receives_addInterceptor hfirst).trans hrest⟩

namespace ProcessorOrder

def announced (order : ProcessorOrder σ) (s : System σ) : System σ :=
  s.addTrace (.event .debug "building component" [("component", order.cell.name)])

lemma passes_announced (order : ProcessorOrder σ) (s : System σ) : s.Passes (order.announced s) :=
  s.passes_addTrace _

inductive Builds (order : ProcessorOrder σ) (registry : InterceptorRegistry σ) (depth : ℕ)
    (o : Overrides σ) (s : System σ) :
    Except Failure (Processor σ) → Overrides σ → System σ → Prop
  | fails {failure : Failure} {o' : Overrides σ} {s' : System σ}
      (h : System.run depth (order.inquiry.run order.configuration o) s =
        some ((.error failure, o'), s')) : Builds order registry depth o s (.error failure) o' s'
  | succeeds {p : Processor σ} {chain : List (Interceptor σ)} {o' : Overrides σ}
      {s₁ s₂ s' : System σ}
      (h : System.run depth (order.inquiry.run order.configuration o) s = some ((.ok p, o'), s₁))
      (hc : System.run depth (registry.buildChain order.configuration order.name) s₁ =
        some (chain, s₂))
      (hr : p.Receives chain s₂ s') : Builds order registry depth o s (.ok p) o' s'

variable {order : ProcessorOrder σ} {registry : InterceptorRegistry σ}
  {result : Except Failure (Processor σ)}

lemma builds_of_build (h : order.build registry o depth s = some ((result, o'), s')) :
    order.Builds registry depth o s result o' s' := by
  obtain ⟨made, o₁, s₁, hmade, h⟩ := StateT.bind_eq_some.mp h
  cases made with
  | error failure =>
    cases h
    exact .fails hmade
  | ok p =>
    obtain ⟨chain, s₂, hchain, h⟩ := StateT.lift_bind_eq_some.mp h
    obtain ⟨_, o₂, s₃, hadd, hdone⟩ := StateT.bind_eq_some.mp h
    obtain ⟨rfl, hreceives⟩ := Processor.receives_addInterceptors hadd
    cases StateT.trace_bind_eq_some.mp hdone
    refine .succeeds hmade hchain ?_
    exact (List.append_nil chain) ▸ hreceives.trans (.of_passes (s₃.passes_addTrace _))

end ProcessorOrder

namespace Module

structure Orders (m : Module σ) (name : String) (order : ProcessorOrder σ) : Prop where
  named : order.name = name
  configuration : m.configuration = some order.configuration
  sources : m.assembly.get? name = some order.sources

def Ordered (m : Module σ) : Prop :=
  ∀ name cell, m.processors.get? name = some cell →
    ∃ order, m.Orders name order ∧ cell = { order.cell with built := cell.built }

inductive LooksUp (name : String) (depth : ℕ) (m : Module σ) (s : System σ) :
    Except Failure (Option (Processor σ)) → Module σ → System σ → Prop
  | unconfigured (hc : m.configuration = none) : LooksUp name depth m s (.error .notInitialized) m s
  | unknown (h : m.processors.get? name = none) : LooksUp name depth m s (.ok none) m s
  | known {p : Processor σ} (h : m.Built name p) : LooksUp name depth m s (.ok (some p)) m s
  | fails {order : ProcessorOrder σ} {failure : Failure} {o' : Overrides σ} {s' : System σ}
      (ho : m.Orders name order) (hcell : m.processors.get? name = some order.cell)
      (hb : order.Builds m.interceptors depth m.overrides (order.announced s) (.error failure)
        o' s') :
      LooksUp name depth m s (.error (.processorBuild name failure)) { m with overrides := o' } s'
  | builds {order : ProcessorOrder σ} {p : Processor σ} {o' : Overrides σ} {s' : System σ}
      (ho : m.Orders name order) (hcell : m.processors.get? name = some order.cell)
      (hb : order.Builds m.interceptors depth m.overrides (order.announced s) (.ok p) o' s') :
      LooksUp name depth m s (.ok (some p))
        { m with
          overrides := o'
          processors := m.processors.put name { order.cell with built := some p } } s'

variable {name : String} {answer : Except Failure (Option (Processor σ))}
  {found : Except Failure (Processor σ)} {order : ProcessorOrder σ}

lemma looksUp_of_order (ho : m.Orders name order)
    (hcell : m.processors.get? name = some order.cell)
    (h : obtain name order.cell m depth s = some ((found, m'), s')) :
    m.LooksUp name depth s (found.map some) m' s' ∧
      ∃ result, order.Builds m.interceptors depth m.overrides (order.announced s) result
        m'.overrides s' := by
  obtain ⟨⟨⟨result, cell⟩, o'⟩, s₁, hget, h⟩ := Run.bind_eq_some.mp h
  obtain ⟨made, o₁, s₂, hmade, hget⟩ := StateT.bind_eq_some.mp (StateT.trace_bind_eq_some.mp hget)
  have hbuilds := ProcessorOrder.builds_of_build hmade
  cases made with
  | error failure =>
    cases hget
    cases h
    have hput : m.processors.put name order.cell = m.processors := Table.put_of_get? hcell
    refine ⟨?_, _, hbuilds⟩
    rw [hput]
    exact .fails ho hcell hbuilds
  | ok p =>
    cases hget
    cases h
    exact ⟨.builds ho hcell hbuilds, _, hbuilds⟩

lemma built_of_cell {cell : ProcessorCell σ} {p : Processor σ}
    (hcell : m.processors.get? name = some cell) (hb : cell.built = some p) : m.Built name p := by
  rw [Built, hcell, Option.bind_some, hb]

lemma processor?_of_built {c : Configuration σ} {p : Processor σ} (hc : m.configuration = some c)
    (hp : m.Built name p) : processor? name m depth s = some ((.ok (some p), m), s) := by
  obtain ⟨⟨label, factory, built⟩, hcell, hbuilt⟩ := Option.bind_eq_some_iff.mp hp
  obtain rfl : built = some p := hbuilt
  have hconfigured : m.configured = .ok c := by rw [configured, hc]
  have hobtain : obtain name ⟨label, factory, some p⟩ m depth s = some ((.ok p, m), s) := by
    refine Run.bind_eq_some.mpr ⟨((.ok p, ⟨label, factory, some p⟩), m.overrides), s, rfl, ?_⟩
    dsimp only
    rw [Table.put_of_get? hcell]
    rfl
  refine StateT.bind_eq_some.mpr ⟨m, m, s, rfl, ?_⟩
  rw [hconfigured, hcell]
  exact StateT.bind_eq_some.mpr ⟨_, _, _, hobtain, rfl⟩

lemma obtain_of_processor? {c : Configuration σ} {cell : ProcessorCell σ}
    (hc : m.configuration = some c) (hcell : m.processors.get? name = some cell)
    (h : processor? name m depth s = some ((answer, m'), s')) :
    ∃ found, obtain name cell m depth s = some ((found, m'), s') ∧ answer = found.map some := by
  have hconfigured : m.configured = .ok c := by rw [configured, hc]
  replace h := StateT.get_bind_eq_some.mp h
  rw [hconfigured, hcell] at h
  obtain ⟨found, m₁, s₁, hfound, h⟩ := StateT.bind_eq_some.mp h
  cases found <;> cases h <;> exact ⟨_, hfound, rfl⟩

theorem looksUp_of_processor? (ho : m.Ordered)
    (h : processor? name m depth s = some ((answer, m'), s')) :
    m.LooksUp name depth s answer m' s' := by
  cases hc : m.configuration with
  | none =>
    have hconfigured : m.configured = .error .notInitialized := by rw [configured, hc]
    replace h := StateT.get_bind_eq_some.mp h
    rw [hconfigured] at h
    cases h
    exact .unconfigured hc
  | some c =>
    cases hcell : m.processors.get? name with
    | none =>
      have hconfigured : m.configured = .ok c := by rw [configured, hc]
      replace h := StateT.get_bind_eq_some.mp h
      rw [hconfigured, hcell] at h
      cases h
      exact .unknown hcell
    | some cell =>
      cases hb : cell.built with
      | some p =>
        have hbuilt := built_of_cell hcell hb
        rw [processor?_of_built hc hbuilt] at h
        cases h
        exact .known hbuilt
      | none =>
        obtain ⟨order, horder, he⟩ := ho name cell hcell
        rw [hb] at he
        subst he
        obtain ⟨found, hfound, rfl⟩ := obtain_of_processor? hc hcell h
        exact (looksUp_of_order horder hcell hfound).1

lemma builds_of_processor? (ho : m.Orders name order)
    (hcell : m.processors.get? name = some order.cell)
    (h : processor? name m depth s = some ((answer, m'), s')) :
    m.LooksUp name depth s answer m' s' ∧
      ∃ result, order.Builds m.interceptors depth m.overrides (order.announced s) result
        m'.overrides s' := by
  obtain ⟨found, hfound, rfl⟩ := obtain_of_processor? ho.configuration hcell h
  exact looksUp_of_order ho hcell hfound

lemma consult_cases {inquiry : Inquiry σ α} {answer : Except Failure α}
    (h : consult inquiry m depth s = some ((answer, m'), s')) :
    m.configuration = none ∧ answer = .error .notInitialized ∧ m' = m ∧ s' = s ∨
      ∃ c value o', m.configuration = some c ∧ answer = .ok value ∧
        System.run depth (inquiry.run c m.overrides) s = some ((value, o'), s') ∧
          m' = { m with overrides := o' } := by
  replace h := StateT.get_bind_eq_some.mp h
  obtain hc | ⟨c, hc⟩ : m.configuration = none ∨ ∃ c, m.configuration = some c :=
    Option.eq_none_or_eq_some _
  · have hconfigured : m.configured = .error .notInitialized := by rw [configured, hc]
    rw [hconfigured] at h
    cases h
    exact .inl ⟨hc, rfl, rfl, rfl⟩
  · have hconfigured : m.configured = .ok c := by rw [configured, hc]
    rw [hconfigured] at h
    obtain ⟨⟨value, o'⟩, s₁, hvalue, h⟩ := StateT.lift_bind_eq_some.mp h
    cases h
    exact .inr ⟨c, value, o', hc, rfl, hvalue, rfl⟩

lemma consult_of_run {inquiry : Inquiry σ α} {c : Configuration σ} {value : α}
    (hc : m.configuration = some c)
    (h : System.run depth (inquiry.run c m.overrides) s = some ((value, o'), s')) :
    consult inquiry m depth s = some ((.ok value, { m with overrides := o' }), s') := by
  have hconfigured : m.configured = .ok c := by rw [configured, hc]
  refine StateT.bind_eq_some.mpr ⟨m, m, s, rfl, ?_⟩
  rw [hconfigured]
  exact StateT.lift_bind_eq_some.mpr ⟨(value, o'), s', h, rfl⟩

/-- What a relation between a module and its system has to allow for to be kept by the queries that
start and stop nothing. -/
structure Answers (Q : Module σ → System σ → Prop) : Prop where
  consult : ∀ {m s} {α : Type} {inquiry : Inquiry σ α} {depth answer m' s'}, Q m s →
    consult inquiry m depth s = some ((answer, m'), s') → Q m' s'
  lookUp : ∀ {m s name depth answer m' s'}, Q m s →
    processor? name m depth s = some ((answer, m'), s') → Q m' s'

namespace Answers

variable {Q : Module σ → System σ → Prop} (hQ : Answers Q)

include hQ

lemma of_processorOfGroup? {group : String} {answer : Except Failure (Option (Processor σ))}
    (hm : Q m s) (h : processorOfGroup? group m depth s = some ((answer, m'), s')) : Q m' s' := by
  replace h := StateT.get_bind_eq_some.mp h
  cases hn : m.processorNameOf group <;> rw [hn] at h
  case error failure =>
    cases h
    exact hm
  case ok name => exact hQ.lookUp hm h

lemma of_obtainAll {names : List String}
    {answer : Except Failure (List (String × Processor σ))} (hm : Q m s)
    (h : obtainAll names m depth s = some ((answer, m'), s')) : Q m' s' := by
  induction names generalizing m s m' s' answer with
  | nil =>
    cases h
    exact hm
  | cons name rest ih =>
    obtain ⟨found, m₁, s₁, hfound, h⟩ := StateT.bind_eq_some.mp h
    have hm₁ : Q m₁ s₁ := hQ.lookUp hm hfound
    rcases found with failure | (_ | p)
    · cases h
      exact hm₁
    · exact ih hm₁ h
    · obtain ⟨others, m₂, s₂, hothers, h⟩ := StateT.bind_eq_some.mp h
      have hm₂ : Q m₂ s₂ := ih hm₁ hothers
      cases others <;> cases h <;> exact hm₂

lemma of_interceptorsOf {name : String} {answer : Except Failure (List (Interceptor σ))}
    (hm : Q m s) (h : interceptorsOf name m depth s = some ((answer, m'), s')) : Q m' s' := by
  obtain ⟨found, m₁, s₁, hfound, h⟩ := StateT.bind_eq_some.mp h
  have hm₁ : Q m₁ s₁ := hQ.lookUp hm hfound
  rcases found with failure | (_ | p) <;> cases h <;> exact hm₁

theorem of_query {query : Query σ} (hm : Q m s)
    (hstart : ∀ outcome, query = .start → start m depth s = some ((outcome, m'), s') → Q m' s')
    (hdown : ∀ outcome, query = .shutDown → shutDown m depth s = some ((outcome, m'), s') →
      Q m' s')
    (h : query.perform m depth s = some (((), m'), s')) : Q m' s' := by
  cases query <;> obtain ⟨answer, m₁, s₁, hq, h⟩ := StateT.bind_eq_some.mp h <;> cases h
  case consult inquiry => exact hQ.consult hm hq
  case processor name => exact hQ.lookUp hm hq
  case processorOfGroup group => exact hQ.of_processorOfGroup? hm hq
  case interceptorsOf name => exact hQ.of_interceptorsOf hm hq
  case start => exact hstart answer rfl hq
  case shutDown => exact hdown answer rfl hq
  case allProcessors =>
    replace hq := StateT.get_bind_eq_some.mp hq
    cases hn : m.processorNames <;> rw [hn] at hq
    case error failure =>
      cases hq
      exact hm
    case ok names => exact hQ.of_obtainAll hm hq

end Answers

structure Allows (Q : Module σ → System σ → Prop) : Prop extends Answers Q where
  beside : ∀ {m s s'}, Q m s → s.Passes s' → Q m s'

namespace Allows

variable {Q : Module σ → System σ → Prop} (hQ : Allows Q)

include hQ

lemma of_startAll {names : List String} {outcome : Outcome} (hm : Q m s)
    (h : startAll names m depth s = some ((outcome, m'), s')) : Q m' s' := by
  induction names generalizing m s with
  | nil =>
    cases h
    exact hm
  | cons name rest ih =>
    obtain ⟨found, m₁, s₁, hfound, h⟩ := StateT.bind_eq_some.mp h
    have hm₁ : Q m₁ s₁ := hQ.lookUp hm hfound
    rcases found with failure | (_ | p)
    · cases h
      exact hm₁
    · exact ih hm₁ h
    · obtain ⟨started, s₂, hstart, h⟩ := StateT.lift_bind_eq_some.mp h
      have hm₂ : Q m₁ s₂ := hQ.beside hm₁ (p.passes_start _ _ _ _ hstart)
      cases started with
      | error failure =>
        dsimp only at h
        split at h <;> cases h <;> exact hm₂
      | ok _ =>
        exact ih (hQ.beside hm₂ (s₂.passes_addTrace _)) (StateT.trace_bind_eq_some.mp h)

omit hQ in
lemma passes_shutDownEach (processors : List (String × Processor σ)) :
    (shutDownEach processors).Keeps System.Passes := by
  induction processors with
  | nil => exact .pure _
  | cons entry rest ih =>
    refine .bind entry.2.passes_shutDown fun outcome => ?_
    cases outcome with
    | ok _ => exact .bind (passes_trace _) fun _ => ih
    | error failure => exact .bind (passes_trace _) fun _ => .bind ih fun _ => .pure _

lemma of_shutDown {outcome : Outcome} (hm : Q m s)
    (h : shutDown m depth s = some ((outcome, m'), s')) : Q m' s' := by
  replace h := StateT.get_bind_eq_some.mp h
  obtain ⟨rfl, hdown⟩ := StateT.lift_eq_some.mp h
  exact hQ.beside hm (passes_shutDownEach _ _ _ _ _ hdown)

lemma of_start {outcome : Outcome} (hm : Q m s)
    (h : start m depth s = some ((outcome, m'), s')) : Q m' s' := by
  replace h := StateT.get_bind_eq_some.mp h
  cases hn : m.processorNames <;> rw [hn] at h
  case error failure =>
    cases h
    exact hm
  case ok names => exact hQ.of_startAll hm h

theorem of_query {query : Query σ} (hm : Q m s)
    (h : query.perform m depth s = some (((), m'), s')) : Q m' s' :=
  hQ.toAnswers.of_query hm (fun _ _ => hQ.of_start hm) (fun _ _ => hQ.of_shutDown hm) h

end Allows

end Module

end EventProcessing
