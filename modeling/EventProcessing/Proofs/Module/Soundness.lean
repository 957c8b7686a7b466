import EventProcessing.Proofs.Module.Building
import EventProcessing.Proofs.Module.SetUps

/-! What holds of a module in all its states. Its cells are those of its assembly, each built
processor has the name of its cell and a number of its own, and handlers and sagas came from their
factories. -/

namespace EventProcessing

variable {σ : Type} {depth : ℕ} {s s' : System σ} {m m' : Module σ}

namespace Registration

variable (registration : Registration σ) (m : Module σ)

lemma enter_builder_cases (name : String) (made : ProcessorBuilder σ) :
    (builder name made).enter m = m ∨
      (builder name made).enter m = { m with builders := m.builders.put name made } := by
  change (m.registerBuilder name made).toOption.getD m = m ∨
    (m.registerBuilder name made).toOption.getD m = _
  unfold Module.registerBuilder
  split
  · exact .inl rfl
  · exact .inr rfl

lemma configuration_enter : (registration.enter m).configuration = m.configuration := by
  cases registration with
  | builder name made => rcases enter_builder_cases m name made with h | h <;> rw [h]
  | _ => rfl

lemma assembly_enter : (registration.enter m).assembly = m.assembly := by
  cases registration with
  | builder name made => rcases enter_builder_cases m name made with h | h <;> rw [h]
  | _ => rfl

lemma processors_enter : (registration.enter m).processors = m.processors := by
  cases registration with
  | builder name made => rcases enter_builder_cases m name made with h | h <;> rw [h]
  | _ => rfl

lemma handlers_enter : (registration.enter m).handlers = m.handlers ∨
    ∃ name factory, registration = .handler factory ∧
      (registration.enter m).handlers = m.handlers ++ [.ofFactory name factory] := by
  cases registration with
  | handler factory => exact .inr ⟨_, factory, rfl, rfl⟩
  | builder name made =>
    rcases enter_builder_cases m name made with h | h <;> rw [h] <;> exact .inl rfl
  | _ => exact .inl rfl

lemma sagas_enter : (registration.enter m).sagas = m.sagas ∨
    ∃ name factory, registration = .saga factory ∧
      (registration.enter m).sagas = m.sagas ++ [.ofFactory name factory] := by
  cases registration with
  | saga factory => exact .inr ⟨_, factory, rfl, rfl⟩
  | builder name made =>
    rcases enter_builder_cases m name made with h | h <;> rw [h] <;> exact .inl rfl
  | _ => exact .inl rfl

end Registration

namespace Module

structure Sound (m : Module σ) (s : System σ) : Prop where
  ordered : m.Ordered
  keys : m.processors.keys = m.assembly.keys
  handlers : Given m.handlers
  sagas : Given m.sagas
  named : ∀ {name p}, m.Built name p → p.name = name
  numbered : ∀ {name p}, m.Built name p → p.self.id < s.nextId
  apart : ∀ {name other p q}, m.Built name p → m.Built other q → p.self.id = q.self.id →
    name = other
  vacant : s.Vacant

lemma Given.concat {α : Type} {parts : List (Part σ α)} (h : Given parts) (name : String)
    (factory : Factory σ α) : Given (parts ++ [.ofFactory name factory]) := by
  intro part hp value hv
  rcases List.mem_append.mp hp with hp | hp
  · exact h part hp value hv
  · cases List.mem_singleton.mp hp
    cases hv

lemma Ordered.congr (h : m.Ordered) (hp : m'.processors = m.processors)
    (hc : m'.configuration = m.configuration) (ha : m'.assembly = m.assembly) : m'.Ordered := by
  intro name cell hcell
  rw [hp] at hcell
  obtain ⟨order, ho, he⟩ := h name cell hcell
  exact ⟨order, ⟨ho.named, hc.trans ho.configuration, by rw [ha, ho.sources]⟩, he⟩

lemma built_congr (hp : m'.processors = m.processors) (name : String) (p : Processor σ) :
    m'.Built name p ↔ m.Built name p := by
  rw [Built, Built, hp]

namespace Sound

lemma init (hv : s.Vacant) : ({} : Module σ).Sound s where
  ordered := by rintro _ _ ⟨⟩
  keys := rfl
  handlers := by rintro _ ⟨⟩
  sagas := by rintro _ ⟨⟩
  named := by rintro _ _ ⟨⟩
  numbered := by rintro _ _ ⟨⟩
  apart := by rintro _ _ _ _ ⟨⟩
  vacant := hv

lemma later (h : m.Sound s) (hid : s.nextId ≤ s'.nextId) (hv : s'.Vacant) : m.Sound s' :=
  { h with numbered := fun hb => (h.numbered hb).trans_le hid, vacant := hv }

lemma passes (h : m.Sound s) (hp : s.Passes s') : m.Sound s' :=
  h.later hp.nextId (hp.vacant h.vacant)

lemma congr (h : m.Sound s) (hp : m'.processors = m.processors)
    (hc : m'.configuration = m.configuration) (ha : m'.assembly = m.assembly)
    (hh : Given m'.handlers) (hs : Given m'.sagas) : m'.Sound s where
  ordered := h.ordered.congr hp hc ha
  keys := by rw [hp, ha, h.keys]
  handlers := hh
  sagas := hs
  named hb := h.named ((built_congr hp _ _).mp hb)
  numbered hb := h.numbered ((built_congr hp _ _).mp hb)
  apart hb hb' := h.apart ((built_congr hp _ _).mp hb) ((built_congr hp _ _).mp hb')
  vacant := h.vacant

lemma enter (h : m.Sound s) (registration : Registration σ) : (registration.enter m).Sound s := by
  have hhandlers : Given (registration.enter m).handlers := by
    obtain he | ⟨name, factory, -, he⟩ := registration.handlers_enter m <;> rw [he]
    · exact h.handlers
    · exact h.handlers.concat name factory
  have hsagas : Given (registration.enter m).sagas := by
    obtain he | ⟨name, factory, -, he⟩ := registration.sagas_enter m <;> rw [he]
    · exact h.sagas
    · exact h.sagas.concat name factory
  exact h.congr (registration.processors_enter m) (registration.configuration_enter m)
    (registration.assembly_enter m) hhandlers hsagas

end Sound

lemma built_put {name other : String} {cell : ProcessorCell σ} {p q : Processor σ}
    {overrides : Overrides σ} :
    ({ m with overrides, processors := m.processors.put name { cell with built := some p } } :
        Module σ).Built other q ↔
      other = name ∧ q = p ∨ other ≠ name ∧ m.Built other q := by
  unfold Built
  by_cases ho : other = name
  · subst ho
    simp [eq_comm]
  · simp [Table.get?_put_of_ne _ _ ho, ho]

lemma Sound.builds {name : String} {order : ProcessorOrder σ} {p : Processor σ}
    {o' : Overrides σ} (h : m.Sound s) (ho : m.Orders name order)
    (hcell : m.processors.get? name = some order.cell)
    (hb : order.Builds m.interceptors depth m.overrides (order.announced s) (.ok p) o' s') :
    ({ m with
      overrides := o'
      processors := m.processors.put name { order.cell with built := some p } } :
        Module σ).Sound s' := by
  obtain ⟨chain, hreceives, hnew, hname, -⟩ := hb.made
  have hs := order.passes_announced s
  have hnext := hs.nextId.trans hreceives.nextId
  constructor
  case ordered =>
    intro other cell hother
    by_cases he : other = name
    · subst he
      rw [Table.get?_put_self] at hother
      cases hother
      exact ⟨order, ⟨ho.named, ho.configuration, ho.sources⟩, rfl⟩
    · rw [Table.get?_put_of_ne _ _ he] at hother
      obtain ⟨known, hk, he⟩ := h.ordered other cell hother
      exact ⟨known, ⟨hk.named, hk.configuration, hk.sources⟩, he⟩
  case keys => exact (Table.keys_put_of_get? hcell).trans h.keys
  case handlers => exact h.handlers
  case sagas => exact h.sagas
  case named =>
    intro other q hq
    obtain ⟨rfl, rfl⟩ | ⟨-, hq⟩ := built_put.mp hq
    · exact hname.trans ho.named
    · exact h.named hq
  case numbered =>
    intro other q hq
    obtain ⟨rfl, rfl⟩ | ⟨-, hq⟩ := built_put.mp hq
    · exact hnew.below
    · exact (h.numbered hq).trans_le hnext
  case apart =>
    intro other another q r hq hr hid
    have hafter : ∀ {name q}, m.Built name q → q.self.id ≠ p.self.id := fun hq => by
      have := h.numbered hq
      have := hs.nextId
      have := hnew.after
      omega
    obtain ⟨rfl, rfl⟩ | ⟨-, hq'⟩ := built_put.mp hq <;>
      obtain ⟨rfl, rfl⟩ | ⟨-, hr'⟩ := built_put.mp hr
    · rfl
    · exact absurd hid.symm (hafter hr')
    · exact absurd hid (hafter hq')
    · exact h.apart hq' hr' hid
  case vacant =>
    intro id hid
    have hne : id ≠ p.self.id := by
      have := hnew.below
      omega
    rw [hreceives.others id hne]
    exact hs.vacant h.vacant id (hreceives.nextId.trans hid)

lemma Sound.looksUp {name : String} {answer : Except Failure (Option (Processor σ))}
    (h : m.Sound s) (hl : m.LooksUp name depth s answer m' s') : m'.Sound s' := by
  cases hl with
  | unconfigured | unknown | known => exact h
  | @fails order _ _ _ ho hcell hb =>
    exact (h.passes (trans_of _ (order.passes_announced s) hb.passes)).congr rfl rfl rfl
      h.handlers h.sagas
  | builds ho hcell hb => exact h.builds ho hcell hb

lemma allows_sound : Allows (Sound (σ := σ)) where
  beside h hp := h.passes hp
  consult h hc := by
    obtain ⟨-, -, rfl, rfl⟩ | ⟨c, value, o', -, -, hrun, rfl⟩ := consult_cases hc
    · exact h
    · exact (h.passes (Inquiry.passes hrun)).congr rfl rfl rfl h.handlers h.sagas
  lookUp h hl := h.looksUp (looksUp_of_processor? h.ordered hl)

structure Persists (m m' : Module σ) : Prop where
  configuration : m'.configuration = m.configuration
  assembly : m'.assembly = m.assembly
  overrides : m.overrides.Settles m'.overrides

lemma Persists.refl (m : Module σ) : m.Persists m := ⟨rfl, rfl, .refl _⟩

lemma Persists.trans {m'' : Module σ} (h : m.Persists m') (h' : m'.Persists m'') :
    m.Persists m'' :=
  ⟨h'.configuration.trans h.configuration, h'.assembly.trans h.assembly,
    h.overrides.trans h'.overrides⟩

lemma persists_of_looksUp {name : String} {answer : Except Failure (Option (Processor σ))}
    (h : m.LooksUp name depth s answer m' s') : m.Persists m' := by
  cases h with
  | unconfigured | unknown | known => exact .refl m
  | fails _ _ hb | builds _ _ hb => exact ⟨rfl, rfl, hb.settles⟩

lemma persists_of_consult {α : Type} {inquiry : Inquiry σ α} {answer : Except Failure α}
    (h : consult inquiry m depth s = some ((answer, m'), s')) : m.Persists m' := by
  obtain ⟨-, -, rfl, -⟩ | ⟨c, value, o', -, -, hrun, rfl⟩ := consult_cases h
  · exact .refl _
  · exact ⟨rfl, rfl, Inquiry.settles hrun⟩

lemma allows_persists (m₀ : Module σ) : Allows fun m s => m.Sound s ∧ m₀.Persists m where
  beside h hp := ⟨h.1.passes hp, h.2⟩
  consult h hc := ⟨allows_sound.consult h.1 hc, h.2.trans (persists_of_consult hc)⟩
  lookUp h hl := ⟨allows_sound.lookUp h.1 hl,
    h.2.trans (persists_of_looksUp (looksUp_of_processor? h.1.ordered hl))⟩

lemma Sound.settled {c : Configuration σ} {handlers : List (EventHandler σ)}
    {sagas : List (Saga σ)} (overrides : Overrides σ) (hv : s.Vacant)
    (hh : List.Forall₂ Part.Gives m.handlers handlers)
    (hs : List.Forall₂ Part.Gives m.sagas sagas) :
    (m.settled c handlers sagas overrides).Sound s where
  ordered := ordered_settled m
  keys := keys_settled m
  handlers := given_holding hh
  sagas := given_holding hs
  named hb := absurd hb (not_built_settled m _ _)
  numbered hb := absurd hb (not_built_settled m _ _)
  apart hb := absurd hb (not_built_settled m _ _)
  vacant := hv

lemma Sound.change {change : Change σ} (h : m.Sound s)
    (hc : change.perform m depth s = some (((), m'), s')) : m'.Sound s' := by
  cases change with
  | register registration =>
    obtain ⟨rfl, heffect⟩ := Registration.perform_cases hc
    have henter := h.enter registration
    cases heffect with
    | none _ hp => exact henter.passes hp
    | applied _ hb h₁ hf h₂ =>
      have hpasses := trans_of _ h₁ (System.passes_of_run hf)
      have hid := (h.numbered hb).trans_le hpasses.nextId
      exact henter.later (hpasses.nextId.trans h₂.nextId)
        (h₂.vacant (hpasses.vacant h.vacant) hid)
  | setUp c =>
    obtain ⟨handlers, sagas, overrides, s₁, s₂, hh, hs, hs₁, hs₂, hrun, rfl⟩ :=
      setUp_cases h.handlers h.sagas hc
    have hpasses := trans_of _ hs₁ (trans_of _ (System.passes_of_run hrun) hs₂)
    exact .settled overrides (hpasses.vacant h.vacant) hh hs

theorem Reaches.sound {m₀ : Module σ} {s₀ : System σ} {history : List (Change σ)}
    (h : Reaches m₀ s₀ history m s) (h₀ : m₀.Sound s₀) : m.Sound s := by
  induction h with
  | init => exact h₀
  | change _ hc ih => exact ih.change hc
  | query _ hq ih => exact allows_sound.of_query ih hq
  | beside _ hp ih => exact ih.passes hp

end Module

end EventProcessing
