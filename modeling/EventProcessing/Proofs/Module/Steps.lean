import EventProcessing.Proofs.Assembly
import EventProcessing.Proofs.Inquiry
import EventProcessing.Proofs.Module.Histories

namespace EventProcessing

variable {σ τ α β : Type} {depth : ℕ} {s s' : System σ} {m m' : Module σ} {o o' : Overrides σ}

lemma StateT.bind_eq_some {x : StateT τ (Run σ) α} {f : α → StateT τ (Run σ) β} {t t' : τ}
    {value : β} :
    (x >>= f) t depth s = some ((value, t'), s') ↔
      ∃ a t₁ s₁, x t depth s = some ((a, t₁), s₁) ∧ f a t₁ depth s₁ = some ((value, t'), s') := by
  change (x t >>= fun r => f r.1 r.2) depth s = _ ↔ _
  refine Run.bind_eq_some.trans ⟨?_, ?_⟩
  · rintro ⟨⟨a, t₁⟩, s₁, hx, hf⟩
    exact ⟨a, t₁, s₁, hx, hf⟩
  · rintro ⟨a, t₁, s₁, hx, hf⟩
    exact ⟨(a, t₁), s₁, hx, hf⟩

lemma StateT.get_bind_apply (f : τ → StateT τ (Run σ) β) (t : τ) : (get >>= f) t = f t t := rfl

lemma StateT.get_bind_eq_some {f : τ → StateT τ (Run σ) β} {t t' : τ} {value : β} :
    (get >>= f) t depth s = some ((value, t'), s') ↔ f t t depth s = some ((value, t'), s') :=
  Iff.rfl

lemma StateT.lift_bind_eq_some {x : Run σ α} {f : α → StateT τ (Run σ) β} {t t' : τ} {value : β} :
    ((liftM x : StateT τ (Run σ) α) >>= f) t depth s = some ((value, t'), s') ↔
      ∃ a s₁, x depth s = some (a, s₁) ∧ f a t depth s₁ = some ((value, t'), s') := by
  change ((x >>= fun a => pure (a, t)) >>= fun r => f r.1 r.2) depth s = _ ↔ _
  rw [bind_assoc]
  simp only [pure_bind]
  exact Run.bind_eq_some

lemma StateT.trace_bind_eq_some {line : TraceLine} {f : Unit → StateT τ (Run σ) β} {t t' : τ}
    {value : β} :
    ((Traces.trace line : StateT τ (Run σ) Unit) >>= f) t depth s = some ((value, t'), s') ↔
      f () t depth (s.addTrace line) = some ((value, t'), s') :=
  Iff.rfl

lemma StateT.lift_eq_some {x : Run σ α} {t t' : τ} {value : α} :
    (liftM x : StateT τ (Run σ) α) t depth s = some ((value, t'), s') ↔
      t' = t ∧ x depth s = some (value, s') := by
  change (x >>= fun a => pure (a, t)) depth s = _ ↔ _
  refine Run.bind_eq_some.trans ⟨?_, ?_⟩
  · rintro ⟨a, s₁, hx, h⟩
    cases h
    exact ⟨rfl, hx⟩
  · rintro ⟨rfl, hx⟩
    exact ⟨value, s', hx, rfl⟩

lemma System.passes_addTrace (s : System σ) (line : TraceLine) : s.Passes (s.addTrace line) :=
  ⟨le_rfl, fun _ => rfl⟩

lemma Part.exists_tells_replace (part : Part σ α) (factory : Factory σ α) :
    ∃ lines, (part.replace factory).Tells (part.renew factory) lines := by
  unfold Part.replace Component.update
  split
  · exact ⟨_, (ProgramOver.Tells.trace _).map⟩
  · exact ⟨_, .pure _⟩

namespace OverrideTable

variable (table : OverrideTable σ α) (factory : Factory σ α)

lemma exists_tells_register (key : String) :
    ∃ lines, (table.register key factory).Tells (table.enter (some key) factory) lines := by
  unfold register enter
  dsimp only
  cases table.keyed.get? key with
  | some part =>
    obtain ⟨lines, h⟩ := part.exists_tells_replace factory
    exact ⟨_, h.map⟩
  | none => exact ⟨_, .pure _⟩

lemma exists_tells_registerDefault :
    ∃ lines, (table.registerDefault factory).Tells (table.enter none factory) lines := by
  obtain ⟨lines, h⟩ := table.default.exists_tells_replace factory
  exact ⟨_, h.map⟩

end OverrideTable

lemma Overrides.exists_tells_register (axis : Axis) (key : Option String)
    (factory : Factory σ (axis.Value σ)) (o : Overrides σ) :
    ∃ lines, (register axis key factory o).Tells (o.enter axis key factory) lines := by
  cases key with
  | none =>
    obtain ⟨lines, h⟩ := (o.table axis).exists_tells_registerDefault factory
    exact ⟨_, h.map⟩
  | some key =>
    obtain ⟨lines, h⟩ := (o.table axis).exists_tells_register factory key
    exact ⟨_, h.map⟩

namespace ProgramOver.Tells

variable {program : Program σ α} {value a : α} {lines : List TraceLine}

lemma eq_of_run (h : program.Tells value lines) (hr : System.run depth program s = some (a, s')) :
    a = value ∧ s' = { s with trace := s.trace ++ lines } := by
  rw [h] at hr
  cases hr
  exact ⟨rfl, rfl⟩

end ProgramOver.Tells

inductive Registration.Effect (m : Module σ) (depth : ℕ) (s s' : System σ) : Registration σ → Prop
  | none {registration : Registration σ}
      (hr : ∀ name factory, registration = .interceptor name factory →
        m.configuration = none ∨ ∀ p, ¬ m.Built name p)
      (hp : s.Passes s') : Effect m depth s s' registration
  | applied {name : String} {factory : InterceptorFactory σ} {c : Configuration σ}
      {p : Processor σ} {interceptor : Interceptor σ} {s₁ s₂ : System σ}
      (hc : m.configuration = some c) (hb : m.Built name p) (h₁ : s.Passes s₁)
      (hf : System.run depth (factory c) s₁ = some (interceptor, s₂))
      (h₂ : p.Receives [interceptor] s₂ s') : Effect m depth s s' (.interceptor name factory)

namespace Module

lemma changeOverrides_cases {change : Overrides σ → Program σ (Overrides σ)}
    (ht : ∃ lines, (change m.overrides).Tells o lines)
    (h : changeOverrides change m depth s = some (((), m'), s')) :
    m' = { m with overrides := o } ∧ s.Passes s' := by
  obtain ⟨lines, ht⟩ := ht
  replace h := StateT.get_bind_eq_some.mp h
  obtain ⟨changed, _, hchange, h⟩ := StateT.lift_bind_eq_some.mp h
  obtain ⟨rfl, rfl⟩ := ht.eq_of_run hchange
  cases h
  exact ⟨rfl, le_rfl, fun _ => rfl⟩

lemma registerInterceptor_cases {name : String} {factory : InterceptorFactory σ}
    (h : registerInterceptor name factory m depth s = some (((), m'), s')) :
    m' = (Registration.interceptor name factory).enter m ∧
      Registration.Effect m depth s s' (.interceptor name factory) := by
  obtain ⟨configuration, overrides, interceptors, selectors, names, handlers, sagas, builders,
    defaultBuilder, activeSagas, assembly, processors⟩ := m
  cases configuration with
  | none =>
    cases h
    exact ⟨rfl, .none (fun _ _ _ => .inl rfl) (refl _)⟩
  | some c =>
    obtain ⟨_, _, _, hmodify, h⟩ := StateT.bind_eq_some.mp h
    cases hmodify
    replace h := StateT.get_bind_eq_some.mp h
    dsimp only at h
    cases hp : (processors.get? name).bind Component.built with
    | none =>
      rw [hp] at h
      cases h
      refine ⟨rfl, .none ?_ (refl _)⟩
      rintro _ _ ⟨⟩
      exact .inr fun p hb => by cases hp.symm.trans hb
    | some p =>
      rw [hp] at h
      obtain ⟨interceptor, s₂, hmade, h⟩ :=
        StateT.lift_bind_eq_some.mp (StateT.trace_bind_eq_some.mp h)
      obtain ⟨rfl, hadd⟩ := StateT.lift_eq_some.mp h
      exact ⟨rfl, .applied rfl hp (s.passes_addTrace _) hmade
        (Processor.receives_addInterceptor hadd)⟩

end Module

theorem Registration.perform_cases {registration : Registration σ}
    (h : registration.perform m depth s = some (((), m'), s')) :
    m' = registration.enter m ∧ registration.Effect m depth s s' := by
  cases registration with
  | interceptor name factory => exact Module.registerInterceptor_cases h
  | override axis key factory =>
    obtain ⟨rfl, hp⟩ := Module.changeOverrides_cases
      (Overrides.exists_tells_register axis key factory m.overrides) h
    exact ⟨rfl, .none (by rintro _ _ ⟨⟩) hp⟩
  | sagaStore factory =>
    obtain ⟨lines, hreplace⟩ := m.overrides.sagaStore.exists_tells_replace factory
    obtain ⟨rfl, hp⟩ := Module.changeOverrides_cases ⟨_, hreplace.map⟩ h
    exact ⟨rfl, .none (by rintro _ _ ⟨⟩) hp⟩
  | _ =>
    cases h
    exact ⟨rfl, .none (by rintro _ _ ⟨⟩) (refl _)⟩

end EventProcessing
