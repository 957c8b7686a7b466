import EventProcessing.Proofs.Overrides

namespace EventProcessing

variable {σ α β : Type} {depth : ℕ} {s s' : System σ} {c : Configuration σ} {o o' : Overrides σ}

lemma Resolving.lift_bind_apply (p : Program σ α) (f : α → Resolving σ β) (o : Overrides σ) :
    ((liftM p : Resolving σ α) >>= f) o = p >>= fun value => f value o := by
  change (p >>= fun value => Pure.pure (value, o)) >>= (fun r => f r.1 r.2) = _
  rw [bind_assoc]
  exact congrArg (p >>= ·) (funext fun value => pure_bind _ _)

namespace Inquiry

theorem run_bind (inquiry : Inquiry σ α) (f : α → Inquiry σ β) :
    (inquiry >>= f).run c = inquiry.run c >>= fun value => (f value).run c := by
  induction inquiry with
  | done value => exact (pure_bind _ _).symm
  | ask request next ih =>
    exact (congrArg _ (funext ih)).trans (bind_assoc _ _ _).symm
  | subscribe bus consumer next ih =>
    exact (congrArg _ (funext ih)).trans (bind_assoc _ _ _).symm
  | override axis key next ih =>
    exact (congrArg _ (funext ih)).trans (bind_assoc _ _ _).symm
  | sagaStore next ih =>
    exact (congrArg _ (funext ih)).trans (bind_assoc _ _ _).symm
  | monitor componentType name next ih =>
    exact (congrArg _ (funext ih)).trans (bind_assoc _ _ _).symm

lemma run_bind_eq_some {inquiry : Inquiry σ α} {f : α → Inquiry σ β} {value : β} :
    System.run depth ((inquiry >>= f).run c o) s = some ((value, o'), s') ↔
      ∃ a o₁ s₁, System.run depth (inquiry.run c o) s = some ((a, o₁), s₁) ∧
        System.run depth ((f a).run c o₁) s₁ = some ((value, o'), s') := by
  rw [run_bind]
  refine System.run_bind_eq_some.trans ⟨?_, ?_⟩
  · rintro ⟨⟨a, o₁⟩, s₁, hi, hf⟩
    exact ⟨a, o₁, s₁, hi, hf⟩
  · rintro ⟨a, o₁, s₁, hi, hf⟩
    exact ⟨(a, o₁), s₁, hi, hf⟩

lemma run_pure_eq_some {a value : α} :
    System.run depth ((pure a : Inquiry σ α).run c o) s = some ((value, o'), s') ↔
      a = value ∧ o = o' ∧ s = s' := by
  change some ((a, o), s) = some ((value, o'), s') ↔ _
  simp [and_assoc]

lemma run_ofProgram (program : Program σ α) :
    (ofProgram program).run c o = program >>= fun value => pure (value, o) := by
  induction program with
  | done value => rfl
  | ask request next ih =>
    rw [ofProgram, run, Resolving.lift_bind_apply]
    exact congrArg (ProgramOver.ask request) (funext ih)
  | subscribe bus consumer next ih =>
    rw [ofProgram, run, Resolving.lift_bind_apply]
    cases consumer with
    | mk react => exact congrArg (ProgramOver.subscribe bus (.mk react)) (funext ih)

lemma run_lift_eq_some {program : Program σ α} {value : α} :
    System.run depth ((ofProgram program).run c o) s = some ((value, o'), s') ↔
      o' = o ∧ System.run depth program s = some (value, s') := by
  rw [run_ofProgram]
  refine System.run_bind_eq_some.trans ⟨?_, ?_⟩
  · rintro ⟨a, s₁, hp, h⟩
    cases h
    exact ⟨rfl, hp⟩
  · rintro ⟨rfl, hp⟩
    exact ⟨value, s', hp, rfl⟩

inductive Step (c : Configuration σ) (depth : ℕ) :
    Inquiry σ α → Overrides σ → System σ → Inquiry σ α → Overrides σ → System σ → Prop
  | ask {request next o s reply s'}
      (h : System.run depth (Program.send request) s = some (reply, s')) :
      Step c depth (.ask request next) o s (next reply) o s'
  | subscribe {bus consumer next o s id s'}
      (h : System.run depth (Program.subscribe bus consumer.react) s = some (id, s')) :
      Step c depth (.subscribe bus consumer next) o s (next id) o s'
  | override {axis key next o s value o' s'}
      (h : System.run depth (Overrides.resolve axis key c o) s = some ((value, o'), s')) :
      Step c depth (.override axis key next) o s (next value) o' s'
  | sagaStore {next o s store o' s'}
      (h : System.run depth (Overrides.sharedSagaStore c o) s = some ((store, o'), s')) :
      Step c depth (.sagaStore next) o s (next store) o' s'
  | monitor {componentType name next o s monitor o' s'}
      (h : System.run depth (Overrides.messageMonitor c componentType name o) s =
        some ((monitor, o'), s')) :
      Step c depth (.monitor componentType name next) o s (next monitor) o' s'

/-- In the course of the inquiry, this value is the answer for a key of an axis. -/
inductive Hears (c : Configuration σ) (depth : ℕ) (axis : Axis) (key : String)
    (value : axis.Value σ) : Inquiry σ α → Overrides σ → System σ → Prop
  | now {next o s o' s'}
      (h : System.run depth (Overrides.resolve axis key c o) s = some ((value, o'), s')) :
      Hears c depth axis key value (.override axis key next) o s
  | later {inquiry rest o s o' s'} (step : Step c depth inquiry o s rest o' s')
      (h : Hears c depth axis key value rest o' s') : Hears c depth axis key value inquiry o s

lemma Step.run_eq {inquiry rest : Inquiry σ α} (h : Step c depth inquiry o s rest o' s') :
    System.run depth (inquiry.run c o) s = System.run depth (rest.run c o') s' := by
  cases h with
  | ask h =>
    rw [run, Resolving.lift_bind_apply]
    exact System.run_bind_of h
  | subscribe h =>
    rw [run, Resolving.lift_bind_apply]
    exact System.run_bind_of h
  | override h | sagaStore h | monitor h => exact System.run_bind_of h

theorem settles {inquiry : Inquiry σ α} {value : α}
    (h : System.run depth (inquiry.run c o) s = some ((value, o'), s')) : o.Settles o' := by
  induction inquiry generalizing o s with
  | done a =>
    cases h
    exact .refl _
  | ask request next ih | subscribe bus consumer next ih =>
    rw [run, Resolving.lift_bind_apply] at h
    obtain ⟨reply, s₁, -, h⟩ := System.run_bind_eq_some.mp h
    exact ih reply h
  | override axis key next ih =>
    obtain ⟨⟨made, o₁⟩, s₁, hmade, h⟩ := System.run_bind_eq_some.mp h
    exact (Overrides.resolve_cases hmade).1.trans (ih made h)
  | sagaStore next ih =>
    obtain ⟨⟨store, o₁⟩, s₁, hstore, h⟩ := System.run_bind_eq_some.mp h
    exact (Overrides.settles_of_sharedSagaStore hstore).trans (ih store h)
  | monitor componentType name next ih =>
    obtain ⟨⟨monitor, o₁⟩, s₁, hmonitor, h⟩ := System.run_bind_eq_some.mp h
    exact (Overrides.settles_of_messageMonitor hmonitor).trans (ih monitor h)

theorem Hears.holds {inquiry : Inquiry σ α} {value : α} {axis : Axis} {key : String}
    {heard : axis.Value σ} (hh : Hears c depth axis key heard inquiry o s)
    (h : System.run depth (inquiry.run c o) s = some ((value, o'), s')) :
    o'.Holds axis key heard := by
  induction hh with
  | now hnow =>
    rw [(Step.override hnow).run_eq] at h
    exact (settles h).holds (Overrides.resolve_cases hnow).2
  | later step _ ih =>
    rw [step.run_eq] at h
    exact ih h

lemma holds_of_resolve {axis : Axis} {key : String} {value : axis.Value σ}
    (h : System.run depth ((resolve axis key).run c o) s = some ((value, o'), s')) :
    o'.Holds axis key value := by
  obtain ⟨⟨made, o₁⟩, s₁, hmade, h⟩ := System.run_bind_eq_some.mp h
  cases h
  exact (Overrides.resolve_cases hmade).2

lemma run_messageMonitor {componentType name : String} {monitor : MessageMonitor σ}
    (h : System.run depth ((messageMonitor componentType name).run c o) s =
      some ((monitor, o'), s')) :
    System.run depth (o.monitorsOf c name componentType name) s = some (monitor, s') := by
  obtain ⟨⟨made, o₁⟩, s₁, hmade, h⟩ := System.run_bind_eq_some.mp h
  cases h
  exact (Overrides.messageMonitor_cases hmade).2

end Inquiry

end EventProcessing
