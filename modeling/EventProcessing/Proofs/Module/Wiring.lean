import EventProcessing.Proofs.Module.Resolution
import EventProcessing.Proofs.Module.Restart

namespace EventProcessing

variable {σ α : Type} {depth : ℕ} {s s' s₀ : System σ} {m m' : Module σ} {c : Configuration σ}
  {history : List (Change σ)} {name : String} {p : Processor σ} {axis : Axis} {key : String}

namespace Registration

def monitorsFor? (name : String) : Registration σ → Option (MonitorFactory σ)
  | .monitors other factory => if other = name then some factory else none
  | _ => none

lemma get?_monitorFactories_enter (registration : Registration σ) (m : Module σ) :
    (registration.enter m).overrides.monitorFactories.get? name =
      (registration.monitorsFor? name).or (m.overrides.monitorFactories.get? name) := by
  cases registration with
  | monitors other factory =>
    by_cases h : name = other
    · subst h
      simp [enter, Overrides.registerMonitors, monitorsFor?]
    · simp [enter, Overrides.registerMonitors, monitorsFor?, Table.get?_put_of_ne _ _ h, Ne.symm h]
  | builder label made => rcases enter_builder_cases m label made with h | h <;> rw [h] <;> rfl
  | _ => rfl

end Registration

namespace Change

def ownMonitors? (name : String) (history : List (Change σ)) : Option (MonitorFactory σ) :=
  ((history.filterMap registration?).filterMap (Registration.monitorsFor? name)).getLast?

def monitorsOf (c : Configuration σ) (name : String) (history : List (Change σ)) :
    MonitorLookup σ :=
  match ownMonitors? name history with
  | some factory => factory c
  | none => c.monitors

lemma get?_monitorFactories_registered (history : List (Change σ)) :
    (registered history).overrides.monitorFactories.get? name = ownMonitors? name history := by
  induction history using List.reverseRecOn with
  | nil => rfl
  | append_singleton history change ih =>
    cases change with
    | register registration =>
      rw [registered_register, Registration.get?_monitorFactories_enter, ih, ownMonitors?,
        ownMonitors?, registrations_register, List.filterMap_append]
      cases h : registration.monitorsFor? name <;> simp [h]
    | setUp c => rw [registered_setUp, ih, ownMonitors?, ownMonitors?, registrations_setUp]

lemma monitorsOf_setUp (history : List (Change σ)) (c c' : Configuration σ) :
    monitorsOf c' name (history ++ [.setUp c]) = monitorsOf c' name history := by
  rw [monitorsOf, ownMonitors?, registrations_setUp]
  rfl

lemma NoSetUp.eq_nil {before after : List (Change σ)} (h : NoSetUp after)
    (he : history ++ [.setUp c] = before ++ after) : after = [] := by
  cases after using List.reverseRecOn with
  | nil => rfl
  | append_singleton rest last =>
    rw [← List.append_assoc] at he
    obtain ⟨-, hlast⟩ := List.append_inj' he rfl
    cases hlast
    exact absurd (by simp) (h c)

end Change

namespace Module

lemma Allows.of_reaches {Q : Module σ → System σ → Prop} (hQ : Allows Q) {m₂ : Module σ}
    {s₂ : System σ} (h : Reaches m₂ s₂ [] m s) (hm : Q m₂ s₂) : Q m s := by
  generalize hnil : ([] : List (Change σ)) = none at h
  induction h with
  | init => exact hm
  | beside _ hp ih => exact hQ.beside (ih hnil) hp
  | query _ hq ih => exact hQ.of_query (ih hnil) hq
  | change => exact absurd hnil (by simp)

lemma allows_activeSagas (sagas : List (Saga σ)) :
    Allows fun m s => m.Sound s ∧ m.activeSagas = sagas where
  beside h hp := ⟨h.1.passes hp, h.2⟩
  consult h hc := by
    refine ⟨allows_sound.consult h.1 hc, ?_⟩
    obtain ⟨-, -, rfl, rfl⟩ | ⟨c, value, o', -, -, -, rfl⟩ := consult_cases hc
    · exact h.2
    · exact h.2
  lookUp h hl := by
    refine ⟨allows_sound.lookUp h.1 hl, ?_⟩
    cases looksUp_of_processor? h.1.ordered hl with
    | unconfigured | unknown | known | fails | builds => exact h.2

lemma Reaches.exists_setUp (h : Reaches {} s₀ (history ++ [.setUp c]) m s) :
    ∃ m₁ s₁ depth m₂ s₂, Reaches {} s₀ history m₁ s₁ ∧
      setUp c m₁ depth s₁ = some (((), m₂), s₂) ∧ Reaches m₂ s₂ [] m s := by
  generalize hall : history ++ [.setUp c] = all at h
  induction h with
  | init => exact absurd hall (by simp)
  | beside _ hp ih =>
    obtain ⟨m₁, s₁, depth, m₂, s₂, h₁, hsetUp, h₂⟩ := ih hall
    exact ⟨m₁, s₁, depth, m₂, s₂, h₁, hsetUp, h₂.beside hp⟩
  | query _ hq ih =>
    obtain ⟨m₁, s₁, depth, m₂, s₂, h₁, hsetUp, h₂⟩ := ih hall
    exact ⟨m₁, s₁, depth, m₂, s₂, h₁, hsetUp, h₂.query hq⟩
  | change h hc =>
    obtain ⟨rfl, hlast⟩ := List.append_inj' hall rfl
    cases hlast
    exact ⟨_, _, _, _, _, h, hc, .init⟩

lemma gives_of_bare {parts parts' : List (Part σ α)} {values : List α}
    (hp : parts.map Component.reset = parts'.map Component.reset)
    (h : List.Forall₂ Part.Gives parts values) : List.Forall₂ Part.Gives parts' values := by
  have hbare := gives_bare h
  rwa [hp, List.forall₂_map_left_iff] at hbare

/-- What a history assigns to a processor: its groups in the order in which they first appear, each
with the handlers that the selectors put there, and after them its sagas. -/
def Assigned (history : List (Change σ)) (m : Module σ) (name : String)
    (sources : List (InvokerSource σ)) : Prop :=
  ∃ handlers sagas,
    List.Forall₂ Part.Gives (Change.registered history).handlers handlers ∧
    List.Forall₂ Part.Gives (Change.registered history).sagas sagas ∧
    m.sagaConfigurations = .ok sagas ∧
    sources = Assembly.sourcesOf handlers sagas (Change.registered history).selectors.sort
      (Change.registered history).names name ∧
    m.groupsOf name = .ok (sources.map InvokerSource.group)

/-- The answer to all queries for the key since the set-up at the end of the history, and to all
that are to come before the next one. -/
structure Reported (s₀ : System σ) (history : List (Change σ)) (m : Module σ) (s : System σ)
    (axis : Axis) (key : String) (value : axis.Value σ) : Prop where
  before : ∀ {m₁ s₁ depth answer m₂ s₂}, Reaches {} s₀ history m₁ s₁ →
    consult (Inquiry.resolve axis key) m₁ depth s₁ = some ((answer, m₂), s₂) →
      Reaches m₂ s₂ [] m s → answer = .ok value
  after : ∀ {m' s'}, Reaches m s [] m' s' → m'.Reports s' axis key value

lemma Reaches.settled (h : Reaches {} s₀ (history ++ [.setUp c]) m s) (hv : s₀.Vacant) :
    m.configuration = some c ∧ ∀ {name sources}, m.assembly.get? name = some sources →
      m.Assigned history name sources := by
  obtain ⟨m₁, s₁, depth, m₂, s₂, h₁, hsetUp, h₂⟩ := h.exists_setUp
  have hsound₁ := h₁.sound (.init hv)
  have hperform : (Change.setUp c).perform m₁ depth s₁ = some (((), m₂), s₂) := hsetUp
  have hsound₂ := hsound₁.change hperform
  obtain ⟨handlers, sagas, overrides, _, _, hhandlers, hsagas, -, -, -, rfl⟩ :=
    setUp_cases hsound₁.handlers hsound₁.sagas hsetUp
  obtain ⟨hconfiguration, hassembly⟩ := h₂.stays hsound₂ Change.noSetUp_nil
  have hactive : m.activeSagas = sagas :=
    ((allows_activeSagas sagas).of_reaches h₂ ⟨hsound₂, rfl⟩).2
  have hbare := h₁.bare_eq hv
  have hselectors : m₁.selectors.sort = (Change.registered history).selectors.sort :=
    congrArg Module.selectors hbare
  refine ⟨hconfiguration, fun {name sources} hs => ⟨handlers, sagas,
    gives_of_bare (congrArg Module.handlers hbare) hhandlers,
    gives_of_bare (congrArg Module.sagas hbare) hsagas, ?_, ?_, ?_⟩⟩
  · rw [sagaConfigurations, configured, hconfiguration, hactive]
    rfl
  · have hassigned : m.assembly = .ofAssigned (handlers.map fun handler =>
        (handler, m₁.selectors.sort.groupOf handler)) sagas m₁.names := hassembly
    rw [← hselectors, ← h₁.names_eq hv]
    exact Assembly.eq_sourcesOf (hassigned ▸ hs)
  · rw [groupsOf, configured, hconfiguration, hs]
    rfl

lemma Reaches.monitorsOf_eq (h : Reaches {} s₀ history m s) (hv : s₀.Vacant) :
    m.overrides.monitorsOf c name = Change.monitorsOf c name history := by
  have hbare := congrArg (fun m : Module σ => m.overrides.monitorFactories) (h.bare_eq hv)
  have hfactories : m.overrides.monitorFactories =
      (Change.registered history).overrides.monitorFactories := hbare
  rw [Overrides.monitorsOf, hfactories, Change.get?_monitorFactories_registered]
  rfl

lemma Reaches.holds_later {value : axis.Value σ} (h : Reaches m s [] m' s') (hs : m.Sound s)
    (hh : m.overrides.Holds axis key value) : m'.overrides.Holds axis key value := by
  refine (h.holds hs Change.noSetUp_nil hh ?_).1
  rintro ⟨_, ⟨⟩⟩

lemma Reaches.reported {value : axis.Value σ} (h : Reaches {} s₀ (history ++ [.setUp c]) m s)
    (hv : s₀.Vacant) (hh : m.overrides.Holds axis key value) :
    Reported s₀ (history ++ [.setUp c]) m s axis key value where
  before h₁ hq h₂ := by
    obtain ⟨other, rfl, hresolves⟩ := exists_resolves (h₁.settled hv).1 hq
    have hother := h₂.holds_later (hresolves.sound (h₁.sound (.init hv))) hresolves.holds.1
    exact congrArg Except.ok (Option.some.inj (hother.symm.trans hh))
  after h' := by
    have hsound := h.sound (.init hv)
    have hconfiguration := (h'.stays hsound Change.noSetUp_nil).1
    exact reports_of_holds (hconfiguration.trans (h.settled hv).1)
      (h'.holds_later hsound hh)

/-- A processor has one delegate for each of its groups and sagas: for a group, the handlers of the
group with what queries are told of the group; for a saga, its manager. All else it has is what they
are told of its own name, and its monitor is one of those that were registered for this name, or of
the application if there are none. -/
theorem wired_by_name_and_group (hv : s₀.Vacant)
    (h : Reaches {} s₀ (history ++ [.setUp c]) m s) (hp : m.Built name p) (hb : p.IsBuiltIn) :
    ∃ sources depth m₁ s₁ m₂ s₂, m.Assigned history name sources ∧ p.name = name ∧
      p.pipeline?.isSome = true ∧ p.Wired (Reported s₀ (history ++ [.setUp c]) m s) sources ∧
      Reaches {} s₀ (history ++ [.setUp c]) m₁ s₁ ∧
      processor? name m₁ depth s₁ = some ((.ok (some p), m₂), s₂) ∧ Reaches m₂ s₂ [] m s ∧
      p.Supplied (Change.monitorsOf c name history) s₁ s₂ sources := by
  obtain ⟨before, after, m₁, s₁, he, ho⟩ := h.hasOrigins hv name p hp
  -- The history ends in a set-up, so that nothing was registered since the build.
  obtain rfl := ho.noSetUp.eq_nil he
  rw [List.append_nil] at he
  subst he
  obtain ⟨depth, m₂, s₂, hbuilt, h₂⟩ := ho.built
  have h₁ := ho.reached
  have hsound₁ := h₁.sound (.init hv)
  cases looksUp_of_processor? hsound₁.ordered hbuilt with
  | known hknown => exact absurd hknown (ho.unbuilt p)
  | @builds order _ o' _ horders hcell hbuilds =>
    obtain ⟨-, -, -, hname, hwired⟩ := hbuilds.made
    have hsound₂ := hsound₁.builds horders hcell hbuilds
    have hassembly := (h₂.stays hsound₂ Change.noSetUp_nil).2
    have hc := Option.some.inj (horders.configuration.symm.trans (h₁.settled hv).1)
    have hsupplied := hbuilds.supplied.within (order.passes_announced s₁).nextId le_rfl
    rw [hc, horders.named, h₁.monitorsOf_eq hv, Change.monitorsOf_setUp] at hsupplied
    refine ⟨order.sources, depth, m₁, s₁, _, s₂, (h.settled hv).2 ?_, hname.trans horders.named,
      p.isSome_pipeline? hb, hwired.mono fun axis key value hholds => ?_, h₁, hbuilt, h₂, hsupplied⟩
    · exact hassembly ▸ horders.sources
    · exact h.reported hv (h₂.holds_later hsound₂ hholds)

end Module

namespace Sample

def member (group : String) : Change Unit :=
  .register (.handler fun _ => return { greeter with declaredGroup := some group })

def swapped : List (Change Unit) :=
  [member "ledger", member "audit", .register (.assignment "ledger" "audit"),
    .register (.assignment "audit" "ledger"),
    .register (.override .listenerErrorHandler (some "ledger") fun _ =>
      .propagating <$> Program.fresh),
    .register (.override .errorHandler (some "ledger") fun _ => .propagating <$> Program.fresh),
    .register (.monitors "audit" fun _ _ name => return .metrics name),
    .register (.saga fun _ => return ledger)]

def swappedUp : List (Change Unit) := swapped ++ [.setUp (configuration 0)]

def swappedInUse : Module Unit × System Unit :=
  state swappedUp ["ledger", "audit"] (by decide +kernel)

end Sample

theorem Module.swapped_names_wired : ∃ p sources depth m₁ s₁ m₂ s₂,
    Sample.swappedInUse.1.Built "audit" p ∧ p.IsBuiltIn ∧ p.name = "audit" ∧
    sources.map InvokerSource.group = ["ledger", "ledger"] ∧
    Assigned Sample.swapped Sample.swappedInUse.1 "audit" sources ∧
    p.Wired (Reported Sample.blank Sample.swappedUp Sample.swappedInUse.1 Sample.swappedInUse.2)
      sources ∧
    processor? "audit" m₁ depth s₁ = some ((.ok (some p), m₂), s₂) ∧
    p.Supplied (fun _ name => return .metrics name) s₁ s₂ sources := by
  have hpipeline : (((Sample.swappedInUse.1.processors.get? "audit").bind Component.built).bind
      Processor.pipeline?).isSome = true := by decide +kernel
  obtain ⟨pipeline, hpipeline⟩ := Option.isSome_iff_exists.mp hpipeline
  obtain ⟨p, hp, hpipeline⟩ := Option.bind_eq_some_iff.mp hpipeline
  have hb := Processor.isBuiltIn_of_pipeline? hpipeline
  have hreached : Reaches {} Sample.blank Sample.swappedUp Sample.swappedInUse.1
      Sample.swappedInUse.2 := Sample.reaches_state _ _ _
  have hgroups : (Sample.swappedInUse.1.groupsOf "audit").toOption =
      some ["ledger", "ledger"] := by decide +kernel
  obtain ⟨sources, depth, m₁, s₁, m₂, s₂, hassigned, hname, -, hwired, -, hbuilt, -, hsupplied⟩ :=
    wired_by_name_and_group Sample.vacant_blank hreached hp hb
  obtain ⟨_, _, -, -, -, -, hsources⟩ := id hassigned
  rw [hsources] at hgroups
  exact ⟨p, sources, depth, m₁, s₁, m₂, s₂, hp, hb, hname, Option.some.inj hgroups, hassigned,
    hwired, hbuilt, hsupplied⟩

end EventProcessing
