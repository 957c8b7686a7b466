import EventProcessing.Proofs.Module.Soundness
import EventProcessing.Proofs.Ranking

/-! A module is known by its registrations: leaving aside what was built, every history of calls
leads to the module that only got the registrations. -/

namespace EventProcessing

variable {σ α : Type} {depth : ℕ} {s s' : System σ} {m m' : Module σ}

section Reset

lemma Component.reset_reset {μ : Type → Type} {κ ε : Type} (component : Component μ κ ε α) :
    component.reset.reset = component.reset := rfl

lemma OverrideTable.reset_reset (table : OverrideTable σ α) : table.reset.reset = table.reset := by
  have hkeyed : (table.keyed.mapValues Component.reset).mapValues Component.reset =
      table.keyed.mapValues Component.reset := by
    simp [Table.mapValues, Function.comp_def, Component.reset_reset]
  exact congrArg (fun keyed => { table.reset with keyed }) hkeyed

lemma OverrideTable.reset_enter (table : OverrideTable σ α) (key : Option String)
    (factory : Factory σ α) : (table.enter key factory).reset = table.reset.enter key factory := by
  cases key with
  | none => rfl
  | some key =>
    have hget : table.reset.keyed.get? key = (table.keyed.get? key).map Component.reset :=
      Table.get?_mapValues Component.reset table.keyed key
    have hkeyed : (table.enter (some key) factory).reset.keyed =
        (table.reset.enter (some key) factory).keyed := by
      refine (Table.mapValues_put Component.reset table.keyed key _).trans ?_
      unfold enter
      dsimp only
      rw [hget]
      cases table.keyed.get? key <;> rfl
    exact congrArg (fun keyed => { table.reset with keyed }) hkeyed

lemma Overrides.reset_reset (o : Overrides σ) : o.reset.reset = o.reset := by
  have htable : (fun axis => (o.table axis).reset.reset) = fun axis => (o.table axis).reset :=
    funext fun axis => (o.table axis).reset_reset
  exact congrArg (fun table => ({ o.reset with table } : Overrides σ)) htable

lemma Overrides.reset_enter (o : Overrides σ) (axis : Axis) (key : Option String)
    (factory : Factory σ (axis.Value σ)) :
    (o.enter axis key factory).reset = o.reset.enter axis key factory := by
  have htable : (o.enter axis key factory).reset.table =
      (o.reset.enter axis key factory).table := by
    funext other
    change ((o.enter axis key factory).table other).reset = _
    unfold enter
    by_cases h : other = axis
    · subst h
      rw [table_setTable_self, table_setTable_self]
      exact (o.table other).reset_enter key factory
    · rw [table_setTable_of_ne _ _ h, table_setTable_of_ne _ _ h]
      rfl
  exact congrArg (fun table => ({ o.reset with table } : Overrides σ)) htable

end Reset

namespace Module

/-- What was registered, with nothing built and the selectors in their final order. -/
def bare (m : Module σ) : Module σ where
  overrides := m.overrides.reset
  interceptors := m.interceptors
  selectors := m.selectors.sort
  names := m.names
  handlers := m.handlers.map Component.reset
  sagas := m.sagas.map Component.reset
  builders := m.builders
  defaultBuilder := m.defaultBuilder

lemma bare_bare (m : Module σ) : m.bare.bare = m.bare := by
  simp [bare, Overrides.reset_reset, SelectorChain.sort_sort, Function.comp_def,
    Component.reset_reset]

lemma bare_enter (registration : Registration σ) (m : Module σ) :
    (registration.enter m).bare = (registration.enter m.bare).bare := by
  cases registration with
  | selector added =>
    have h : (m.selectors.add added).sort = ((m.selectors.sort).add added).sort :=
      (m.selectors.sort_sort_add added).symm
    simp [Registration.enter, addSelector, bare, Overrides.reset_reset, h, Function.comp_def,
      Component.reset_reset]
  | fallback groupOf =>
    have h := m.selectors.sort_sort
    simp only [SelectorChain.sort, SelectorChain.mk.injEq, and_true] at h
    simp [Registration.enter, setFallback, bare, Overrides.reset_reset, SelectorChain.sort, h,
      Function.comp_def, Component.reset_reset]
  | override axis key factory =>
    simp [Registration.enter, bare, Overrides.reset_enter, Overrides.reset_reset,
      SelectorChain.sort_sort, Function.comp_def, Component.reset_reset]
  | builder name made =>
    by_cases hk : m.builders.contains name = true
    · have h : (Registration.builder name made).enter m = m ∧
          (Registration.builder name made).enter m.bare = m.bare := by
        simp [Registration.enter, registerBuilder, bare, hk, Except.toOption]
      rw [h.1, h.2, bare_bare]
    · simp [Registration.enter, registerBuilder, bare, hk, Except.toOption,
        Overrides.reset_reset, SelectorChain.sort_sort, Function.comp_def, Component.reset_reset]
  | _ =>
    simp [Registration.enter, registerHandler, registerSaga, assignGroup, setNamingRule,
      setDefaultBuilder, registerDefaultInterceptor, Overrides.registerMonitors, Overrides.reset,
      bare, OverrideTable.reset_reset, SelectorChain.sort_sort, Function.comp_def, Part.renew,
      Part.ofFactory, Component.reset]

lemma bare_settled {c : Configuration σ} {handlers : List (EventHandler σ)}
    {sagas : List (Saga σ)} {overrides : Overrides σ} (m : Module σ)
    (hh : List.Forall₂ Part.Gives m.handlers handlers)
    (hs : List.Forall₂ Part.Gives m.sagas sagas) (ho : m.overrides.reset.Settles overrides) :
    (m.settled c handlers sagas overrides).bare = m.bare := by
  simp [settled, withAssembly, cleared, bare, reset_holding hh, reset_holding hs, ho.reset,
    Overrides.reset_reset, SelectorChain.sort_sort]

lemma bare_looksUp {name : String} {answer : Except Failure (Option (Processor σ))}
    (h : m.LooksUp name depth s answer m' s') : m'.bare = m.bare := by
  cases h with
  | unconfigured | unknown | known => rfl
  | fails _ _ hb | builds _ _ hb => simp [bare, hb.settles.reset]

lemma allows_bare (bare₀ : Module σ) : Allows fun m s => m.Sound s ∧ m.bare = bare₀ where
  beside h hp := ⟨allows_sound.beside h.1 hp, h.2⟩
  consult h hc := by
    refine ⟨allows_sound.consult h.1 hc, ?_⟩
    obtain ⟨-, -, rfl, rfl⟩ | ⟨c, value, o', -, -, hrun, rfl⟩ := consult_cases hc
    · exact h.2
    · rw [← h.2]
      simp [bare, (Inquiry.settles hrun).reset]
  lookUp h hl :=
    ⟨allows_sound.lookUp h.1 hl, (bare_looksUp (looksUp_of_processor? h.1.ordered hl)).trans h.2⟩

end Module

namespace Change

lemma registrations_register (history : List (Change σ)) (registration : Registration σ) :
    (history ++ [register registration]).filterMap registration? =
      history.filterMap registration? ++ [registration] :=
  List.filterMap_append

lemma registrations_setUp (history : List (Change σ)) (c : Configuration σ) :
    (history ++ [setUp c]).filterMap registration? = history.filterMap registration? :=
  List.filterMap_append.trans (List.append_nil _)

lemma registered_register (history : List (Change σ)) (registration : Registration σ) :
    registered (history ++ [.register registration]) = registration.enter (registered history) := by
  rw [registered, registrations_register, List.foldl_append]
  rfl

lemma registered_setUp (history : List (Change σ)) (c : Configuration σ) :
    registered (history ++ [.setUp c]) = registered history := by
  rw [registered, registrations_setUp, registered]

end Change

theorem Module.Reaches.bare_eq {s₀ : System σ} {history : List (Change σ)}
    (h : Reaches {} s₀ history m s) (hv : s₀.Vacant) :
    m.bare = (Change.registered history).bare := by
  induction h with
  | init => rfl
  | beside _ _ ih => exact ih
  | query h hq ih => exact ((allows_bare _).of_query ⟨h.sound (.init hv), ih⟩ hq).2
  | change h hc ih =>
    rename_i change _
    cases change with
    | register registration =>
      obtain ⟨rfl, -⟩ := Registration.perform_cases hc
      rw [Change.registered_register, bare_enter, ih, ← bare_enter]
    | setUp c =>
      have hsound := h.sound (.init hv)
      obtain ⟨handlers, sagas, overrides, s₁, s₂, hh, hs, -, -, hrun, rfl⟩ :=
        setUp_cases hsound.handlers hsound.sagas hc
      rw [Change.registered_setUp, bare_settled _ hh hs (settles_setUps hrun), ih]

lemma Module.Reaches.names_eq {s₀ : System σ} {history : List (Change σ)}
    (h : Reaches {} s₀ history m s) (hv : s₀.Vacant) :
    m.names = (Change.registered history).names := by
  have hnames := congrArg Module.names (h.bare_eq hv)
  exact hnames

lemma Module.Reaches.interceptors_eq {s₀ : System σ} {history : List (Change σ)}
    (h : Reaches {} s₀ history m s) (hv : s₀.Vacant) :
    m.interceptors = (Change.registered history).interceptors := by
  have hinterceptors := congrArg Module.interceptors (h.bare_eq hv)
  exact hinterceptors

end EventProcessing
