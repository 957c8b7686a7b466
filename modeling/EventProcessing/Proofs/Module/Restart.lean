import EventProcessing.Proofs.Module.Registered

namespace EventProcessing

variable {σ α β : Type} {s s' : System σ} {m m' : Module σ} {c : Configuration σ}

def Factory.Gives (factory : Factory σ α) (value : α) : Prop :=
  ∃ c depth s s', System.run depth (factory c) s = some (value, s')

def Factory.Agrees (factory : Factory σ α) (f : α → β) : Prop :=
  ∀ value other, Factory.Gives factory value → Factory.Gives factory other → f value = f other

/-- The same source with other instances: each handler and saga stands for the one that the same
registration gave to the other module. -/
def InvokerSource.Alike (handlers : List (EventHandler σ × EventHandler σ))
    (sagas : List (Saga σ × Saga σ)) : InvokerSource σ → InvokerSource σ → Prop
  | .handlers group members, .handlers group' members' =>
    group = group' ∧ List.Forall₂ (fun handler handler' => (handler, handler') ∈ handlers)
      members members'
  | .saga kept, .saga kept' => kept.group = kept'.group ∧ (kept, kept') ∈ sagas
  | _, _ => False

namespace Module

def keptHandlers (m : Module σ) : List (EventHandler σ) := m.handlers.filterMap Component.built

structure Alike (m m' : Module σ) : Prop where
  configuration : m.configuration = m'.configuration
  processorNames : m.processorNames = m'.processorNames
  groupsOf : ∀ name, m.groupsOf name = m'.groupsOf name
  handlers : m.keptHandlers.length = m'.keptHandlers.length
  sagas : m.activeSagas.length = m'.activeSagas.length
  assembly : List.Forall₂
    (fun entry entry' => entry.1 = entry'.1 ∧
      List.Forall₂ (InvokerSource.Alike (m.keptHandlers.zip m'.keptHandlers)
        (m.activeSagas.zip m'.activeSagas)) entry.2 entry'.2)
    m.assembly m'.assembly
  builderOf : ∀ name, m.builderOf name = m'.builderOf name
  overrides : ∀ axis key, ((m.overrides.table axis).serving key).factory =
    ((m'.overrides.table axis).serving key).factory
  monitors : m.overrides.monitorFactories = m'.overrides.monitorFactories
  sagaStore : m.overrides.sagaStore.factory = m'.overrides.sagaStore.factory
  interceptors : m.interceptors = m'.interceptors
  selectors : m.selectors = m'.selectors
  names : m.names = m'.names

/-- No processor is built, and the only values of overrides are those that the set-up of the sagas
asked for between these two systems. -/
structure Afresh (c : Configuration σ) (s s' : System σ) (m : Module σ) : Prop where
  configuration : m.configuration = some c
  processors : ∀ name, m.processors.get? name = (m.assembly.get? name).map fun sources =>
    (ProcessorOrder.mk name sources (m.builderOf name) c).cell
  overrides : ∃ depth s₁ s₂, s.Passes s₁ ∧ s₂.Passes s' ∧
    System.run depth ((m.activeSagas.forM (setUpSaga c)).run m.overrides.reset) s₁ =
      some (((), m.overrides), s₂)

end Module

section Factories

lemma Part.gives_ofFactory {name : String} {factory : Factory σ α} {value : α}
    (h : (Part.ofFactory name factory).Gives value) : Factory.Gives factory value := by
  obtain ⟨c, depth, s, s', h⟩ := h
  obtain ⟨made, middle, hmade, h⟩ := System.run_bind_eq_some.mp h
  cases h
  exact ⟨c, depth, s, _, hmade⟩

lemma Change.exists_factory {parts : Module σ → List (Part σ α)}
    {make : Factory σ α → Registration σ} (hinit : parts {} = [])
    (henter : ∀ registration m, parts (registration.enter m) = parts m ∨
      ∃ name factory, registration = make factory ∧
        parts (registration.enter m) = parts m ++ [.ofFactory name factory])
    {history : List (Change σ)} {part : Part σ α} (h : part ∈ parts (registered history)) :
    ∃ name factory, .register (make factory) ∈ history ∧ part = .ofFactory name factory := by
  induction history using List.reverseRecOn with
  | nil =>
    change part ∈ parts {} at h
    rw [hinit] at h
    cases h
  | append_singleton history change ih =>
    have hlater : part ∈ parts (registered history) → ∃ name factory,
        Change.register (make factory) ∈ history ++ [change] ∧
          part = .ofFactory name factory := fun hp => by
      obtain ⟨name, factory, hf, he⟩ := ih hp
      exact ⟨name, factory, List.mem_append_left _ hf, he⟩
    cases change with
    | setUp c =>
      rw [registered_setUp] at h
      exact hlater h
    | register registration =>
      rw [registered_register] at h
      obtain he | ⟨name, factory, rfl, he⟩ := henter registration (registered history) <;>
        rw [he] at h
      · exact hlater h
      · rcases List.mem_append.mp h with h | h
        · exact hlater h
        · exact ⟨name, factory, by simp, List.mem_singleton.mp h⟩

lemma agree_of_gives {parts : List (Part σ α)} {values others : List α} {f : α → β}
    (h : List.Forall₂ Part.Gives parts values) (h' : List.Forall₂ Part.Gives parts others)
    (hf : ∀ part ∈ parts, ∀ value other, part.Gives value → part.Gives other → f value = f other) :
    List.Forall₂ (fun value other => f value = f other) values others := by
  induction h generalizing others with
  | nil =>
    cases h'
    exact .nil
  | cons hfirst _ ih =>
    cases h' with
    | cons hother hothers =>
      exact .cons (hf _ List.mem_cons_self _ _ hfirst hother)
        (ih hothers fun part hp => hf part (List.mem_cons_of_mem _ hp))

end Factories

section Pairs

lemma map_eq_map_of_forall₂ {γ : Type} {f : α → γ} {g : β → γ} {xs : List α} {ys : List β}
    (h : List.Forall₂ (fun x y => f x = g y) xs ys) : xs.map f = ys.map g := by
  induction h with
  | nil => rfl
  | cons hfirst _ ih => rw [List.map_cons, List.map_cons, hfirst, ih]

lemma forall₂_mem_zip {R : α → α → Prop} {xs ys : List α} (h : List.Forall₂ R xs ys) :
    List.Forall₂ (fun x y => (x, y) ∈ xs.zip ys ∧ R x y) xs ys := by
  obtain ⟨hl, hr⟩ := List.forall₂_iff_zip.mp h
  exact List.forall₂_iff_zip.mpr ⟨hl, fun hm => ⟨hm, hr hm⟩⟩

end Pairs

namespace Assembly

variable {handlers handlers' : List (EventHandler σ)} {sagas sagas' : List (Saga σ)}
  {selectors : SelectorChain σ} (names : ProcessorNames)

lemma alike_sourcesOf
    (hh : List.Forall₂ (fun h h' => selectors.groupOf h = selectors.groupOf h') handlers handlers')
    (hs : List.Forall₂ (fun saga saga' => saga.group = saga'.group) sagas sagas')
    (processor : String) :
    List.Forall₂ (InvokerSource.Alike (handlers.zip handlers') (sagas.zip sagas'))
      (sourcesOf handlers sagas selectors names processor)
      (sourcesOf handlers' sagas' selectors names processor) := by
  have hgroups : handlers.map selectors.groupOf = handlers'.map selectors.groupOf :=
    map_eq_map_of_forall₂ hh
  unfold sourcesOf
  rw [← hgroups]
  refine List.rel_append ?_ ?_
  · rw [List.forall₂_map_left_iff, List.forall₂_map_right_iff, List.forall₂_same]
    intro group _
    refine ⟨rfl, ?_⟩
    refine List.Forall₂.imp (fun _ _ h => h.1) (List.rel_filter ?_ (forall₂_mem_zip hh))
    rintro handler handler' ⟨-, hgroup⟩
    simp only [decide_eq_true_eq, hgroup]
  · rw [List.forall₂_map_left_iff, List.forall₂_map_right_iff]
    refine List.Forall₂.imp (fun _ _ h => ⟨h.2, h.1⟩) (List.rel_filter ?_ (forall₂_mem_zip hs))
    rintro saga saga' ⟨-, hgroup⟩
    simp only [decide_eq_true_eq, hgroup]

lemma alike_ofAssigned
    (hh : List.Forall₂ (fun h h' => selectors.groupOf h = selectors.groupOf h') handlers handlers')
    (hs : List.Forall₂ (fun saga saga' => saga.group = saga'.group) sagas sagas') :
    List.Forall₂
      (fun entry entry' => entry.1 = entry'.1 ∧
        List.Forall₂ (InvokerSource.Alike (handlers.zip handlers') (sagas.zip sagas'))
          entry.2 entry'.2)
      (ofAssigned (handlers.map fun handler => (handler, selectors.groupOf handler)) sagas names)
      (ofAssigned (handlers'.map fun handler => (handler, selectors.groupOf handler)) sagas'
        names) := by
  have hprocessors : processors handlers sagas selectors names =
      processors handlers' sagas' selectors names := by
    have h₁ := congrArg (List.map names.resolve) (map_eq_map_of_forall₂ hh)
    have h₂ := congrArg (List.map names.resolve) (map_eq_map_of_forall₂ hs)
    rw [List.map_map, List.map_map] at h₁ h₂
    exact congrArg List.eraseDups (congrArg₂ (· ++ ·) h₁ h₂)
  rw [ofAssigned_eq, ofAssigned_eq, ← hprocessors, Table.tabulate, Table.tabulate,
    List.forall₂_map_left_iff, List.forall₂_map_right_iff, List.forall₂_same]
  exact fun processor _ => ⟨rfl, alike_sourcesOf names hh hs processor⟩

end Assembly

lemma InvokerSource.Alike.group_eq {handlers : List (EventHandler σ × EventHandler σ)}
    {sagas : List (Saga σ × Saga σ)} {source source' : InvokerSource σ}
    (h : source.Alike handlers sagas source') : source.group = source'.group := by
  cases source <;> cases source'
  case handlers.handlers => exact h.1
  case saga.saga => exact h.1
  all_goals exact h.elim

lemma Table.getD_get?_of_forall₂ {κ : Type} [DecidableEq κ] {R : α → β → Prop}
    {table : Table κ (List α)} {table' : Table κ (List β)}
    (h : List.Forall₂ (fun entry entry' => entry.1 = entry'.1 ∧ List.Forall₂ R entry.2 entry'.2)
      table table') (key : κ) :
    List.Forall₂ R ((table.get? key).getD []) ((table'.get? key).getD []) := by
  induction h with
  | nil => exact .nil
  | @cons entry entry' rest rest' hfirst _ ih =>
    obtain ⟨k, values⟩ := entry
    obtain ⟨k', values'⟩ := entry'
    obtain ⟨rfl, hvalues⟩ : k = k' ∧ _ := hfirst
    by_cases hk : k = key
    · simpa [Table.get?, hk] using hvalues
    · simpa [Table.get?, hk] using ih

lemma OverrideTable.serving_reset (table : OverrideTable σ α) (key : String) :
    table.reset.serving key = (table.serving key).reset := by
  have hget : table.reset.keyed.get? key = (table.keyed.get? key).map Component.reset :=
    Table.get?_mapValues Component.reset table.keyed key
  unfold serving
  rw [hget]
  cases table.keyed.get? key <;> rfl

lemma Overrides.factory_eq_of_reset {o o' : Overrides σ} (h : o.reset = o'.reset) (axis : Axis)
    (key : String) :
    ((o.table axis).serving key).factory = ((o'.table axis).serving key).factory := by
  have hserving : (o.table axis).reset.serving key = (o'.table axis).reset.serving key :=
    congrArg (fun o : Overrides σ => (o.table axis).serving key) h
  rw [OverrideTable.serving_reset, OverrideTable.serving_reset] at hserving
  have hfactory := congrArg Component.factory hserving
  exact hfactory

namespace Module

lemma filterMap_built_holding {parts : List (Part σ α)} {values : List α}
    (h : List.Forall₂ Part.Gives parts values) :
    (holding parts values).filterMap Component.built = values := by
  induction h with
  | nil => rfl
  | cons _ _ ih => exact congrArg (_ :: ·) ih

section Settled

variable {handlers handlers' : List (EventHandler σ)} {sagas sagas' : List (Saga σ)}
  {overrides overrides' : Overrides σ}

lemma groupsOf_eq_of_alike
    (h : List.Forall₂
      (fun entry entry' => entry.1 = entry'.1 ∧
        List.Forall₂ (InvokerSource.Alike (handlers.zip handlers') (sagas.zip sagas'))
          entry.2 entry'.2) m.assembly m'.assembly) (name : String) :
    ((m.assembly.get? name).getD []).map InvokerSource.group =
      ((m'.assembly.get? name).getD []).map InvokerSource.group := by
  have hsources := Table.getD_get?_of_forall₂ h name
  generalize (m.assembly.get? name).getD [] = sources at hsources
  generalize (m'.assembly.get? name).getD [] = sources' at hsources
  induction hsources with
  | nil => rfl
  | cons hfirst _ ih => rw [List.map_cons, List.map_cons, hfirst.group_eq, ih]

lemma assembly_alike_settled (hbare : m.bare = m'.bare)
    (hgroups : List.Forall₂ (fun handler handler' =>
      m.selectors.sort.groupOf handler = m.selectors.sort.groupOf handler') handlers handlers')
    (hsagas : List.Forall₂ (fun saga saga' => saga.group = saga'.group) sagas sagas') :
    List.Forall₂
      (fun entry entry' => entry.1 = entry'.1 ∧
        List.Forall₂ (InvokerSource.Alike (handlers.zip handlers') (sagas.zip sagas'))
          entry.2 entry'.2)
      (m.settled c handlers sagas overrides).assembly
      (m'.settled c handlers' sagas' overrides').assembly := by
  have hselectors : m.bare.selectors = m'.bare.selectors := congrArg Module.selectors hbare
  have hnames : m.bare.names = m'.bare.names := congrArg Module.names hbare
  have hsettled : (m'.settled c handlers' sagas' overrides').assembly =
      .ofAssigned (handlers'.map fun handler => (handler, m.selectors.sort.groupOf handler)) sagas'
        m.bare.names := by
    rw [hnames]
    change Assembly.ofAssigned
      (handlers'.map fun handler => (handler, m'.bare.selectors.groupOf handler)) _ _ = _
    rw [← hselectors]
    rfl
  rw [hsettled]
  exact Assembly.alike_ofAssigned m.bare.names hgroups hsagas

lemma alike_settled (hbare : m.bare = m'.bare) (ho : m.overrides.reset.Settles overrides)
    (ho' : m'.overrides.reset.Settles overrides')
    (hh : List.Forall₂ Part.Gives m.handlers handlers)
    (hh' : List.Forall₂ Part.Gives m'.handlers handlers')
    (hgroups : List.Forall₂ (fun handler handler' =>
      m.selectors.sort.groupOf handler = m.selectors.sort.groupOf handler') handlers handlers')
    (hsagas : List.Forall₂ (fun saga saga' => saga.group = saga'.group) sagas sagas') :
    (m.settled c handlers sagas overrides).Alike (m'.settled c handlers' sagas' overrides') := by
  have hbuilders : m.bare.builders = m'.bare.builders := congrArg Module.builders hbare
  have hdefault : m.bare.defaultBuilder = m'.bare.defaultBuilder :=
    congrArg Module.defaultBuilder hbare
  have hoverrides : m.bare.overrides = m'.bare.overrides := congrArg Module.overrides hbare
  have hreset : overrides.reset = overrides'.reset := by
    rw [ho.reset, ho'.reset, Overrides.reset_reset, Overrides.reset_reset]
    exact hoverrides
  have hkept : (m.settled c handlers sagas overrides).keptHandlers = handlers :=
    filterMap_built_holding hh
  have hkept' : (m'.settled c handlers' sagas' overrides').keptHandlers = handlers' :=
    filterMap_built_holding hh'
  have hassembly : List.Forall₂ _ (m.settled c handlers sagas overrides).assembly
      (m'.settled c handlers' sagas' overrides').assembly :=
    assembly_alike_settled hbare hgroups hsagas
  constructor
  case configuration => rfl
  case processorNames =>
    refine congrArg Except.ok ?_
    rw [keys_settled, keys_settled]
    exact map_eq_map_of_forall₂ (hassembly.imp fun _ _ h => h.1)
  case groupsOf => exact fun name => congrArg Except.ok (groupsOf_eq_of_alike hassembly name)
  case handlers => rw [hkept, hkept', hgroups.length_eq]
  case sagas => exact hsagas.length_eq
  case assembly =>
    rw [hkept, hkept']
    exact hassembly
  case builderOf =>
    intro name
    change (m.bare.builders.get? name).getD m.bare.defaultBuilder = _
    rw [hbuilders, hdefault]
    rfl
  case overrides => exact Overrides.factory_eq_of_reset hreset
  case monitors =>
    have hmonitors := congrArg Overrides.monitorFactories hreset
    exact hmonitors
  case sagaStore =>
    have hstore := congrArg (fun o : Overrides σ => o.sagaStore.factory) hreset
    exact hstore
  case interceptors =>
    have hinterceptors := congrArg Module.interceptors hbare
    exact hinterceptors
  case selectors =>
    have hselectors := congrArg Module.selectors hbare
    exact hselectors
  case names =>
    have hnames := congrArg Module.names hbare
    exact hnames

end Settled

lemma afresh_settled {handlers : List (EventHandler σ)} {sagas : List (Saga σ)}
    {overrides : Overrides σ} {depth : ℕ} {s₁ s₂ : System σ} (hs₁ : s.Passes s₁)
    (hs₂ : s₂.Passes s')
    (h : System.run depth ((sagas.forM (setUpSaga c)).run m.overrides.reset) s₁ =
      some (((), overrides), s₂)) : Afresh c s s' (m.settled c handlers sagas overrides) where
  configuration := rfl
  processors := get?_settled m
  overrides := by
    have hreset : overrides.reset = m.overrides.reset :=
      (settles_setUps h).reset.trans (Overrides.reset_reset _)
    refine ⟨depth, s₁, s₂, hs₁, hs₂, ?_⟩
    rw [← hreset] at h
    exact h

end Module

lemma Change.registered_filter (history : List (Change σ)) :
    registered (history.filter isRegistration) = registered history := by
  have h : (history.filter isRegistration).filterMap registration? =
      history.filterMap registration? := by
    induction history with
    | nil => rfl
    | cons change rest ih =>
      cases change with
      | register registration => exact congrArg (registration :: ·) ih
      | setUp c => exact ih
  rw [registered, h, registered]

namespace Module

lemma gives_bare {parts : List (Part σ α)} {values : List α}
    (h : List.Forall₂ Part.Gives parts values) :
    List.Forall₂ Part.Gives (parts.map Component.reset) values := by
  rwa [List.forall₂_map_left_iff]

lemma agree_of_bare {history : List (Change σ)} {parts parts' registered : List (Part σ α)}
    {values values' : List α} {f : α → β} {make : Factory σ α → Registration σ}
    (hp : parts.map Component.reset = registered.map Component.reset)
    (hp' : parts'.map Component.reset = registered.map Component.reset)
    (hr : ∀ part ∈ registered, ∃ name factory,
      Change.register (make factory) ∈ history ∧ part = .ofFactory name factory)
    (hf : ∀ factory, .register (make factory) ∈ history → Factory.Agrees factory f)
    (h : List.Forall₂ Part.Gives parts values) (h' : List.Forall₂ Part.Gives parts' values') :
    List.Forall₂ (fun value value' => f value = f value') values values' := by
  have hvalues := gives_bare h
  have hvalues' := gives_bare h'
  rw [hp] at hvalues
  rw [hp'] at hvalues'
  refine agree_of_gives hvalues hvalues' fun part hm value other hv ho => ?_
  obtain ⟨bare, hb, rfl⟩ := List.mem_map.mp hm
  obtain ⟨name, factory, hfactory, rfl⟩ := hr bare hb
  exact hf factory hfactory value other (Part.gives_ofFactory hv) (Part.gives_ofFactory ho)

/-- Whatever was done with a module before, a set-up makes of it what it makes of a new one with
the same registrations. Factories of handlers and sagas must not come to something that belongs
elsewhere when they are run again: what they first came to is kept. -/
theorem set_up_again_like_new {s₁ s₂ t₁ t₁' t₂ t₂' : System σ} {history : List (Change σ)}
    {m₁ m₁' m₂ m₂' : Module σ} {d₁ d₂ : ℕ} (hv₁ : s₁.Vacant) (hv₂ : s₂.Vacant)
    (hhandlers : ∀ factory, .register (.handler factory) ∈ history →
      Factory.Agrees factory (Change.registered history).selectors.sort.groupOf)
    (hsagas : ∀ factory, .register (.saga factory) ∈ history → Factory.Agrees factory Saga.group)
    (h₁ : Reaches {} s₁ history m₁ t₁) (hs₁ : setUp c m₁ d₁ t₁ = some (((), m₁'), t₁'))
    (h₂ : Reaches {} s₂ (history.filter Change.isRegistration) m₂ t₂)
    (hs₂ : setUp c m₂ d₂ t₂ = some (((), m₂'), t₂')) :
    m₁'.Alike m₂' ∧ m₁'.Afresh c t₁ t₁' ∧ m₂'.Afresh c t₂ t₂' := by
  have hsound₁ := h₁.sound (.init hv₁)
  have hsound₂ := h₂.sound (.init hv₂)
  have hb₁ : m₁.bare = (Change.registered history).bare := h₁.bare_eq hv₁
  have hb₂ : m₂.bare = (Change.registered history).bare := by
    rw [h₂.bare_eq hv₂, Change.registered_filter]
  obtain ⟨handlers₁, sagas₁, o₁, _, _, hh₁, hg₁, hp₁, hq₁, hrun₁, rfl⟩ :=
    setUp_cases hsound₁.handlers hsound₁.sagas hs₁
  obtain ⟨handlers₂, sagas₂, o₂, _, _, hh₂, hg₂, hp₂, hq₂, hrun₂, rfl⟩ :=
    setUp_cases hsound₂.handlers hsound₂.sagas hs₂
  have hselectors : m₁.bare.selectors = (Change.registered history).bare.selectors :=
    congrArg Module.selectors hb₁
  have hgroups : List.Forall₂ (fun handler handler' =>
      m₁.bare.selectors.groupOf handler = m₁.bare.selectors.groupOf handler')
      handlers₁ handlers₂ := by
    rw [hselectors]
    exact agree_of_bare (congrArg Module.handlers hb₁) (congrArg Module.handlers hb₂)
      (fun _ => Change.exists_factory rfl Registration.handlers_enter) hhandlers hh₁ hh₂
  have hsagaGroups : List.Forall₂ (fun saga saga' : Saga σ => saga.group = saga'.group)
      sagas₁ sagas₂ :=
    agree_of_bare (congrArg Module.sagas hb₁) (congrArg Module.sagas hb₂)
      (fun _ => Change.exists_factory rfl Registration.sagas_enter) hsagas hg₁ hg₂
  exact ⟨alike_settled (hb₁.trans hb₂.symm) (settles_setUps hrun₁) (settles_setUps hrun₂) hh₁ hh₂
    hgroups hsagaGroups, afresh_settled hp₁ hq₁ hrun₁, afresh_settled hp₂ hq₂ hrun₂⟩

end Module

lemma Factory.agrees_return (value : α) (f : α → β) :
    Factory.Agrees (σ := σ) (fun _ => return value) f := by
  rintro made other ⟨_, _, _, _, hmade⟩ ⟨_, _, _, _, hother⟩
  cases hmade
  cases hother
  rfl

namespace Sample

def greeter : EventHandler Unit where
  label := "greeter"
  typeName := "Greeter"
  package := ""
  declaredGroup := none
  tag := .null
  canHandle := fun _ => true
  handle := fun _ _ => return .ok ()

def handlerAndSaga : List (Change Unit) :=
  [.register (.handler fun _ => return greeter), .register (.namingRule fun _ => "ledger")] ++
    oneSaga

def inUse : Module Unit × System Unit := state handlerAndSaga ["ledger"] (by decide +kernel)

def unused : Module Unit × System Unit :=
  state (handlerAndSaga.filter Change.isRegistration) [] (by decide +kernel)

end Sample

theorem Module.in_use_set_up_again : ∃ m₁ m₂ t₁ t₂,
    (∃ p, Sample.inUse.1.Built "ledger" p) ∧
    setUp (Sample.configuration 1) Sample.inUse.1 1 Sample.inUse.2 = some (((), m₁), t₁) ∧
    setUp (Sample.configuration 1) Sample.unused.1 1 Sample.unused.2 = some (((), m₂), t₂) ∧
    m₁.Alike m₂ ∧ m₁.Afresh (Sample.configuration 1) Sample.inUse.2 t₁ ∧
      m₂.Afresh (Sample.configuration 1) Sample.unused.2 t₂ := by
  have hbuilt : ((Sample.inUse.1.processors.get? "ledger").bind Component.built).isSome = true := by
    decide +kernel
  have hagain : (setUp (Sample.configuration 1) Sample.inUse.1 1 Sample.inUse.2).isSome = true := by
    decide +kernel
  have hfirst : (setUp (Sample.configuration 1) Sample.unused.1 1 Sample.unused.2).isSome =
      true := by decide +kernel
  obtain ⟨⟨⟨_, m₁⟩, t₁⟩, hs₁⟩ := Option.isSome_iff_exists.mp hagain
  obtain ⟨⟨⟨_, m₂⟩, t₂⟩, hs₂⟩ := Option.isSome_iff_exists.mp hfirst
  refine ⟨m₁, m₂, t₁, t₂, Option.isSome_iff_exists.mp hbuilt, hs₁, hs₂,
    set_up_again_like_new Sample.vacant_blank Sample.vacant_blank ?_ ?_
      (Sample.reaches_state _ _ _) hs₁ (Sample.reaches_state _ _ _) hs₂⟩
  · intro factory hf
    obtain rfl : factory = fun _ => return Sample.greeter := by
      simpa [Sample.handlerAndSaga, Sample.oneSaga] using hf
    exact Factory.agrees_return _ _
  · intro factory hf
    obtain rfl : factory = fun _ => return Sample.ledger := by
      simpa [Sample.handlerAndSaga, Sample.oneSaga] using hf
    exact Factory.agrees_return _ _

end EventProcessing
