import EventProcessing.Proofs.Cells
import EventProcessing.Proofs.Module.Lifecycle

namespace EventProcessing

variable {σ : Type} {depth : ℕ} {s s' : System σ} {m m' : Module σ} {c : Configuration σ}

inductive Use (σ : Type) where
  | start
  | shutDown
  | processor (name : String)
  | processorAs (isWanted : Processor σ → Bool) (name : String)
  | processorOfGroup (group : String)
  | allProcessors
  | interceptorsOf (name : String)
  | processorNames
  | groupsOf (name : String)
  | processorNameOf (group : String)
  | sagaConfigurations

namespace Use

abbrev Result : Use σ → Type
  | .start => Unit
  | .shutDown => Unit
  | .processor _ => Option (Processor σ)
  | .processorAs _ _ => Option (Processor σ)
  | .processorOfGroup _ => Option (Processor σ)
  | .allProcessors => List (String × Processor σ)
  | .interceptorsOf _ => List (Interceptor σ)
  | .processorNames => List String
  | .groupsOf _ => List String
  | .processorNameOf _ => String
  | .sagaConfigurations => List (Saga σ)

def call : (use : Use σ) → Managing σ (Except Failure use.Result)
  | .start => Module.start
  | .shutDown => Module.shutDown
  | .processor name => Module.processor? name
  | .processorAs isWanted name => Module.processorAs? isWanted name
  | .processorOfGroup group => Module.processorOfGroup? group
  | .allProcessors => Module.allProcessors
  | .interceptorsOf name => Module.interceptorsOf name
  | .processorNames => do return (← get).processorNames
  | .groupsOf name => do return (← get).groupsOf name
  | .processorNameOf group => do return (← get).processorNameOf group
  | .sagaConfigurations => do return (← get).sagaConfigurations

def isQuiet : Use σ → Bool
  | .shutDown | .processorNames | .groupsOf _ | .processorNameOf _ | .sagaConfigurations => true
  | _ => false

end Use

/-- What is done to the processor of a name. Only the first two run the factory of its cell. -/
inductive Deed (σ : Type) where
  | built (name : String) (p : Processor σ)
  | failed (name : String) (failure : Failure)
  | found (name : String) (p : Processor σ)
  | started (name : String) (p : Processor σ)
  | stopped (name : String) (p : Processor σ)

def Deed.name : Deed σ → String
  | .built name _ | .failed name _ | .found name _ | .started name _ | .stopped name _ => name

namespace Module

def attempt (m : Module σ) (cell : ProcessorCell σ) (depth : ℕ) (s : System σ) :
    Option (Except Failure (Processor σ) × Overrides σ × System σ) :=
  (Execution.builds depth).run (Component.construct cell.name cell.factory m.interceptors)
    (m.overrides, s)

def attempted (m : Module σ) (name : String) (cell : ProcessorCell σ) (overrides : Overrides σ) :
    Except Failure (Processor σ) → Except Failure (Option (Processor σ)) × Module σ
  | .ok p => (.ok (some p), { m with
      overrides
      processors := m.processors.put name { cell with built := some p } })
  | .error failure => (.error (.processorBuild name failure), { m with overrides })

section LookUp

variable {name : String} {cell : ProcessorCell σ}

lemma obtain_eq : obtain name cell m depth s =
    ((Execution.builds depth).run (cell.get m.interceptors) (m.overrides, s)).map fun r =>
      ((r.1.1.mapError (.processorBuild name),
        { m with overrides := r.2.1, processors := m.processors.put name r.1.2 }), r.2.2) := by
  change (cell.get m.interceptors m.overrides depth s).bind _ =
    ((cell.get m.interceptors m.overrides depth s).map _).map _
  rw [Option.map_map, Option.map_eq_bind]
  congr 1
  funext r
  obtain ⟨⟨⟨answer, cell⟩, overrides⟩, after⟩ := r
  cases answer <;> rfl

lemma processor?_eq (hc : m.configuration = some c) (hcell : m.processors.get? name = some cell) :
    processor? name m depth s =
      (obtain name cell m depth s).map fun r => ((r.1.1.map some, r.1.2), r.2) := by
  have hconfigured : m.configured = .ok c := by rw [configured, hc]
  rw [processor?, StateT.get_bind_apply]
  rw [hconfigured, hcell, Option.map_eq_bind]
  change (obtain name cell m depth s).bind _ = _
  congr 1
  funext r
  obtain ⟨⟨answer, after⟩, t⟩ := r
  cases answer <;> rfl

lemma processor?_of_unbuilt (hc : m.configuration = some c)
    (hcell : m.processors.get? name = some cell) (hb : cell.built = none) :
    processor? name m depth s =
      (m.attempt cell depth s).map fun r => (m.attempted name cell r.2.1 r.1, r.2.2) := by
  rw [processor?_eq hc hcell, obtain_eq, Component.run_get_of_none _ hb, Option.map_map,
    Option.map_map]
  refine congrArg (Option.map · (m.attempt cell depth s)) (funext fun r => ?_)
  obtain ⟨answer, overrides, after⟩ := r
  cases answer with
  | ok => rfl
  | error =>
    have hput : m.processors.put name cell = m.processors := Table.put_of_get? hcell
    simp only [Function.comp_apply, Component.answered, hput]
    rfl

lemma processor?_of_unknown (hc : m.configuration = some c)
    (hcell : m.processors.get? name = none) :
    processor? name m depth s = some ((.ok none, m), s) := by
  have hconfigured : m.configured = .ok c := by rw [configured, hc]
  rw [processor?, StateT.get_bind_apply]
  rw [hconfigured, hcell]
  rfl

end LookUp

inductive Finds (name : String) (depth : ℕ) (m : Module σ) (s : System σ) :
    List (Deed σ) → Except Failure (Option (Processor σ)) → Module σ → System σ → Prop
  | unknown (h : m.processors.get? name = none) : Finds name depth m s [] (.ok none) m s
  | ready {p : Processor σ} (h : m.Built name p) :
      Finds name depth m s [.found name p] (.ok (some p)) m s
  | builds {cell : ProcessorCell σ} {p : Processor σ} {o' : Overrides σ} {s' : System σ}
      (hcell : m.processors.get? name = some cell) (hb : cell.built = none)
      (ha : m.attempt cell depth s = some (.ok p, o', s')) :
      Finds name depth m s [.built name p] (m.attempted name cell o' (.ok p)).1
        (m.attempted name cell o' (.ok p)).2 s'
  | fails {cell : ProcessorCell σ} {failure : Failure} {o' : Overrides σ} {s' : System σ}
      (hcell : m.processors.get? name = some cell) (hb : cell.built = none)
      (ha : m.attempt cell depth s = some (.error failure, o', s')) :
      Finds name depth m s [.failed name failure] (m.attempted name cell o' (.error failure)).1
        (m.attempted name cell o' (.error failure)).2 s'

/-- A walk over names: the processor of each is looked up and then dealt with, until that fails. -/
inductive Walks (deal : String → Processor σ → Run σ Outcome)
    (deed : String → Processor σ → List (Deed σ)) (depth : ℕ) :
    List String → Module σ → System σ → List (Deed σ) →
      Except Failure (List (String × Processor σ)) → Module σ → System σ → Prop
  | done {m : Module σ} {s : System σ} : Walks deal deed depth [] m s [] (.ok []) m s
  | unknown {name : String} {rest : List String} {m m₁ m' : Module σ} {s s₁ s' : System σ}
      {deeds more : List (Deed σ)} {answer : Except Failure (List (String × Processor σ))}
      (hf : Finds name depth m s deeds (.ok none) m₁ s₁)
      (hr : Walks deal deed depth rest m₁ s₁ more answer m' s') :
      Walks deal deed depth (name :: rest) m s (deeds ++ more) answer m' s'
  | unbuilt {name : String} {rest : List String} {m m' : Module σ} {s s' : System σ}
      {deeds : List (Deed σ)} {failure : Failure}
      (hf : Finds name depth m s deeds (.error failure) m' s') :
      Walks deal deed depth (name :: rest) m s deeds (.error failure) m' s'
  | refused {name : String} {rest : List String} {m m' : Module σ} {s s₁ s' : System σ}
      {deeds : List (Deed σ)} {p : Processor σ} {failure : Failure}
      (hf : Finds name depth m s deeds (.ok (some p)) m' s₁)
      (hd : deal name p depth s₁ = some (.error failure, s')) :
      Walks deal deed depth (name :: rest) m s (deeds ++ deed name p) (.error failure) m' s'
  | next {name : String} {rest : List String} {m m₁ m' : Module σ} {s s₁ s₂ s' : System σ}
      {deeds more : List (Deed σ)} {p : Processor σ}
      {answer : Except Failure (List (String × Processor σ))}
      (hf : Finds name depth m s deeds (.ok (some p)) m₁ s₁)
      (hd : deal name p depth s₁ = some (.ok (), s₂))
      (hr : Walks deal deed depth rest m₁ s₂ more answer m' s') :
      Walks deal deed depth (name :: rest) m s (deeds ++ deed name p ++ more)
        (answer.map ((name, p) :: ·)) m' s'

def launch (name : String) (p : Processor σ) : Run σ Outcome := do
  match ← p.start with
  | .error failure =>
    if failure.isDefect then return .error failure
    else return .error (.lifecycle name .start failure)
  | .ok () =>
    Run.trace (.event .info "event processor started" [("processor", name)])
    return .ok ()

inductive Does (depth : ℕ) (m : Module σ) (s : System σ) :
    (use : Use σ) → List (Deed σ) → Except Failure use.Result → Module σ → System σ → Prop
  | start {deeds : List (Deed σ)} {answer : Except Failure (List (String × Processor σ))}
      {m' : Module σ} {s' : System σ}
      (h : Walks launch (fun name p => [.started name p]) depth m.processors.keys m s deeds answer
        m' s') : Does depth m s .start deeds (answer.map fun _ => ()) m' s'
  | shutDown {outcome : Outcome} {s' : System σ}
      (h : shutDownEach m.builtEntries.reverse depth s = some (outcome, s')) :
      Does depth m s .shutDown (m.builtEntries.reverse.map fun entry => .stopped entry.1 entry.2)
        outcome m s'
  | processor {name : String} {deeds : List (Deed σ)}
      {answer : Except Failure (Option (Processor σ))} {m' : Module σ} {s' : System σ}
      (h : Finds name depth m s deeds answer m' s') :
      Does depth m s (.processor name) deeds answer m' s'
  | processorAs {isWanted : Processor σ → Bool} {name : String} {deeds : List (Deed σ)}
      {answer : Except Failure (Option (Processor σ))} {m' : Module σ} {s' : System σ}
      (h : Finds name depth m s deeds answer m' s') :
      Does depth m s (.processorAs isWanted name) deeds (answer.map (·.filter isWanted)) m' s'
  | processorOfGroup {group : String} {deeds : List (Deed σ)}
      {answer : Except Failure (Option (Processor σ))} {m' : Module σ} {s' : System σ}
      (h : Finds (m.names.resolve group) depth m s deeds answer m' s') :
      Does depth m s (.processorOfGroup group) deeds answer m' s'
  | allProcessors {deeds : List (Deed σ)} {answer : Except Failure (List (String × Processor σ))}
      {m' : Module σ} {s' : System σ}
      (h : Walks (fun _ _ => pure (.ok ())) (fun _ _ => []) depth m.processors.keys m s deeds
        answer m' s') : Does depth m s .allProcessors deeds answer m' s'
  | interceptorsOf {name : String} {deeds : List (Deed σ)}
      {answer : Except Failure (Option (Processor σ))} {m' : Module σ} {s' : System σ}
      (h : Finds name depth m s deeds answer m' s') :
      Does depth m s (.interceptorsOf name) deeds
        (answer.map fun found => found.elim [] fun p => (s'.processor p.self.id).chain) m' s'
  | processorNames : Does depth m s .processorNames [] (.ok m.processors.keys) m s
  | groupsOf {name : String} : Does depth m s (.groupsOf name) []
      (.ok (((m.assembly.get? name).getD []).map InvokerSource.group)) m s
  | processorNameOf {group : String} :
      Does depth m s (.processorNameOf group) [] (.ok (m.names.resolve group)) m s
  | sagaConfigurations : Does depth m s .sagaConfigurations [] (.ok m.activeSagas) m s

section Does

variable {name : String} {answer : Except Failure (Option (Processor σ))}

lemma finds_of_processor? (hc : m.configuration = some c)
    (h : processor? name m depth s = some ((answer, m'), s')) :
    ∃ deeds, Finds name depth m s deeds answer m' s' := by
  cases hcell : m.processors.get? name with
  | none =>
    rw [processor?_of_unknown hc hcell] at h
    cases h
    exact ⟨_, .unknown hcell⟩
  | some cell =>
    cases hb : cell.built with
    | some p =>
      have hbuilt := built_of_cell hcell hb
      rw [processor?_of_built hc hbuilt] at h
      cases h
      exact ⟨_, .ready hbuilt⟩
    | none =>
      rw [processor?_of_unbuilt hc hcell hb] at h
      obtain ⟨⟨result, overrides, after⟩, ha, h⟩ := Option.map_eq_some_iff.mp h
      cases result with
      | ok p =>
        cases h
        exact ⟨_, .builds hcell hb ha⟩
      | error failure =>
        cases h
        exact ⟨_, .fails hcell hb ha⟩

lemma Finds.configuration {deeds : List (Deed σ)} (h : Finds name depth m s deeds answer m' s') :
    m'.configuration = m.configuration := by
  cases h <;> rfl

lemma walks_of_obtainAll {names : List String}
    {answer : Except Failure (List (String × Processor σ))} (hc : m.configuration = some c)
    (h : obtainAll names m depth s = some ((answer, m'), s')) :
    ∃ deeds, Walks (fun _ _ => pure (.ok ())) (fun _ _ => []) depth names m s deeds answer m' s' := by
  induction names generalizing m s m' s' answer with
  | nil =>
    cases h
    exact ⟨_, .done⟩
  | cons name rest ih =>
    obtain ⟨found, m₁, s₁, hfound, h⟩ := StateT.bind_eq_some.mp h
    obtain ⟨deeds, hfinds⟩ := finds_of_processor? hc hfound
    have hc₁ : m₁.configuration = some c := hfinds.configuration.trans hc
    rcases found with failure | (_ | p)
    · cases h
      exact ⟨_, .unbuilt hfinds⟩
    · obtain ⟨more, hrest⟩ := ih hc₁ h
      exact ⟨_, .unknown hfinds hrest⟩
    · obtain ⟨others, m₂, s₂, hothers, h⟩ := StateT.bind_eq_some.mp h
      obtain ⟨more, hrest⟩ := ih hc₁ hothers
      cases others <;> cases h <;> exact ⟨_, .next hfinds rfl hrest⟩

lemma walks_of_startAll {names : List String} {outcome : Outcome} (hc : m.configuration = some c)
    (h : startAll names m depth s = some ((outcome, m'), s')) :
    ∃ deeds answer, outcome = Except.map (fun _ => ()) answer ∧
      Walks launch (fun name p => [.started name p]) depth names m s deeds answer m' s' := by
  induction names generalizing m s with
  | nil =>
    cases h
    exact ⟨_, _, rfl, .done⟩
  | cons name rest ih =>
    obtain ⟨found, m₁, s₁, hfound, h⟩ := StateT.bind_eq_some.mp h
    obtain ⟨deeds, hfinds⟩ := finds_of_processor? hc hfound
    have hc₁ : m₁.configuration = some c := hfinds.configuration.trans hc
    rcases found with failure | (_ | p)
    · cases h
      exact ⟨_, .error failure, rfl, .unbuilt hfinds⟩
    · obtain ⟨more, answer, rfl, hrest⟩ := ih hc₁ h
      exact ⟨_, _, rfl, .unknown hfinds hrest⟩
    · obtain ⟨started, s₂, hstart, h⟩ := StateT.lift_bind_eq_some.mp h
      cases started with
      | error failure =>
        have hlaunch : launch name p depth s₁ = some
            (.error (if failure.isDefect then failure else .lifecycle name .start failure), s₂) := by
          refine Run.bind_eq_some.mpr ⟨_, s₂, hstart, ?_⟩
          dsimp only
          split <;> rfl
        have hend : outcome =
            .error (if failure.isDefect then failure else .lifecycle name .start failure) ∧
            m' = m₁ ∧ s' = s₂ := by
          dsimp only at h
          split at h <;> cases h <;> simp [*]
        obtain ⟨rfl, rfl, rfl⟩ := hend
        exact ⟨_, .error _, rfl, .refused hfinds hlaunch⟩
      | ok _ =>
        have hlaunch : launch name p depth s₁ = some (.ok (), _) :=
          Run.bind_eq_some.mpr ⟨_, s₂, hstart, rfl⟩
        obtain ⟨more, answer, rfl, hrest⟩ := ih hc₁ (StateT.trace_bind_eq_some.mp h)
        refine ⟨_, _, ?_, .next hfinds hlaunch hrest⟩
        cases answer <;> rfl

theorem exists_does {use : Use σ} {answer : Except Failure use.Result}
    (hc : m.configuration = some c) (h : use.call m depth s = some ((answer, m'), s')) :
    ∃ deeds, m.Does depth s use deeds answer m' s' := by
  have hconfigured : m.configured = .ok c := by rw [configured, hc]
  have hnames : m.processorNames = .ok m.processors.keys := by
    rw [processorNames, hconfigured]
    rfl
  cases use with
  | start =>
    replace h := StateT.get_bind_eq_some.mp h
    rw [hnames] at h
    obtain ⟨deeds, walked, rfl, hwalks⟩ := walks_of_startAll hc h
    exact ⟨deeds, .start hwalks⟩
  | shutDown =>
    replace h := StateT.get_bind_eq_some.mp h
    obtain ⟨rfl, hdown⟩ := StateT.lift_eq_some.mp h
    exact ⟨_, .shutDown hdown⟩
  | processor name =>
    obtain ⟨deeds, hfinds⟩ := finds_of_processor? hc h
    exact ⟨deeds, .processor hfinds⟩
  | processorAs isWanted name =>
    obtain ⟨found, m₁, s₁, hfound, h⟩ := StateT.bind_eq_some.mp h
    obtain ⟨deeds, hfinds⟩ := finds_of_processor? hc hfound
    cases found <;> cases h <;> exact ⟨deeds, .processorAs hfinds⟩
  | processorOfGroup group =>
    have hname : m.processorNameOf group = .ok (m.names.resolve group) := by
      rw [processorNameOf, hconfigured]
      rfl
    replace h := StateT.get_bind_eq_some.mp h
    rw [hname] at h
    obtain ⟨deeds, hfinds⟩ := finds_of_processor? hc h
    exact ⟨deeds, .processorOfGroup hfinds⟩
  | allProcessors =>
    replace h := StateT.get_bind_eq_some.mp h
    rw [hnames] at h
    obtain ⟨deeds, hwalks⟩ := walks_of_obtainAll hc h
    exact ⟨deeds, .allProcessors hwalks⟩
  | interceptorsOf name =>
    obtain ⟨found, m₁, s₁, hfound, h⟩ := StateT.bind_eq_some.mp h
    obtain ⟨deeds, hfinds⟩ := finds_of_processor? hc hfound
    rcases found with failure | (_ | p) <;> cases h <;> exact ⟨deeds, .interceptorsOf hfinds⟩
  | processorNames =>
    replace h : some ((m.processorNames, m), s) = some ((answer, m'), s') := h
    rw [hnames] at h
    cases h
    exact ⟨_, .processorNames⟩
  | groupsOf name =>
    replace h : some ((m.groupsOf name, m), s) = some ((answer, m'), s') := h
    rw [groupsOf, hconfigured] at h
    cases h
    exact ⟨_, .groupsOf⟩
  | processorNameOf group =>
    replace h : some ((m.processorNameOf group, m), s) = some ((answer, m'), s') := h
    rw [processorNameOf, hconfigured] at h
    cases h
    exact ⟨_, .processorNameOf⟩
  | sagaConfigurations =>
    replace h : some ((m.sagaConfigurations, m), s) = some ((answer, m'), s') := h
    rw [sagaConfigurations, hconfigured] at h
    cases h
    exact ⟨_, .sagaConfigurations⟩

end Does

end Module

end EventProcessing
