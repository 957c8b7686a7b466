import EventProcessing.Proofs.Module.Keeping

namespace EventProcessing.Module

variable {σ : Type} {depth : ℕ} {s s' : System σ} {m m' : Module σ} {n₀ : ℕ}

section Start

inductive Fails (name : String) (depth : ℕ) (m : Module σ) (s : System σ) :
    Failure → Module σ → System σ → Prop
  | unbuilt {order : ProcessorOrder σ} {failure : Failure} {o' : Overrides σ} {s' : System σ}
      (ho : m.Orders name order)
      (hb : order.Builds m.interceptors depth m.overrides (order.announced s) (.error failure)
        o' s') : Fails name depth m s (.processorBuild name failure) { m with overrides := o' } s'
  | unstarted {p : Processor σ} {failure : Failure} {m' : Module σ} {s₁ s' : System σ}
      (hl : m.LooksUp name depth s (.ok (some p)) m' s₁)
      (hs : p.start depth s₁ = some (.error failure, s')) :
      Fails name depth m s
        (if failure.isDefect then failure else .lifecycle name .start failure) m' s'

inductive Launches (names : List String) (depth : ℕ) (m : Module σ) (s : System σ) :
    Outcome → Module σ → System σ → Prop
  | all {m' : Module σ} {s' : System σ}
      (hr : ∀ name, m'.Running s' name ↔ name ∈ names ∨ m.Running s name) :
      Launches names depth m s (.ok ()) m' s'
  | upTo {before after : List String} {name : String} {failure : Failure} {m₁ m' : Module σ}
      {s₁ s' : System σ} (hn : names = before ++ name :: after)
      (hb : startAll before m depth s = some ((.ok (), m₁), s₁))
      (hf : Fails name depth m₁ s₁ failure m' s')
      (hr : ∀ other, m'.Running s' other ↔ other ∈ before ∨ m.Running s other) :
      Launches names depth m s (.error failure) m' s'

def Undisturbed (m : Module σ) (s : System σ) (m' : Module σ) (s' : System σ) : Prop :=
  ∀ name p, m.Built name p → m'.Built name p ∧
    (p.IsBuiltIn → p.Runs s → p.Undisturbed s s')

variable {name : String} {p : Processor σ} {outcome : Outcome}

lemma running_iff_runs (hb : m.Built name p) : m.Running s name ↔ p.Runs s :=
  ⟨fun h => h.runs hb, fun h => ⟨p, hb, h⟩⟩

lemma Kept.running_alters (h : m.Kept n₀ s) (hb : m.Built name p) (ha : p.Alters s s')
    {other : String} (hne : other ≠ name) : m.Running s' other ↔ m.Running s other := by
  refine exists_congr fun q => and_congr_right fun hq => Processor.runs_congr ?_
  exact ha.activity _ fun hid => hne (h.apart hq hb hid)

lemma Kept.running_begun (h : m.Kept n₀ s) (hb : m.Built name p)
    (hp : p.Begun (.ok ()) s s') (other : String) :
    m.Running s' other ↔ other = name ∨ m.Running s other := by
  by_cases ho : other = name
  · subst ho
    simp only [true_or, iff_true]
    exact ⟨p, hb, hp.runs rfl⟩
  · rw [h.running_alters hb hp.alters ho]
    simp only [ho, false_or]

lemma Kept.running_failed {failure : Failure} (h : m.Kept n₀ s) (hb : m.Built name p)
    (hp : p.Begun (.error failure) s s') (other : String) :
    m.Running s' other ↔ m.Running s other := by
  by_cases ho : other = name
  · subst ho
    rw [running_iff_runs hb, running_iff_runs hb, hp.fails failure rfl]
  · exact h.running_alters hb hp.alters ho

lemma Kept.undisturbed_begun (h : m.Kept n₀ s) (hb : m.Built name p)
    (hp : p.Begun outcome s s') : m.Undisturbed s m s' := by
  intro other q hq
  refine ⟨hq, fun hbuiltIn hr => ?_⟩
  by_cases hid : q.self.id = p.self.id
  · obtain rfl := h.apart hq hb hid
    obtain rfl := built_unique hq hb
    rw [hp.again hbuiltIn hr]
    exact Processor.undisturbed_of_spares (refl s)
  · exact hp.alters.undisturbed hid

lemma Grows.undisturbed (h : m.Grows s m' s') : m.Undisturbed s m' s' :=
  fun _ _ hb => ⟨h.built hb, fun _ _ => Processor.undisturbed_of_spares h.spares⟩

lemma Undisturbed.trans {m'' : Module σ} {s'' : System σ} (h : m.Undisturbed s m' s')
    (h' : m'.Undisturbed s' m'' s'') : m.Undisturbed s m'' s'' := by
  intro name p hb
  obtain ⟨hb', hp⟩ := h name p hb
  obtain ⟨hb'', hp'⟩ := h' name p hb'
  refine ⟨hb'', fun hbuiltIn hr => ?_⟩
  have hundisturbed := hp hbuiltIn hr
  exact hundisturbed.trans (hp' hbuiltIn ((Processor.runs_congr hundisturbed.activity).mpr hr))

lemma Launches.cons {names : List String} {m₁ : Module σ} {s₁ s₂ : System σ} {line : TraceLine}
    (hl : processor? name m depth s = some ((.ok (some p), m₁), s₁))
    (hp : p.start depth s₁ = some (.ok (), s₂))
    (hline : line = .event .info "event processor started" [("processor", name)])
    (hr : ∀ other, m₁.Running (s₂.addTrace line) other ↔ other = name ∨ m.Running s other)
    (h : Launches names depth m₁ (s₂.addTrace line) outcome m' s') :
    Launches (name :: names) depth m s outcome m' s' := by
  cases h with
  | all hrest =>
    refine .all fun other => ?_
    rw [hrest, hr, List.mem_cons]
    tauto
  | @upTo before after _ _ m₂ _ s₃ _ hn hb hf hrest =>
    have hbefore : startAll (name :: before) m depth s = some ((.ok (), m₂), s₃) := by
      refine StateT.bind_eq_some.mpr ⟨_, m₁, s₁, hl, ?_⟩
      refine StateT.lift_bind_eq_some.mpr ⟨_, s₂, hp, StateT.trace_bind_eq_some.mpr ?_⟩
      rwa [← hline]
    refine .upTo (congrArg (name :: ·) hn) hbefore hf fun other => ?_
    rw [hrest, hr, List.mem_cons]
    tauto

lemma Launches.failed {rest : List String} {failure : Failure}
    (hf : Fails name depth m s failure m' s')
    (hr : ∀ other, m'.Running s' other ↔ m.Running s other) :
    Launches (name :: rest) depth m s (.error failure) m' s' := by
  have hnil : name :: rest = [] ++ name :: rest := rfl
  refine .upTo hnil rfl hf fun other => ?_
  simp only [List.not_mem_nil, false_or]
  exact hr other

namespace LooksUp

lemma built (h : m.LooksUp name depth s (.ok (some p)) m' s') : m'.Built name p := by
  cases h with
  | known hb => exact hb
  | builds => exact built_put.mpr (.inl ⟨rfl, rfl⟩)

lemma not_mem_keys (h : m.LooksUp name depth s (.ok none) m' s') :
    name ∉ m.processors.keys := by
  cases h with
  | unknown hnone =>
    intro hm
    obtain ⟨cell, hcell⟩ := (Table.mem_keys_iff _ _).mp hm
    rw [hnone] at hcell
    cases hcell

lemma failing {failure : Failure} (h : m.LooksUp name depth s (.error failure) m' s')
    (hc : m.configuration ≠ none) : Fails name depth m s failure m' s' := by
  cases h with
  | unconfigured hnone => exact absurd hnone hc
  | fails ho _ hb => exact .unbuilt ho hb

end LooksUp

lemma Kept.begun (h : m.Kept n₀ s) (hb : m.Built name p)
    (hs : p.start depth s = some (outcome, s')) : m.Kept n₀ s' ∧ p.Begun outcome s s' := by
  have hbegun : p.Begun outcome s s' := Processor.begun_of_start (h.inOrder hb) hs
  exact ⟨h.alters hb hbegun.alters hbegun.inOrder (p.passes_start _ _ _ _ hs), hbegun⟩

theorem Kept.startAll {names : List String} (h : m.Kept n₀ s) (hc : m.configuration ≠ none)
    (hn : ∀ name ∈ names, name ∈ m.processors.keys)
    (hs : startAll names m depth s = some ((outcome, m'), s')) :
    m'.Kept n₀ s' ∧ Launches names depth m s outcome m' s' ∧ m.Undisturbed s m' s' := by
  -- One name after the other: each look-up and each start keeps what holds of the module.
  induction names generalizing m s with
  | nil =>
    cases hs
    exact ⟨h, .all fun name => by simp, (grows_refl _ _).undisturbed⟩
  | cons name rest ih =>
    obtain ⟨found, m₁, s₁, hfound, hs⟩ := StateT.bind_eq_some.mp hs
    obtain ⟨h₁, hgrows⟩ := h.lookUp hfound
    have hlooks := looksUp_of_processor? h.ordered hfound
    rcases found with failure | (_ | p)
    · cases hs
      exact ⟨h₁, .failed (hlooks.failing hc) hgrows.running, hgrows.undisturbed⟩
    · exact absurd (hn name List.mem_cons_self) hlooks.not_mem_keys
    obtain ⟨started, s₂, hstart, hs⟩ := StateT.lift_bind_eq_some.mp hs
    have hb : m₁.Built name p := hlooks.built
    obtain ⟨h₂, hbegun⟩ := h₁.begun hb hstart
    have hfirst := hgrows.undisturbed.trans (h₁.undisturbed_begun hb hbegun)
    cases started with
    | error failure =>
      have hend : outcome =
          .error (if failure.isDefect then failure else .lifecycle name .start failure) ∧
          m' = m₁ ∧ s' = s₂ := by
        dsimp only at hs
        split at hs <;> cases hs <;> simp [*]
      obtain ⟨rfl, rfl, rfl⟩ := hend
      refine ⟨h₂, .failed (.unstarted hlooks hstart) fun other => ?_, hfirst⟩
      exact (h₁.running_failed hb hbegun other).trans (hgrows.running other)
    | ok _ =>
      replace hs := StateT.trace_bind_eq_some.mp hs
      have htrace := s₂.spares_addTrace
        (.event .info "event processor started" [("processor", name)])
      have hnames : ∀ other ∈ rest, other ∈ m₁.processors.keys := fun other ho => by
        rw [hgrows.keys]
        exact hn other (List.mem_cons_of_mem _ ho)
      obtain ⟨h', hrest, hothers⟩ := ih (h₂.spares htrace (s₂.passes_addTrace _))
        (hgrows.configuration ▸ hc) hnames hs
      refine ⟨h', hrest.cons hfound hstart rfl fun other => ?_, hfirst.trans ?_⟩
      · rw [running_congr rfl htrace, h₁.running_begun hb hbegun, hgrows.running]
      · exact (grows_of_eq rfl rfl htrace).undisturbed.trans hothers

theorem Kept.start (h : m.Kept n₀ s) (hc : m.configuration ≠ none)
    (hs : start m depth s = some ((outcome, m'), s')) :
    m'.Kept n₀ s' ∧ Launches m.processors.keys depth m s outcome m' s' ∧
      m.Undisturbed s m' s' := by
  replace hs := StateT.get_bind_eq_some.mp hs
  obtain ⟨c, hconfiguration⟩ := Option.ne_none_iff_exists'.mp hc
  have hnames : m.processorNames = .ok m.processors.keys := by
    rw [processorNames, configured, hconfiguration]
    rfl
  rw [hnames] at hs
  exact h.startAll hc (fun _ hn => hn) hs

lemma start_of_unconfigured (hc : m.configuration = none)
    (hs : start m depth s = some ((outcome, m'), s')) :
    outcome = .error .notInitialized ∧ m' = m ∧ s' = s := by
  replace hs := StateT.get_bind_eq_some.mp hs
  have hnames : m.processorNames = .error .notInitialized := by
    rw [processorNames, configured, hc]
    rfl
  rw [hnames] at hs
  cases hs
  exact ⟨rfl, rfl, rfl⟩

end Start

section ShutDown

def builtEntries (m : Module σ) : List (String × Processor σ) :=
  m.processors.filterMap fun entry => entry.2.built.map fun processor => (entry.1, processor)

lemma mem_builtEntries_iff (hn : m.processors.keys.Nodup) {name : String} {p : Processor σ} :
    (name, p) ∈ m.builtEntries ↔ m.Built name p := by
  constructor
  · intro hm
    obtain ⟨⟨other, cell⟩, hcell, he⟩ := List.mem_filterMap.mp hm
    obtain ⟨q, hq, he⟩ := Option.map_eq_some_iff.mp he
    cases he
    rw [Built, Table.get?_of_mem hn hcell]
    exact hq
  · intro hb
    obtain ⟨cell, hcell, hbuilt⟩ := Option.bind_eq_some_iff.mp hb
    refine List.mem_filterMap.mpr ⟨(name, cell), Table.mem_of_get? hcell, ?_⟩
    rw [hbuilt]
    rfl

lemma shutDownEach_cons {name : String} {p : Processor σ} {rest : List (String × Processor σ)}
    {outcome : Outcome} (h : shutDownEach ((name, p) :: rest) depth s = some (outcome, s')) :
    ∃ first middle line others, p.shutDown depth s = some (first, middle) ∧
      shutDownEach rest depth (middle.addTrace line) = some (others, s') := by
  obtain ⟨first, middle, hfirst, h⟩ := Run.bind_eq_some.mp h
  cases first with
  | ok _ =>
    obtain ⟨_, _, htrace, h⟩ := Run.bind_eq_some.mp h
    cases htrace
    exact ⟨_, middle, _, _, hfirst, h⟩
  | error failure =>
    obtain ⟨_, _, htrace, h⟩ := Run.bind_eq_some.mp h
    cases htrace
    obtain ⟨others, last, hrest, h⟩ := Run.bind_eq_some.mp h
    cases h
    exact ⟨_, middle, _, _, hfirst, hrest⟩

lemma Kept.shutDownEach {entries : List (String × Processor σ)} {outcome : Outcome}
    (h : m.Kept n₀ s) (hb : ∀ entry ∈ entries, m.Built entry.1 entry.2)
    (hs : shutDownEach entries depth s = some (outcome, s')) :
    m.Kept n₀ s' ∧ ∀ name p, m.Built name p → p.IsBuiltIn → p.Runs s' →
      p.Runs s ∧ (name, p) ∉ entries := by
  induction entries generalizing s outcome with
  | nil =>
    cases hs
    exact ⟨h, fun _ _ _ _ hr => ⟨hr, List.not_mem_nil⟩⟩
  | cons entry rest ih =>
    obtain ⟨first, q⟩ := entry
    have hq : m.Built first q := hb _ List.mem_cons_self
    obtain ⟨stopped, middle, line, others, hstop, hrest⟩ := shutDownEach_cons hs
    have hended : q.Ended stopped s middle :=
      Processor.ended_of_shutDown h.distinct (h.inOrder hq) hstop
    have htrace := middle.spares_addTrace line
    have hmiddle := (h.alters hq hended.alters hended.inOrder
      (q.passes_shutDown _ _ _ _ hstop)).spares htrace (middle.passes_addTrace line)
    obtain ⟨h', hothers⟩ := ih hmiddle (fun entry he => hb entry (List.mem_cons_of_mem _ he)) hrest
    refine ⟨h', fun name p hp hbuiltIn hr => ?_⟩
    obtain ⟨hr, hnot⟩ := hothers name p hp hbuiltIn hr
    rw [Processor.runs_congr (htrace.activity _)] at hr
    by_cases hid : p.self.id = q.self.id
    · obtain rfl := h.apart hp hq hid
      obtain rfl := built_unique hp hq
      exact absurd hr (hended.stops hbuiltIn).2
    · rw [Processor.runs_congr (hended.alters.activity _ hid)] at hr
      refine ⟨hr, fun hm => ?_⟩
      rcases List.mem_cons.mp hm with he | hm
      · cases he
        exact hid rfl
      · exact hnot hm

theorem Kept.shutDown {outcome : Outcome} (h : m.Kept n₀ s)
    (hs : shutDown m depth s = some ((outcome, m'), s')) :
    m' = m ∧ m.Kept n₀ s' ∧ m.Rests s' := by
  replace hs := StateT.get_bind_eq_some.mp hs
  obtain ⟨rfl, hdown⟩ := StateT.lift_eq_some.mp hs
  have hbuilt : ∀ entry ∈ m'.builtEntries.reverse, m'.Built entry.1 entry.2 := fun entry he =>
    (mem_builtEntries_iff h.nodup).mp (List.mem_reverse.mp he)
  obtain ⟨h', hothers⟩ := h.shutDownEach hbuilt hdown
  refine ⟨rfl, h', fun name p hb hbuiltIn hr => (hothers name p hb hbuiltIn hr).2 ?_⟩
  exact List.mem_reverse.mpr ((mem_builtEntries_iff h.nodup).mpr hb)

lemma exists_shutDownEach {entries : List (String × Processor σ)}
    (hb : ∀ entry ∈ entries, entry.2.IsBuiltIn) (depth : ℕ) (s : System σ) :
    ∃ s', shutDownEach entries depth s = some (.ok (), s') := by
  induction entries generalizing s with
  | nil => exact ⟨s, rfl⟩
  | cons entry rest ih =>
    obtain ⟨middle, hfirst⟩ := Processor.exists_shutDown (hb _ List.mem_cons_self) depth s
    obtain ⟨s', hrest⟩ := ih (fun entry he => hb entry (List.mem_cons_of_mem _ he))
      (middle.addTrace (.event .info "event processor shut down" [("processor", entry.1)]))
    exact ⟨s', Run.bind_eq_some.mpr ⟨_, middle, hfirst, hrest⟩⟩

theorem Kept.exists_shutDown (h : m.Kept n₀ s) (hb : ∀ name p, m.Built name p → p.IsBuiltIn)
    (depth : ℕ) : ∃ s', Module.shutDown m depth s = some ((.ok (), m), s') := by
  have hbuiltIn : ∀ entry ∈ m.builtEntries.reverse, entry.2.IsBuiltIn := fun entry he =>
    hb _ _ ((mem_builtEntries_iff h.nodup).mp (List.mem_reverse.mp he))
  obtain ⟨s', hs⟩ := exists_shutDownEach hbuiltIn depth s
  exact ⟨s', StateT.get_bind_eq_some.mpr (StateT.lift_eq_some.mpr ⟨rfl, hs⟩)⟩

end ShutDown

end EventProcessing.Module
