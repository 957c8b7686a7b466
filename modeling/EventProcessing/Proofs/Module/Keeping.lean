import EventProcessing.Proofs.Module.Operations

/-! What holds between a module and its system as long as it is not set up while something runs:
each built processor is in order, and nothing is left of those that were dropped. -/

namespace EventProcessing.Module

variable {σ : Type} {depth : ℕ} {s s' : System σ} {m m' : Module σ} {n₀ : ℕ}

def Running (m : Module σ) (s : System σ) (name : String) : Prop :=
  ∃ p, m.Built name p ∧ p.Runs s

structure Kept (n₀ : ℕ) (m : Module σ) (s : System σ) : Prop extends Sound m s where
  nodup : m.processors.keys.Nodup
  floor : n₀ ≤ s.nextId
  distinct : ∀ bus, (s.bus bus).Distinct
  fresh : ∀ id, s.nextId ≤ id → s.activity id = {}
  own : ∀ {name p}, m.Built name p → n₀ ≤ p.self.id ∧ p.InOrder s
  lost : ∀ id, n₀ ≤ id → (∀ name p, m.Built name p → p.self.id ≠ id) → s.Deserted id

lemma built_unique {name : String} {p q : Processor σ} (hp : m.Built name p)
    (hq : m.Built name q) : p = q :=
  Option.some.inj (hp.symm.trans hq)

lemma Running.runs {name : String} {p : Processor σ} (h : m.Running s name)
    (hb : m.Built name p) : p.Runs s := by
  obtain ⟨q, hq, hr⟩ := h
  rwa [built_unique hb hq]

namespace Kept

lemma above {name : String} {p : Processor σ} (h : m.Kept n₀ s) (hb : m.Built name p) :
    n₀ ≤ p.self.id :=
  (h.own hb).1

lemma inOrder {name : String} {p : Processor σ} (h : m.Kept n₀ s) (hb : m.Built name p) :
    p.InOrder s :=
  (h.own hb).2

lemma renew (h : m.Kept n₀ s) (hs : s.Spares s') (hsound : m'.Sound s')
    (hn : m'.processors.keys.Nodup)
    (hown : ∀ {name p}, m'.Built name p → n₀ ≤ p.self.id ∧ p.InOrder s')
    (hlost : ∀ id, n₀ ≤ id → (∀ name p, m'.Built name p → p.self.id ≠ id) → s.Deserted id) :
    m'.Kept n₀ s' where
  toSound := hsound
  nodup := hn
  floor := h.floor.trans hs.nextId
  distinct bus := hs.distinct bus (h.distinct bus)
  fresh id hid := (hs.activity id).trans (h.fresh id (hs.nextId.trans hid))
  own := hown
  lost id hid hne := (hlost id hid hne).spares hs

lemma carry (h : m.Kept n₀ s) (hs : s.Spares s') (hsound : m'.Sound s')
    (hp : m'.processors = m.processors) : m'.Kept n₀ s' :=
  h.renew hs hsound (hp ▸ h.nodup)
    (fun hb => (h.own ((built_congr hp _ _).mp hb)).imp_right fun hin => hin.spares hs)
    fun id hid hne => h.lost id hid fun name p hb => hne name p ((built_congr hp _ _).mpr hb)

lemma spares (h : m.Kept n₀ s) (hs : s.Spares s') (hp : s.Passes s') : m.Kept n₀ s' :=
  h.carry hs (h.passes hp) rfl

lemma alters {name : String} {p : Processor σ} (h : m.Kept n₀ s) (hb : m.Built name p)
    (ha : p.Alters s s') (hin : p.InOrder s') (hp : s.Passes s') : m.Kept n₀ s' where
  toSound := h.passes hp
  nodup := h.nodup
  floor := h.floor.trans ha.nextId
  distinct bus := ha.distinct bus (h.distinct bus)
  fresh id hid := by
    have hbelow := h.numbered hb
    have hnext := ha.nextId
    rw [ha.activity id (by omega)]
    exact h.fresh id (hnext.trans hid)
  own {other q} hq := by
    refine ⟨h.above hq, ?_⟩
    by_cases hid : q.self.id = p.self.id
    · obtain rfl := h.apart hq hb hid
      rwa [built_unique hq hb]
    · exact (h.inOrder hq).alters ha hid
  lost id hid hne := ha.deserted (hne name p hb).symm (h.lost id hid hne)

lemma newcomer {p : Processor σ} (h : m.Kept n₀ s) (hs : s.Spares s')
    (hafter : s.nextId ≤ p.self.id) : p.InOrder s' ∧ ¬ p.Runs s' := by
  have hnew : ∀ name q, m.Built name q → q.self.id ≠ p.self.id := fun name q hq => by
    have hbelow := h.numbered hq
    omega
  have hidle : ¬ p.Runs s := Processor.not_runs_of_inactive (h.fresh _ hafter)
  have hdeserted := h.lost _ (h.floor.trans hafter) hnew
  refine ⟨(Processor.inOrder_of_deserted hdeserted hidle).spares hs, ?_⟩
  rwa [Processor.runs_congr (hs.activity _)]

end Kept

structure Grows (m : Module σ) (s : System σ) (m' : Module σ) (s' : System σ) : Prop where
  keys : m'.processors.keys = m.processors.keys
  configuration : m'.configuration = m.configuration
  built : ∀ {name p}, m.Built name p → m'.Built name p
  running : ∀ name, m'.Running s' name ↔ m.Running s name
  spares : s.Spares s'

lemma Grows.trans {m'' : Module σ} {s'' : System σ} (h : m.Grows s m' s')
    (h' : m'.Grows s' m'' s'') : m.Grows s m'' s'' where
  keys := h'.keys.trans h.keys
  configuration := h'.configuration.trans h.configuration
  built hb := h'.built (h.built hb)
  running name := (h'.running name).trans (h.running name)
  spares := trans_of _ h.spares h'.spares

lemma running_congr (hp : m'.processors = m.processors) (hs : s.Spares s') (name : String) :
    m'.Running s' name ↔ m.Running s name :=
  exists_congr fun p => and_congr (built_congr hp name p) (Processor.runs_congr (hs.activity _))

lemma grows_of_eq (hp : m'.processors = m.processors) (hc : m'.configuration = m.configuration)
    (hs : s.Spares s') : m.Grows s m' s' where
  keys := by rw [hp]
  configuration := hc
  built hb := (built_congr hp _ _).mpr hb
  running := running_congr hp hs
  spares := hs

lemma grows_refl (m : Module σ) (s : System σ) : m.Grows s m s := grows_of_eq rfl rfl (refl s)

variable {name : String} {answer : Except Failure (Option (Processor σ))}

lemma Kept.builds {order : ProcessorOrder σ} {p : Processor σ} {o' : Overrides σ}
    (h : m.Kept n₀ s) (ho : m.Orders name order)
    (hcell : m.processors.get? name = some order.cell)
    (hb : order.Builds m.interceptors depth m.overrides (order.announced s) (.ok p) o' s')
    (hs : s.Spares s') :
    let m' : Module σ := { m with
      overrides := o'
      processors := m.processors.put name { order.cell with built := some p } }
    m'.Kept n₀ s' ∧ m.Grows s m' s' := by
  intro m'
  obtain ⟨chain, hreceives, hnew, -, -⟩ := hb.made
  have hafter : s.nextId ≤ p.self.id := (order.passes_announced s).nextId.trans hnew.after
  obtain ⟨hin, hidle⟩ := h.newcomer hs hafter
  have hunbuilt : ∀ q, ¬ m.Built name q := fun q hq => by
    rw [Built, hcell] at hq
    cases hq
  have hmine : m'.Built name p := built_put.mpr (.inl ⟨rfl, rfl⟩)
  have hgrows : ∀ {other q}, m.Built other q → m'.Built other q := fun {other q} hq => by
    refine built_put.mpr (.inr ⟨?_, hq⟩)
    rintro rfl
    exact hunbuilt q hq
  have hkeys : m'.processors.keys = m.processors.keys := Table.keys_put_of_get? hcell
  refine ⟨h.renew hs (h.toSound.builds ho hcell hb) (hkeys ▸ h.nodup) (fun {other q} hq => ?_)
    fun id hid hne => ?_, ⟨hkeys, rfl, hgrows, fun other => ?_, hs⟩⟩
  · obtain ⟨rfl, rfl⟩ | ⟨-, hq⟩ := built_put.mp hq
    · exact ⟨h.floor.trans hafter, hin⟩
    · exact ⟨h.above hq, (h.inOrder hq).spares hs⟩
  · exact h.lost id hid fun other q hq => hne other q (hgrows hq)
  · constructor
    · rintro ⟨q, hq, hr⟩
      obtain ⟨rfl, rfl⟩ | ⟨-, hq⟩ := built_put.mp hq
      · exact absurd hr hidle
      · exact ⟨q, hq, (Processor.runs_congr (hs.activity _)).mp hr⟩
    · rintro ⟨q, hq, hr⟩
      exact ⟨q, hgrows hq, (Processor.runs_congr (hs.activity _)).mpr hr⟩

lemma Kept.lookUp (h : m.Kept n₀ s)
    (hl : processor? name m depth s = some ((answer, m'), s')) :
    m'.Kept n₀ s' ∧ m.Grows s m' s' := by
  have hs := spares_of_processor? h.ordered hl
  cases looksUp_of_processor? h.ordered hl with
  | unconfigured | unknown | known => exact ⟨h, grows_refl m s⟩
  | @fails order _ o' _ ho hcell hb =>
    have hsound := h.passes (trans_of _ (order.passes_announced s) hb.passes)
    exact ⟨h.carry hs (hsound.congr rfl rfl rfl h.handlers h.sagas) rfl, grows_of_eq rfl rfl hs⟩
  | builds ho hcell hb => exact h.builds ho hcell hb hs

lemma Kept.consult {α : Type} {inquiry : Inquiry σ α} {answer : Except Failure α}
    (h : m.Kept n₀ s) (hc : consult inquiry m depth s = some ((answer, m'), s')) :
    m'.Kept n₀ s' ∧ m.Grows s m' s' := by
  have hs := (sparing_consult inquiry).spares hc
  obtain ⟨-, -, rfl, rfl⟩ | ⟨c, value, o', -, -, hrun, rfl⟩ := consult_cases hc
  · exact ⟨h, grows_refl _ _⟩
  · have hsound := h.passes (Inquiry.passes hrun)
    exact ⟨h.carry hs (hsound.congr rfl rfl rfl h.handlers h.sagas) rfl, grows_of_eq rfl rfl hs⟩

lemma answers_kept (n₀ : ℕ) (m : Module σ) (s : System σ) :
    Answers fun m' s' => m'.Kept n₀ s' ∧ m.Grows s m' s' where
  consult h hc := (h.1.consult hc).imp id h.2.trans
  lookUp h hl := (h.1.lookUp hl).imp id h.2.trans

lemma Kept.register {registration : Registration σ} (h : m.Kept n₀ s)
    (hr : registration.perform m depth s = some (((), m'), s')) :
    m'.Kept n₀ s' ∧ m.Grows s m' s' := by
  have hs := (sparing_perform registration).spares hr
  have hperform : (Change.register registration).perform m depth s = some (((), m'), s') := hr
  have hsound : m'.Sound s' := h.toSound.change hperform
  obtain ⟨rfl, -⟩ := Registration.perform_cases hr
  have hprocessors := registration.processors_enter m
  exact ⟨h.carry hs hsound hprocessors,
    grows_of_eq hprocessors (registration.configuration_enter m) hs⟩

lemma nodup_keys_settled {c : Configuration σ} {handlers : List (EventHandler σ)}
    {sagas : List (Saga σ)} {overrides : Overrides σ} (m : Module σ) :
    (m.settled c handlers sagas overrides).processors.keys.Nodup := by
  have hassembly : (m.settled c handlers sagas overrides).assembly =
    .ofAssigned (handlers.map fun handler => (handler, m.selectors.sort.groupOf handler)) sagas
      m.names := rfl
  rw [keys_settled, hassembly, Assembly.ofAssigned_eq]
  exact Assembly.parts_tabulate.nodup

def Rests (m : Module σ) (s : System σ) : Prop :=
  ∀ name p, m.Built name p → p.IsBuiltIn → ¬ p.Runs s

lemma Grows.rests (h : m.Grows s m' s') (hr : m.Rests s) : m'.Rests s' := by
  intro name q hq hbuiltIn hruns
  obtain ⟨p, hb, hp⟩ := (h.running name).mp ⟨q, hq, hruns⟩
  obtain rfl := built_unique (h.built hb) hq
  exact hr name p hb hbuiltIn hp

lemma Kept.deserted (h : m.Kept n₀ s) (hr : m.Rests s) {id : ℕ} (hid : n₀ ≤ id) :
    s.Deserted id := by
  by_cases hbuilt : ∃ name p, m.Built name p ∧ p.self.id = id
  · obtain ⟨name, p, hb, rfl⟩ := hbuilt
    exact (h.inOrder hb).deserted (hr name p hb)
  · exact h.lost id hid fun name p hb hp => hbuilt ⟨name, p, hb, hp⟩

lemma Kept.setUp {c : Configuration σ} (h : m.Kept n₀ s) (hr : m.Rests s)
    (hc : setUp c m depth s = some (((), m'), s')) :
    m'.Kept n₀ s' ∧ ∀ name p, ¬ m'.Built name p := by
  have hs := (sparing_setUp c).spares hc
  have hperform : (Change.setUp c).perform m depth s = some (((), m'), s') := hc
  have hsound : m'.Sound s' := h.toSound.change hperform
  obtain ⟨handlers, sagas, overrides, s₁, s₂, -, -, -, -, -, rfl⟩ :=
    setUp_cases h.handlers h.sagas hc
  have hunbuilt : ∀ name p, ¬ (m.settled c handlers sagas overrides).Built name p :=
    not_built_settled m
  exact ⟨h.renew hs hsound (nodup_keys_settled m) (fun hb => absurd hb (hunbuilt _ _))
    fun id hid _ => h.deserted hr hid, hunbuilt⟩

end EventProcessing.Module
