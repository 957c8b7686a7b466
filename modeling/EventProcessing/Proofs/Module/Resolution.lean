import EventProcessing.Proofs.Module.Origins
import EventProcessing.Proofs.Module.Registered

namespace EventProcessing

variable {σ α : Type} {depth : ℕ} {s s' s₀ : System σ} {m m' : Module σ} {axis : Axis}
  {key : String}

namespace OverrideTable

variable {table : OverrideTable σ α} {entered : Option String} {factory : Factory σ α}

lemma built_serving_enter {value : α} (h : (table.serving key).built = some value)
    (hk : entered = some key → table.hasOverride key = true) :
    ((table.enter entered factory).serving key).built = some value := by
  cases entered with
  | none =>
    unfold serving enter at *
    dsimp only
    cases hget : table.keyed.get? key with
    | some part => rwa [hget] at h
    | none => rwa [hget] at h
  | some other =>
    unfold serving enter at *
    dsimp only
    by_cases ho : key = other
    · subst ho
      obtain ⟨part, hpart⟩ := Option.isSome_iff_exists.mp (hk rfl)
      rw [hpart] at h
      rw [Table.get?_put_self, hpart]
      exact h
    · rwa [Table.get?_put_of_ne _ _ ho]

lemma hasOverride_enter : (table.enter entered factory).hasOverride key = true ↔
    table.hasOverride key = true ∨ entered = some key := by
  cases entered with
  | none => simp [hasOverride, enter]
  | some other =>
    by_cases ho : key = other
    · subst ho
      simp [hasOverride, enter, Table.contains]
    · simp [hasOverride, enter, Table.contains, Table.get?_put_of_ne _ _ ho, Ne.symm ho]

lemma hasOverride_reset : table.reset.hasOverride key = table.hasOverride key := by
  have hget : table.reset.keyed.get? key = (table.keyed.get? key).map Component.reset :=
    Table.get?_mapValues Component.reset table.keyed key
  rw [hasOverride, Table.contains, hget, Option.isSome_map]
  rfl

end OverrideTable

namespace Overrides

variable {o o' : Overrides σ} {other : Axis} {entered : Option String}
  {factory : Factory σ (other.Value σ)}

def hasOwn (o : Overrides σ) (axis : Axis) (key : String) : Bool := (o.table axis).hasOverride key

lemma Settles.hasOwn_eq (h : o.Settles o') : o'.hasOwn axis key = o.hasOwn axis key := by
  have hreset : (o'.table axis).reset = (o.table axis).reset :=
    congrArg (fun o : Overrides σ => o.table axis) h.reset
  rw [hasOwn, hasOwn, ← OverrideTable.hasOverride_reset, hreset, OverrideTable.hasOverride_reset]

lemma hasOwn_enter : (o.enter other entered factory).hasOwn axis key = true ↔
    o.hasOwn axis key = true ∨ axis = other ∧ entered = some key := by
  unfold hasOwn enter
  by_cases ha : axis = other
  · subst ha
    simp [OverrideTable.hasOverride_enter]
  · simp [table_setTable_of_ne _ _ ha, ha]

lemma holds_enter {value : axis.Value σ} (h : o.Holds axis key value)
    (hk : axis = other → entered = some key → o.hasOwn axis key = true) :
    (o.enter other entered factory).Holds axis key value := by
  unfold Holds enter at *
  by_cases ha : axis = other
  · subst ha
    rw [table_setTable_self]
    exact OverrideTable.built_serving_enter h (hk rfl)
  · rwa [table_setTable_of_ne _ _ ha]

end Overrides

namespace Registration

variable {registration : Registration σ}

lemma overrides_enter_cases (registration : Registration σ) (m : Module σ) :
    (∃ other entered factory, registration = .override other entered factory ∧
        (registration.enter m).overrides = m.overrides.enter other entered factory) ∨
      (∀ other entered factory, registration ≠ .override other entered factory) ∧
        (registration.enter m).overrides.table = m.overrides.table := by
  cases registration with
  | override other entered factory => exact .inl ⟨other, entered, factory, rfl, rfl⟩
  | builder name made =>
    rcases enter_builder_cases m name made with h | h <;> rw [h] <;>
      exact .inr ⟨by rintro _ _ _ ⟨⟩, rfl⟩
  | _ => exact .inr ⟨by rintro _ _ _ ⟨⟩, rfl⟩

lemma hasOwn_enter : (registration.enter m).overrides.hasOwn axis key = true ↔
    m.overrides.hasOwn axis key = true ∨
      ∃ factory, registration = .override axis (some key) factory := by
  obtain ⟨other, entered, factory, rfl, h⟩ | ⟨hne, h⟩ := overrides_enter_cases registration m
  · rw [h, Overrides.hasOwn_enter]
    constructor
    · rintro (hown | ⟨rfl, rfl⟩)
      · exact .inl hown
      · exact .inr ⟨factory, rfl⟩
    · rintro (hown | ⟨_, he⟩)
      · exact .inl hown
      · cases he
        exact .inr ⟨rfl, rfl⟩
  · have hout : ¬ ∃ factory, registration = .override axis (some key) factory :=
      fun ⟨factory, he⟩ => hne _ _ _ he
    rw [Overrides.hasOwn, h, or_iff_left hout]
    rfl

lemma holds_enter {value : axis.Value σ} (h : m.overrides.Holds axis key value)
    (hk : ∀ factory, registration = .override axis (some key) factory →
      m.overrides.hasOwn axis key = true) :
    (registration.enter m).overrides.Holds axis key value := by
  obtain ⟨other, entered, factory, rfl, he⟩ | ⟨-, he⟩ := overrides_enter_cases registration m
  · rw [he]
    refine Overrides.holds_enter h fun ha hentered => ?_
    subst ha
    subst hentered
    exact hk factory rfl
  · rwa [Overrides.Holds, he]

end Registration

namespace Change

variable {history more : List (Change σ)}

lemma Overridden.append_left (h : Overridden history axis key) :
    Overridden (history ++ more) axis key :=
  have ⟨factory, hf⟩ := h
  ⟨factory, List.mem_append_left _ hf⟩

lemma overridden_register {registration : Registration σ} :
    Overridden (history ++ [.register registration]) axis key ↔ Overridden history axis key ∨
      ∃ factory, registration = .override axis (some key) factory := by
  simp only [Overridden, List.mem_append, List.mem_singleton, Change.register.injEq]
  constructor
  · rintro ⟨factory, h | rfl⟩
    · exact .inl ⟨factory, h⟩
    · exact .inr ⟨factory, rfl⟩
  · rintro (⟨factory, h⟩ | ⟨factory, rfl⟩)
    · exact ⟨factory, .inl h⟩
    · exact ⟨factory, .inr rfl⟩

lemma hasOwn_registered (history : List (Change σ)) :
    (registered history).overrides.hasOwn axis key = true ↔ Overridden history axis key := by
  induction history using List.reverseRecOn with
  | nil => simp [registered, Overrides.hasOwn, OverrideTable.hasOverride, OverrideTable.make,
      Table.contains, Overridden]
  | append_singleton history change ih =>
    cases change with
    | register registration =>
      rw [registered_register, Registration.hasOwn_enter, ih, overridden_register]
    | setUp c =>
      rw [registered_setUp, ih]
      simp [Overridden]

end Change

namespace Module

def Reports (m : Module σ) (s : System σ) (axis : Axis) (key : String) (value : axis.Value σ) :
    Prop :=
  ∀ depth, consult (Inquiry.resolve axis key) m depth s = some ((.ok value, m), s)

/-- A query resolves the key, or the build of a processor does, whether or not it comes to one. -/
inductive Resolves (m : Module σ) (s : System σ) (axis : Axis) (key : String)
    (value : axis.Value σ) : Module σ → System σ → Prop
  | queried {depth : ℕ} {c : Configuration σ} {α : Type} {inquiry : Inquiry σ α}
      {answer : Except Failure α} {m' : Module σ} {s' : System σ}
      (hc : m.configuration = some c)
      (hh : inquiry.Hears c depth axis key value m.overrides s)
      (h : consult inquiry m depth s = some ((answer, m'), s')) :
      Resolves m s axis key value m' s'
  | building {depth : ℕ} {name : String} {order : ProcessorOrder σ}
      {answer : Except Failure (Option (Processor σ))} {m' : Module σ} {s' : System σ}
      (ho : m.Orders name order) (hcell : m.processors.get? name = some order.cell)
      (hh : order.inquiry.Hears order.configuration depth axis key value m.overrides
        (order.announced s))
      (h : processor? name m depth s = some ((answer, m'), s')) : Resolves m s axis key value m' s'

lemma reports_of_holds {c : Configuration σ} {value : axis.Value σ}
    (hc : m.configuration = some c) (hv : m.overrides.Holds axis key value) :
    m.Reports s axis key value := by
  intro depth
  exact consult_of_run hc (System.run_bind_of (Overrides.resolve_of_holds hv))

theorem Reaches.stays {m₂ : Module σ} {s₂ : System σ} {after : List (Change σ)}
    (h : Reaches m₂ s₂ after m s) (hs : m₂.Sound s₂) (hn : Change.NoSetUp after) :
    m.configuration = m₂.configuration ∧ m.assembly = m₂.assembly := by
  induction h with
  | init => exact ⟨rfl, rfl⟩
  | beside _ _ ih => exact ih hn
  | query h hq ih =>
    obtain ⟨hc, ha⟩ := ih hn
    obtain ⟨-, hpersists⟩ := (allows_persists _).of_query ⟨h.sound hs, .refl _⟩ hq
    exact ⟨hpersists.configuration.trans hc, hpersists.assembly.trans ha⟩
  | @change after _ _ _ _ change _ _ hc ih =>
    obtain ⟨hconfiguration, ha⟩ := ih hn.of_append
    cases change with
    | setUp c => exact absurd (by simp) (hn c)
    | register registration =>
      obtain ⟨rfl, -⟩ := Registration.perform_cases hc
      exact ⟨(registration.configuration_enter _).trans hconfiguration,
        (registration.assembly_enter _).trans ha⟩

theorem Reaches.holds {m₂ : Module σ} {s₂ : System σ} {after : List (Change σ)}
    {value : axis.Value σ} (h : Reaches m₂ s₂ after m s) (hs : m₂.Sound s₂)
    (hn : Change.NoSetUp after) (hv : m₂.overrides.Holds axis key value)
    (hk : Change.Overridden after axis key → m₂.overrides.hasOwn axis key = true) :
    m.overrides.Holds axis key value ∧
      (m₂.overrides.hasOwn axis key = true → m.overrides.hasOwn axis key = true) := by
  induction h with
  | init => exact ⟨hv, id⟩
  | beside _ _ ih => exact ih hn hk
  | query h hq ih =>
    obtain ⟨hholds, hown⟩ := ih hn hk
    obtain ⟨-, hpersists⟩ := (allows_persists _).of_query ⟨h.sound hs, .refl _⟩ hq
    exact ⟨hpersists.overrides.holds hholds, fun ho => by
      rw [hpersists.overrides.hasOwn_eq, hown ho]⟩
  | @change after _ _ _ _ change _ _ hc ih =>
    obtain ⟨hholds, hown⟩ := ih hn.of_append fun ho => hk ho.append_left
    cases change with
    | setUp c => exact absurd (by simp) (hn c)
    | register registration =>
      obtain ⟨rfl, -⟩ := Registration.perform_cases hc
      refine ⟨Registration.holds_enter hholds ?_,
        fun ho => Registration.hasOwn_enter.mpr (.inl (hown ho))⟩
      rintro factory rfl
      exact hown (hk ⟨factory, by simp⟩)

lemma Reaches.hasOwn_iff {history : List (Change σ)} (h : Reaches {} s₀ history m s)
    (hv : s₀.Vacant) :
    m.overrides.hasOwn axis key = true ↔ Change.Overridden history axis key := by
  have hreset : m.bare.overrides = (Change.registered history).bare.overrides :=
    congrArg Module.overrides (h.bare_eq hv)
  have hm : m.bare.overrides.hasOwn axis key = m.overrides.hasOwn axis key :=
    OverrideTable.hasOverride_reset
  have hr : (Change.registered history).bare.overrides.hasOwn axis key =
      (Change.registered history).overrides.hasOwn axis key := OverrideTable.hasOverride_reset
  rw [← hm, hreset, hr, Change.hasOwn_registered]

lemma Resolves.sound {value : axis.Value σ} (h : m.Resolves s axis key value m' s')
    (hs : m.Sound s) : m'.Sound s' := by
  cases h with
  | queried _ _ h => exact allows_sound.consult hs h
  | building _ _ _ h => exact allows_sound.lookUp hs h

lemma Resolves.persists {value : axis.Value σ} (h : m.Resolves s axis key value m' s')
    (hs : m.Sound s) : m.Persists m' := by
  cases h with
  | queried _ _ h => exact persists_of_consult h
  | building _ _ _ h => exact persists_of_looksUp (looksUp_of_processor? hs.ordered h)

lemma Resolves.holds {value : axis.Value σ} (h : m.Resolves s axis key value m' s') :
    m'.overrides.Holds axis key value ∧ ∃ c, m'.configuration = some c := by
  cases h with
  | @queried _ c _ _ _ _ _ hc hh h =>
    obtain ⟨hn, -⟩ | ⟨c', answer, o', hc', -, hrun, rfl⟩ := consult_cases h
    · cases hn.symm.trans hc
    · obtain rfl : c = c' := Option.some.inj (hc.symm.trans hc')
      exact ⟨hh.holds hrun, c, hc⟩
  | building ho hcell hh h =>
    obtain ⟨hlooks, result, hbuilds⟩ := builds_of_processor? ho hcell h
    refine ⟨?_, _, (persists_of_looksUp hlooks).configuration.trans ho.configuration⟩
    cases hbuilds with
    | fails hrun | succeeds hrun => exact hh.holds hrun

/-- Between two set-ups, the first answer for a key is the answer from then on, to queries as well
as to the builds of processors; and so a processor works with what is reported for its name and its
groups. The one exception is a key that has no override of its own when it is resolved, and gets
one afterwards. -/
theorem resolved_until_first_override (hv : s₀.Vacant) {before : List (Change σ)}
    (h : Reaches {} s₀ before m s) :
    (∀ {axis key} {value : axis.Value σ} {m₂ s₂}, m.Resolves s axis key value m₂ s₂ →
      ∀ {after m' s'}, Reaches m₂ s₂ after m' s' → Change.NoSetUp after →
        (Change.Overridden after axis key → Change.Overridden before axis key) →
          m'.Reports s' axis key value) ∧
    ∀ name p, m.Built name p → ∃ earlier after m₁ s₁ sources, before = earlier ++ after ∧
      Origin s₀ earlier after name p m₁ s₁ m s ∧ m.assembly.get? name = some sources ∧
      p.name = name ∧ p.Wired (fun axis key value =>
        (Change.Overridden after axis key → Change.Overridden earlier axis key) →
          m.Reports s axis key value) sources := by
  have hsound := h.sound (.init hv)
  constructor
  · intro axis key value m₂ s₂ hr after m' s' ha hn hk
    obtain ⟨hholds, c, hc⟩ := hr.holds
    have hown : Change.Overridden after axis key → m₂.overrides.hasOwn axis key = true :=
      fun ho => by rw [(hr.persists hsound).overrides.hasOwn_eq, (h.hasOwn_iff hv).mpr (hk ho)]
    exact reports_of_holds (((ha.stays (hr.sound hsound) hn).1).trans hc)
      (ha.holds (hr.sound hsound) hn hholds hown).1
  · intro name p hp
    obtain ⟨earlier, after, m₁, s₁, rfl, ho⟩ := h.hasOrigins hv name p hp
    obtain ⟨depth, order, o', s₂, hsound₁, horders, hcell, hb, ha⟩ := ho.exists_builds hv
    have hsound₂ := hsound₁.builds horders hcell hb
    obtain ⟨chain, -, -, hname, hwired⟩ := hb.made
    obtain ⟨hconfiguration, hassembly⟩ := ha.stays hsound₂ ho.noSetUp
    refine ⟨earlier, after, m₁, s₁, order.sources, rfl, ho, ?_, hname.trans horders.named,
      hwired.mono fun axis key value hholds hk => ?_⟩
    · exact hassembly ▸ horders.sources
    · have hown : Change.Overridden after axis key → o'.hasOwn axis key = true := fun hover => by
        rw [hb.settles.hasOwn_eq, (ho.reached.hasOwn_iff hv).mpr (hk hover)]
      exact reports_of_holds (hconfiguration.trans horders.configuration)
        (ha.holds hsound₂ ho.noSetUp hholds hown).1

lemma exists_resolves {c : Configuration σ} {answer : Except Failure (axis.Value σ)}
    (hc : m.configuration = some c)
    (h : consult (Inquiry.resolve axis key) m depth s = some ((answer, m'), s')) :
    ∃ value, answer = .ok value ∧ m.Resolves s axis key value m' s' := by
  obtain ⟨hn, -⟩ | ⟨c', value, o', hc', rfl, hrun, -⟩ := consult_cases h
  · cases hn.symm.trans hc
  · obtain ⟨⟨made, o₁⟩, s₁, hmade, hdone⟩ := System.run_bind_eq_some.mp hrun
    cases hdone
    exact ⟨value, rfl, .queried hc' (.now hmade) h⟩

end Module

namespace Sample

def ledgerInUse : Module Unit × System Unit := state oneSaga ["ledger"] (by decide +kernel)

def otherTokens (key : Option String) : Change Unit :=
  .register (.override .tokenStore key fun _ => .inMemory <$> Program.fresh)

end Sample

namespace Module

theorem default_tokens_stay : ∃ p value m₂ s₂ m' s', Sample.ledgerInUse.1.Built "ledger" p ∧
    p.name = "ledger" ∧
    Sample.ledgerInUse.1.Resolves Sample.ledgerInUse.2 .tokenStore "ledger" value m₂ s₂ ∧
    Reaches m₂ s₂ [Sample.otherTokens none] m' s' ∧ m'.Reports s' .tokenStore "ledger" value := by
  have hbuilt : ((Sample.ledgerInUse.1.processors.get? "ledger").bind Component.built).isSome =
      true := by decide +kernel
  have hconfigured : Sample.ledgerInUse.1.configuration.isSome = true := by decide +kernel
  have hruns : ((consult (Inquiry.resolve .tokenStore "ledger") Sample.ledgerInUse.1 1
      Sample.ledgerInUse.2).bind fun r =>
        (Sample.otherTokens none).perform r.1.2 1 r.2).isSome = true := by decide +kernel
  obtain ⟨p, hp⟩ := Option.isSome_iff_exists.mp hbuilt
  obtain ⟨c, hc⟩ := Option.isSome_iff_exists.mp hconfigured
  obtain ⟨⟨⟨_, m'⟩, s'⟩, hrun⟩ := Option.isSome_iff_exists.mp hruns
  obtain ⟨⟨⟨answer, m₂⟩, s₂⟩, hconsult, hchange⟩ := Option.bind_eq_some_iff.mp hrun
  obtain ⟨value, -, hresolves⟩ := exists_resolves hc hconsult
  have hreached : Reaches {} Sample.blank Sample.oneSaga Sample.ledgerInUse.1
      Sample.ledgerInUse.2 := Sample.reaches_state _ _ _
  obtain ⟨hreports, hwired⟩ := resolved_until_first_override Sample.vacant_blank hreached
  obtain ⟨-, -, -, -, -, -, -, -, hname, -⟩ := hwired "ledger" p hp
  have hafter : Reaches m₂ s₂ [Sample.otherTokens none] m' s' := .change .init hchange
  refine ⟨p, value, m₂, s₂, m', s', hp, hname, hresolves, hafter, hreports hresolves hafter ?_ ?_⟩
  · rintro _ (_ | ⟨_, ⟨⟩⟩)
  · rintro ⟨factory, _ | ⟨_, ⟨⟩⟩⟩

theorem first_override_takes_over :
    ¬ ∀ (s₀ : System Unit) before m s axis key (value : axis.Value Unit) m₂ s₂ after m' s',
      s₀.Vacant → Reaches {} s₀ before m s → m.Resolves s axis key value m₂ s₂ →
        Reaches m₂ s₂ after m' s' → Change.NoSetUp after → m'.Reports s' axis key value := by
  intro hall
  obtain ⟨m, s, hbefore, hc, m₂, s₂, hfirst, m', s', hchange, m₃, s₃, hsecond⟩ : ∃ m s,
      following? 1 (Sample.calls Sample.oneSaga []) {} Sample.blank = some (m, s) ∧
      m.configuration = some (Sample.configuration 0) ∧
      ∃ m₂ s₂, consult (Inquiry.resolve .tokenStore "ledger") m 1 s =
        some ((.ok (.inMemory 0), m₂), s₂) ∧
      ∃ m' s', (Sample.otherTokens (some "ledger")).perform m₂ 1 s₂ = some (((), m'), s') ∧
      ∃ m₃ s₃, consult (Inquiry.resolve .tokenStore "ledger") m' 1 s' =
        some ((.ok (.inMemory 1), m₃), s₃) :=
    ⟨_, _, rfl, rfl, _, _, rfl, _, _, rfl, _, _, rfl⟩
  obtain ⟨_, ⟨⟩, hresolves⟩ := exists_resolves hc hfirst
  have hstays := hall _ Sample.oneSaga m s _ _ _ m₂ s₂ [Sample.otherTokens (some "ledger")] m' s'
    Sample.vacant_blank (Reaches.init.following hbefore) hresolves (.change .init hchange)
    (by rintro _ (_ | ⟨_, ⟨⟩⟩)) 1
  have hanswers := hstays.symm.trans hsecond
  cases hanswers

end Module

end EventProcessing
