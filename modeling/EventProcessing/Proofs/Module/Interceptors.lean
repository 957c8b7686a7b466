import EventProcessing.Proofs.Module.Origins
import EventProcessing.Proofs.Module.Registered

namespace EventProcessing

variable {σ α β : Type} {depth : ℕ} {s s' s₀ s₁ s₂ : System σ} {m m' : Module σ}
  {history before after : List (Change σ)} {name : String} {p : Processor σ}

namespace InterceptorRegistry

variable {registry : InterceptorRegistry σ} {c : Configuration σ}

lemma factoriesOf_register (registry : InterceptorRegistry σ) (other : String)
    (factory : InterceptorFactory σ) :
    (registry.register other factory).factoriesOf name =
      registry.factoriesOf name ++ if other = name then [factory] else [] := by
  unfold register factoriesOf Table.push
  by_cases h : name = other
  · subst h
    simp
  · simp [Table.get?_put_of_ne _ _ h, Ne.symm h]

def always (c : Configuration σ) (factory : InterceptorFactory σ) :
    Program σ (Option (Interceptor σ)) := some <$> factory c

def correlation : InterceptorFactory σ := fun c =>
  Interceptor.correlation c.providers <$> Program.fresh

lemma ran_of_buildChain {chain : List (Interceptor σ)}
    (h : System.run depth (registry.buildChain c name) s = some (chain, s')) :
    ∃ results, Ran s ((registry.factoriesOf name).map (always c) ++
        registry.defaults.map (fun factory => factory c name) ++ [always c correlation])
        results s' ∧ unique chain = unique (results.filterMap id) := by
  obtain ⟨explicit, s₁, hexplicit, h⟩ := System.run_bind_eq_some.mp h
  obtain ⟨defaults, s₂, hdefaults, h⟩ := System.run_bind_eq_some.mp h
  obtain ⟨number, s₃, hnumber, h⟩ := System.run_bind_eq_some.mp h
  cases h
  have hcorrelation : System.run depth (always c correlation) s₂ =
      some (some (Interceptor.correlation c.providers number), s') :=
    System.run_bind_of (System.run_bind_of hnumber)
  have hown := (Ran.of_mapM hexplicit).map some
  rw [List.map_map] at hown
  refine ⟨_, (hown.append (.of_mapM hdefaults)).append (.one hcorrelation), ?_⟩
  rw [unique_concat, unique_unique, ← unique_concat]
  simp [List.filterMap_append]

end InterceptorRegistry

namespace Registration

def interceptorFor? (name : String) : Registration σ → Option (InterceptorFactory σ)
  | .interceptor other factory => if other = name then some factory else none
  | _ => none

def defaultInterceptor? : Registration σ → Option (DefaultInterceptorFactory σ)
  | .defaultInterceptor factory => some factory
  | _ => none

lemma interceptorFor?_eq_some {registration : Registration σ} {factory : InterceptorFactory σ} :
    registration.interceptorFor? name = some factory ↔
      registration = .interceptor name factory := by
  cases registration with
  | interceptor other made =>
    by_cases h : other = name <;> simp [interceptorFor?, h]
  | _ => simp [interceptorFor?]

lemma factoriesOf_enter (registration : Registration σ) (m : Module σ) :
    (registration.enter m).interceptors.factoriesOf name =
      m.interceptors.factoriesOf name ++ (registration.interceptorFor? name).toList := by
  cases registration with
  | interceptor other factory =>
    refine (InterceptorRegistry.factoriesOf_register _ other factory).trans ?_
    by_cases h : other = name <;> simp [interceptorFor?, h]
  | builder label made =>
    rcases enter_builder_cases m label made with h | h <;> rw [h] <;>
      exact (List.append_nil _).symm
  | _ => exact (List.append_nil _).symm

lemma defaults_enter (registration : Registration σ) (m : Module σ) :
    (registration.enter m).interceptors.defaults =
      m.interceptors.defaults ++ registration.defaultInterceptor?.toList := by
  cases registration with
  | defaultInterceptor factory => rfl
  | builder label made =>
    rcases enter_builder_cases m label made with h | h <;> rw [h] <;>
      exact (List.append_nil _).symm
  | _ => exact (List.append_nil _).symm

end Registration

namespace Change

def interceptorsFor (name : String) (history : List (Change σ)) : List (InterceptorFactory σ) :=
  (history.filterMap registration?).filterMap (Registration.interceptorFor? name)

def defaultInterceptors (history : List (Change σ)) : List (DefaultInterceptorFactory σ) :=
  (history.filterMap registration?).filterMap Registration.defaultInterceptor?

def contributions (c : Configuration σ) (name : String) (before after : List (Change σ)) :
    List (Program σ (Option (Interceptor σ))) :=
  (interceptorsFor name before).map (InterceptorRegistry.always c) ++
    (defaultInterceptors before).map (fun factory => factory c name) ++
    [InterceptorRegistry.always c InterceptorRegistry.correlation] ++
    (interceptorsFor name after).map (InterceptorRegistry.always c)

lemma interceptorsFor_register (history : List (Change σ)) (registration : Registration σ) :
    interceptorsFor name (history ++ [.register registration]) =
      interceptorsFor name history ++ (registration.interceptorFor? name).toList := by
  rw [interceptorsFor, registrations_register, List.filterMap_append]
  cases h : registration.interceptorFor? name <;> simp [interceptorsFor, h]

lemma factoriesOf_registered (history : List (Change σ)) :
    (registered history).interceptors.factoriesOf name = interceptorsFor name history := by
  induction history using List.reverseRecOn with
  | nil => rfl
  | append_singleton history change ih =>
    cases change with
    | register registration =>
      rw [registered_register, registration.factoriesOf_enter, ih, interceptorsFor_register]
    | setUp c => rw [registered_setUp, ih, interceptorsFor, interceptorsFor, registrations_setUp]

lemma defaults_registered (history : List (Change σ)) :
    (registered history).interceptors.defaults = defaultInterceptors history := by
  induction history using List.reverseRecOn with
  | nil => rfl
  | append_singleton history change ih =>
    cases change with
    | register registration =>
      rw [registered_register, registration.defaults_enter, ih, defaultInterceptors,
        defaultInterceptors, registrations_register, List.filterMap_append]
      cases h : registration.defaultInterceptor? <;> simp [h]
    | setUp c =>
      rw [registered_setUp, ih, defaultInterceptors, defaultInterceptors, registrations_setUp]

end Change

namespace Module

structure Carries (s₁ : System σ) (programs : List (Program σ (Option (Interceptor σ))))
    (c : Configuration σ) (name : String) (p : Processor σ) (m : Module σ) (s : System σ) :
    Prop where
  sound : m.Sound s
  built : m.Built name p
  configuration : m.configuration = some c
  chain : ∃ results, Ran s₁ programs results s ∧
    (s.processor p.self.id).chain = InterceptorRegistry.unique (results.filterMap id)

namespace Carries

variable {c : Configuration σ} {programs : List (Program σ (Option (Interceptor σ)))}

lemma later (h : Carries s₁ programs c name p m s) (hs : m'.Sound s') (hb : m'.Built name p)
    (hc : m'.configuration = m.configuration) (hn : s.nextId ≤ s'.nextId)
    (hchain : (s'.processor p.self.id).chain = (s.processor p.self.id).chain) :
    Carries s₁ programs c name p m' s' where
  sound := hs
  built := hb
  configuration := hc.trans h.configuration
  chain := by
    obtain ⟨results, hran, hunique⟩ := h.chain
    exact ⟨results, hran.later hn, hchain.trans hunique⟩

lemma passes (h : Carries s₁ programs c name p m s) (hp : s.Passes s') :
    Carries s₁ programs c name p m s' :=
  h.later (h.sound.passes hp) h.built rfl hp.nextId (hp.chain _)

lemma allows : Allows (Carries s₁ programs c name p) where
  beside h hp := h.passes hp
  consult h hc := by
    have hs := allows_sound.consult h.sound hc
    obtain ⟨-, -, rfl, rfl⟩ | ⟨c', value, o', -, -, hrun, rfl⟩ := consult_cases hc
    · exact h
    · have hp := Inquiry.passes hrun
      exact h.later hs h.built rfl hp.nextId (hp.chain _)
  lookUp {m s other _ _ _ _} h hl := by
    have hs := allows_sound.lookUp h.sound hl
    have hlooks := looksUp_of_processor? h.sound.ordered hl
    cases hlooks with
    | unconfigured | unknown | known => exact h
    | @fails order _ _ _ _ _ hb =>
      have hp := trans_of _ (order.passes_announced s) hb.passes
      exact h.later hs h.built rfl hp.nextId (hp.chain _)
    | @builds order q _ _ ho hcell hb =>
      obtain ⟨chain, hreceives, hnew, -, -⟩ := hb.made
      have hp := order.passes_announced s
      -- The new processor takes a number that `p` cannot have.
      have hne : p.self.id ≠ q.self.id := by
        have := h.sound.numbered h.built
        have := hp.nextId
        have := hnew.after
        omega
      have hother : name ≠ other := by
        rintro rfl
        have hbuilt := h.built
        rw [Built, hcell] at hbuilt
        cases hbuilt
      refine h.later hs (built_put.mpr (.inr ⟨hother, h.built⟩)) rfl
        (hp.nextId.trans hreceives.nextId) ?_
      rw [hreceives.others _ hne, hp.chain]

lemma register {registration : Registration σ} (h : Carries s₁ programs c name p m s)
    (hb : p.IsBuiltIn) (hc : registration.perform m depth s = some (((), m'), s')) :
    Carries s₁ (programs ++ (registration.interceptorFor? name).toList.map
      (InterceptorRegistry.always c)) c name p m' s' := by
  have hchange : (Change.register registration).perform m depth s = some (((), m'), s') := hc
  have hsound := h.sound.change hchange
  obtain ⟨rfl, heffect⟩ := Registration.perform_cases hc
  have hbuilt := (built_congr (registration.processors_enter m) name p).mpr h.built
  have hconfiguration := registration.configuration_enter m
  cases heffect with
  | none hr hp =>
    have hnone : registration.interceptorFor? name = none := by
      refine Option.eq_none_iff_forall_ne_some.mpr fun factory hf => ?_
      obtain hn | hn := hr name factory (Registration.interceptorFor?_eq_some.mp hf)
      · cases hn.symm.trans h.configuration
      · exact hn p h.built
    rw [hnone, Option.toList_none, List.map_nil, List.append_nil]
    exact h.later hsound hbuilt hconfiguration hp.nextId (hp.chain _)
  | @applied other factory c' q interceptor s₁ s₂ hc' hb' h₁ hf h₂ =>
    have hp := trans_of _ h₁ (System.passes_of_run hf)
    by_cases hother : other = name
    · subst hother
      obtain rfl : c = c' := Option.some.inj (h.configuration.symm.trans hc')
      obtain rfl : p = q := Option.some.inj (h.built.symm.trans hb')
      obtain ⟨results, hran, hunique⟩ := h.chain
      have hone : Ran s₁ [InterceptorRegistry.always c factory] [some interceptor] s₂ :=
        .one (System.run_bind_of hf)
      refine ⟨hsound, hbuilt, hconfiguration.trans h.configuration, results ++ [some interceptor],
        ?_, ?_⟩
      · rw [Registration.interceptorFor?_eq_some.mpr rfl]
        exact (hran.later h₁.nextId).append (hone.later h₂.nextId)
      · rw [h₂.chain, hp.chain, hunique, Processor.extend_of_isBuiltIn hb, List.filterMap_append]
        exact (InterceptorRegistry.unique_concat _ _).symm
    · have hne : p.self.id ≠ q.self.id := fun hid => hother (h.sound.apart h.built hb' hid).symm
      have hnone : (Registration.interceptor other factory).interceptorFor? name = none :=
        if_neg hother
      rw [hnone, Option.toList_none, List.map_nil, List.append_nil]
      refine h.later hsound hbuilt hconfiguration (hp.nextId.trans h₂.nextId) ?_
      rw [h₂.others _ hne, hp.chain]

lemma reaches {m₂ : Module σ} {s₂ : System σ} (h : Carries s₁ programs c name p m₂ s₂)
    (hb : p.IsBuiltIn) (ha : Reaches m₂ s₂ after m s) (hn : Change.NoSetUp after) :
    Carries s₁ (programs ++ (Change.interceptorsFor name after).map
      (InterceptorRegistry.always c)) c name p m s := by
  induction ha with
  | init => rwa [Change.interceptorsFor, List.filterMap_nil, List.filterMap_nil, List.map_nil,
      List.append_nil]
  | beside _ hp ih => exact (ih hn).passes hp
  | query _ hq ih => exact allows.of_query (ih hn) hq
  | @change after _ _ _ _ change _ _ hc ih =>
    cases change with
    | setUp c => exact absurd (by simp) (hn c)
    | register registration =>
      have hstep := (ih hn.of_append).register hb hc
      rwa [List.append_assoc, ← List.map_append, ← Change.interceptorsFor_register] at hstep

end Carries

lemma carries_of_builds {order : ProcessorOrder σ} {o' : Overrides σ} (h : m.Sound s)
    (ho : m.Orders name order) (hcell : m.processors.get? name = some order.cell)
    (hb : order.Builds m.interceptors depth m.overrides (order.announced s) (.ok p) o' s')
    (hp : p.IsBuiltIn) :
    Carries s ((m.interceptors.factoriesOf name).map
        (InterceptorRegistry.always order.configuration) ++
        m.interceptors.defaults.map (fun factory => factory order.configuration name) ++
        [InterceptorRegistry.always order.configuration InterceptorRegistry.correlation])
      order.configuration name p
      { m with
        overrides := o'
        processors := m.processors.put name { order.cell with built := some p } } s' where
  sound := h.builds ho hcell hb
  built := built_put.mpr (.inl ⟨rfl, rfl⟩)
  configuration := ho.configuration
  chain := by
    cases hb with
    | succeeds hmade hchain hr =>
      obtain ⟨hnew, -, -⟩ := ProcessorOrder.made_of_inquiry hmade
      rw [ho.named] at hchain
      obtain ⟨results, hran, hunique⟩ := InterceptorRegistry.ran_of_buildChain hchain
      have hbefore := order.passes_announced s
      have hpasses := Inquiry.passes hmade
      -- The chain starts out empty, since no processor had this number.
      have hempty := hbefore.vacant h.vacant p.self.id hnew.after
      rw [← hpasses.chain, ← (System.passes_of_run hchain).chain] at hempty
      refine ⟨results, (hran.earlier (hbefore.nextId.trans hpasses.nextId)).later hr.nextId, ?_⟩
      rw [hr.chain, hempty, Processor.extend_of_isBuiltIn hp]
      exact hunique

lemma interceptorsOf_of_built {c : Configuration σ} (hc : m.configuration = some c)
    (hp : m.Built name p) :
    interceptorsOf name m depth s = some ((.ok (s.processor p.self.id).chain, m), s) :=
  StateT.bind_eq_some.mpr ⟨_, _, _, processor?_of_built hc hp,
    StateT.lift_bind_eq_some.mpr ⟨_, _, rfl, rfl⟩⟩

/-- The chain of a processor is made of what its own factories and the default ones came to that
were registered before it was built, of one interceptor for correlation data, and of what its own
factories came to that were registered since; of those that are the same, the first one is kept. -/
theorem interceptors_of_built (hv : s₀.Vacant) (h : Reaches {} s₀ history m s)
    (hp : m.Built name p) (hb : p.IsBuiltIn) :
    ∃ before after m₁ s₁ c results chain, history = before ++ after ∧
      Origin s₀ before after name p m₁ s₁ m s ∧ m.configuration = some c ∧
      Ran s₁ (Change.contributions c name before after) results s ∧
      chain = (results.filterMap id).eraseDupsBy Interceptor.same ∧
      (∀ depth, interceptorsOf name m depth s = some ((.ok chain, m), s)) ∧
      (chain.map fun interceptor => interceptor.self.id).Nodup ∧
      ∀ interceptor, some interceptor ∈ results →
        ∃ kept ∈ chain, kept.self.id = interceptor.self.id := by
  obtain ⟨before, after, m₁, s₁, rfl, ho⟩ := h.hasOrigins hv name p hp
  obtain ⟨depth, order, o', s₂, hsound, horders, hcell, hbuilds, ha⟩ := ho.exists_builds hv
  have hcarries := (carries_of_builds hsound horders hcell hbuilds hb).reaches hb ha ho.noSetUp
  rw [ho.reached.interceptors_eq hv, Change.factoriesOf_registered,
    Change.defaults_registered] at hcarries
  obtain ⟨results, hran, hchain⟩ := hcarries.chain
  refine ⟨before, after, m₁, s₁, order.configuration, results, _, rfl, ho,
    hcarries.configuration, hran, hchain.trans (InterceptorRegistry.unique_eq _),
    fun _ => interceptorsOf_of_built hcarries.configuration hp, ?_, fun interceptor hi => ?_⟩
  · rw [hchain]
    exact InterceptorRegistry.nodup_unique _
  · rw [hchain]
    exact InterceptorRegistry.exists_mem_unique (List.mem_filterMap.mpr ⟨_, hi, rfl⟩)

end Module

namespace Sample

def named (name : String) : InterceptorFactory Unit := fun _ => do
  return { self := ← Instance.make name, enter := fun _ => return .stop (.ok ()) }

def intercepted : List (Change Unit) :=
  [.register (.defaultInterceptor fun c _ => some <$> named "default" c),
    .register (.interceptor "ledger" (named "early"))] ++ oneSaga

def late : List (Change Unit) :=
  [.register (.interceptor "other" (named "other")),
    .register (.interceptor "ledger" (named "late"))]

def interceptedEarly : Module Unit × System Unit :=
  state intercepted ["ledger"] (by decide +kernel)

def interceptedLate : Module Unit × System Unit :=
  (Module.following? 1 (calls late []) interceptedEarly.1 interceptedEarly.2).get
    (by decide +kernel)

lemma reaches_interceptedLate :
    Module.Reaches {} blank (intercepted ++ late) interceptedLate.1 interceptedLate.2 := by
  have hearly : Module.Reaches {} blank intercepted interceptedEarly.1 interceptedEarly.2 :=
    reaches_state _ _ _
  have hlate : Module.following? 1 (calls late []) interceptedEarly.1 interceptedEarly.2 =
      some interceptedLate := (Option.some_get _).symm
  exact hearly.following hlate

end Sample

theorem Module.early_and_late_interceptors : ∃ p before after m₁ s₁ c results chain,
    Sample.interceptedLate.1.Built "ledger" p ∧ p.IsBuiltIn ∧
    Sample.intercepted ++ Sample.late = before ++ after ∧
    Origin Sample.blank before after "ledger" p m₁ s₁ Sample.interceptedLate.1
      Sample.interceptedLate.2 ∧
    Ran s₁ (Change.contributions c "ledger" before after) results Sample.interceptedLate.2 ∧
    interceptorsOf "ledger" Sample.interceptedLate.1 1 Sample.interceptedLate.2 =
      some ((.ok chain, Sample.interceptedLate.1), Sample.interceptedLate.2) ∧
    chain.map (fun interceptor => interceptor.self.name) =
      ["early", "default", "correlation", "late"] := by
  have hpipeline : (((Sample.interceptedLate.1.processors.get? "ledger").bind
      Component.built).bind Processor.pipeline?).isSome = true := by decide +kernel
  obtain ⟨pipeline, hpipeline⟩ := Option.isSome_iff_exists.mp hpipeline
  obtain ⟨p, hp, hpipeline⟩ := Option.bind_eq_some_iff.mp hpipeline
  have hb := Processor.isBuiltIn_of_pipeline? hpipeline
  have hnames : (interceptorsOf "ledger" Sample.interceptedLate.1 1 Sample.interceptedLate.2).bind
      (fun answer => answer.1.1.toOption.map fun chain =>
        chain.map fun interceptor => interceptor.self.name) =
      some ["early", "default", "correlation", "late"] := by decide +kernel
  obtain ⟨before, after, m₁, s₁, c, results, chain, he, ho, -, hran, -, hchain, -⟩ :=
    interceptors_of_built Sample.vacant_blank Sample.reaches_interceptedLate hp hb
  rw [hchain 1] at hnames
  exact ⟨p, before, after, m₁, s₁, c, results, chain, hp, hb, he, ho, hran, hchain 1,
    Option.some.inj hnames⟩

end EventProcessing
