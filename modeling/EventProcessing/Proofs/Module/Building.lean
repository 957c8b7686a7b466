import EventProcessing.Proofs.Module.LookUps

namespace EventProcessing

variable {σ α β : Type} {depth : ℕ} {s s' s₁ s₂ : System σ} {c : Configuration σ}
  {o o' : Overrides σ}

/-- These programs are run one after the other and come to these values. Other things may happen
between them. -/
inductive Ran (s : System σ) : List (Program σ α) → List α → System σ → Prop
  | nil {s' : System σ} (h : s.nextId ≤ s'.nextId) : Ran s [] [] s'
  | snoc {programs : List (Program σ α)} {values : List α} {program : Program σ α} {value : α}
      {s₁ s₂ s₃ : System σ} {depth : ℕ} (h : Ran s programs values s₁)
      (hr : System.run depth program s₁ = some (value, s₂)) (hn : s₂.nextId ≤ s₃.nextId) :
      Ran s (programs ++ [program]) (values ++ [value]) s₃

namespace Ran

variable {programs more : List (Program σ α)} {values others : List α} {program : Program σ α}
  {value : α}

lemma later (h : Ran s programs values s₁) (hn : s₁.nextId ≤ s₂.nextId) :
    Ran s programs values s₂ := by
  cases h with
  | nil h => exact .nil (h.trans hn)
  | snoc h hr hn' => exact .snoc h hr (hn'.trans hn)

lemma append (h : Ran s programs values s₁) (h' : Ran s₁ more others s₂) :
    Ran s (programs ++ more) (values ++ others) s₂ := by
  induction h' with
  | nil hn =>
    rw [List.append_nil, List.append_nil]
    exact h.later hn
  | snoc _ hr hn ih =>
    rw [← List.append_assoc, ← List.append_assoc]
    exact .snoc ih hr hn

lemma earlier (hn : s.nextId ≤ s₁.nextId) (h : Ran s₁ programs values s₂) :
    Ran s programs values s₂ :=
  (nil hn).append h

lemma within (h : Ran s₁ programs values s₂) (hb : s.nextId ≤ s₁.nextId)
    (ha : s₂.nextId ≤ s'.nextId) : Ran s programs values s' :=
  (h.later ha).earlier hb

lemma one (h : System.run depth program s = some (value, s')) : Ran s [program] [value] s' :=
  .snoc (.nil le_rfl) h le_rfl

lemma of_mapM {f : β → Program σ α} {items : List β}
    (h : System.run depth (items.mapM f) s = some (values, s')) :
    Ran s (items.map f) values s' := by
  induction items generalizing s values with
  | nil =>
    cases h
    exact .nil le_rfl
  | cons item rest ih =>
    rw [List.mapM_cons] at h
    obtain ⟨first, s₁, hfirst, h⟩ := System.run_bind_eq_some.mp h
    obtain ⟨others, s₂, hothers, h⟩ := System.run_bind_eq_some.mp h
    cases h
    exact (one hfirst).append (ih hothers)

lemma map (f : α → β) (h : Ran s programs values s') :
    Ran s (programs.map (f <$> ·)) (values.map f) s' := by
  induction h with
  | nil hn => exact .nil hn
  | snoc _ hr hn ih =>
    rw [List.map_append, List.map_append]
    exact .snoc ih (System.run_bind_of hr) hn

end Ran

abbrev Belonging (σ : Type) := (axis : Axis) → String → axis.Value σ → Prop

structure Pipeline.Wired (R : Belonging σ) (name : String) (pipeline : Pipeline σ) : Prop where
  errorHandler : R .errorHandler name pipeline.errorHandler
  rollback : R .rollbackRule name pipeline.rollback
  transactions : R .transactionManager name pipeline.transactions

def InvokerSource.Wired (R : Belonging σ) : InvokerSource σ → Invoker σ → Prop
  | .handlers name members, .group group =>
    group.handlers = members ∧ R .listenerErrorHandler name group.errorHandler ∧
      R .sequencingPolicy name group.policy
  | .handlers _ _, _ => False
  | .saga _, _ => True

def InvokerSource.Managed (s s' : System σ) : InvokerSource σ → Invoker σ → Prop
  | .handlers _ _, _ => True
  | .saga kept, delegate => Ran s [kept.manager] [delegate] s'

def Processor.pipeline? (p : Processor σ) : Option (Pipeline σ) :=
  match p.kind with
  | .subscribing pipeline _ => some pipeline
  | .tracking t => some t.pipeline
  | .custom _ => none

lemma Processor.isBuiltIn_of_pipeline? {p : Processor σ} {pipeline : Pipeline σ}
    (h : p.pipeline? = some pipeline) : p.IsBuiltIn := by
  intro custom hk
  rw [pipeline?, hk] at h
  cases h

lemma Processor.isSome_pipeline? {p : Processor σ} (h : p.IsBuiltIn) :
    p.pipeline?.isSome = true := by
  unfold pipeline?
  cases hk : p.kind with
  | custom custom => exact absurd hk (h custom)
  | subscribing | tracking => rfl

structure Processor.Wired (R : Belonging σ) (sources : List (InvokerSource σ)) (p : Processor σ) :
    Prop where
  delegates : ∃ delegates, p.invoker = .all delegates ∧
    List.Forall₂ (InvokerSource.Wired R) sources delegates
  pipeline : ∀ pipeline, p.pipeline? = some pipeline → pipeline.Wired R p.name
  tokens : ∀ t, p.tracking? = some t → R .tokenStore p.name t.tokens

def Processor.componentType (p : Processor σ) : String :=
  if p.isSubscribing then Pipeline.subscribingType else Pipeline.trackingType

structure Processor.Supplied (monitors : MonitorLookup σ) (s s' : System σ)
    (sources : List (InvokerSource σ)) (p : Processor σ) : Prop where
  managers : ∃ delegates, p.invoker = .all delegates ∧
    List.Forall₂ (InvokerSource.Managed s s') sources delegates
  monitor : ∀ pipeline, p.pipeline? = some pipeline →
    Ran s [monitors p.componentType p.name] [pipeline.monitor] s'

section Mono

variable {R R' : Belonging σ} (hR : ∀ axis key value, R axis key value → R' axis key value)

include hR

lemma InvokerSource.Wired.mono {source : InvokerSource σ} {invoker : Invoker σ}
    (h : source.Wired R invoker) : source.Wired R' invoker := by
  cases source with
  | saga => trivial
  | handlers name members =>
    cases invoker with
    | group group => exact ⟨h.1, hR _ _ _ h.2.1, hR _ _ _ h.2.2⟩
    | _ => exact h

lemma Pipeline.Wired.mono {name : String} {pipeline : Pipeline σ} (h : pipeline.Wired R name) :
    pipeline.Wired R' name :=
  ⟨hR _ _ _ h.errorHandler, hR _ _ _ h.rollback, hR _ _ _ h.transactions⟩

theorem Processor.Wired.mono {sources : List (InvokerSource σ)} {p : Processor σ}
    (h : p.Wired R sources) : p.Wired R' sources where
  delegates :=
    have ⟨delegates, hi, hw⟩ := h.delegates
    ⟨delegates, hi, hw.imp fun _ _ => InvokerSource.Wired.mono hR⟩
  pipeline pipeline hp := (h.pipeline pipeline hp).mono hR
  tokens t ht := hR _ _ _ (h.tokens t ht)

end Mono

lemma InvokerSource.Managed.within {source : InvokerSource σ} {invoker : Invoker σ}
    (h : source.Managed s₁ s₂ invoker) (hb : s.nextId ≤ s₁.nextId)
    (ha : s₂.nextId ≤ s'.nextId) : source.Managed s s' invoker := by
  cases source with
  | handlers => trivial
  | saga saga => exact Ran.within h hb ha

lemma Processor.Supplied.within {monitors : MonitorLookup σ} {sources : List (InvokerSource σ)}
    {p : Processor σ} (h : p.Supplied monitors s₁ s₂ sources) (hb : s.nextId ≤ s₁.nextId)
    (ha : s₂.nextId ≤ s'.nextId) : p.Supplied monitors s s' sources where
  managers :=
    have ⟨delegates, hi, hm⟩ := h.managers
    ⟨delegates, hi, hm.imp fun _ _ hm => hm.within hb ha⟩
  monitor pipeline hp := (h.monitor pipeline hp).within hb ha

lemma Inquiry.passes {inquiry : Inquiry σ α} {value : α}
    (h : System.run depth (inquiry.run c o) s = some ((value, o'), s')) : s.Passes s' :=
  System.passes_of_run h

namespace InvokerSource

lemma wired_of_build {source : InvokerSource σ} {invoker : Invoker σ}
    (h : System.run depth (source.build.run c o) s = some ((invoker, o'), s')) :
    source.Wired o'.Holds invoker ∧ source.Managed s s' invoker := by
  cases source with
  | saga saga => exact ⟨trivial, .one (Inquiry.run_lift_eq_some.mp h).2⟩
  | handlers name members =>
    obtain ⟨errorHandler, o₁, s₁, herror, h⟩ := Inquiry.run_bind_eq_some.mp h
    obtain ⟨policy, o₂, s₂, hpolicy, h⟩ := Inquiry.run_bind_eq_some.mp h
    obtain ⟨rfl, rfl, rfl⟩ := Inquiry.run_pure_eq_some.mp h
    exact ⟨⟨rfl, (Inquiry.settles hpolicy).holds (Inquiry.holds_of_resolve herror),
      Inquiry.holds_of_resolve hpolicy⟩, trivial⟩

lemma wired_of_builds {sources : List (InvokerSource σ)} {delegates : List (Invoker σ)}
    (h : System.run depth ((sources.mapM build).run c o) s = some ((delegates, o'), s')) :
    List.Forall₂ (Wired o'.Holds) sources delegates ∧
      List.Forall₂ (Managed s s') sources delegates := by
  induction sources generalizing o s delegates with
  | nil =>
    obtain ⟨rfl, -, -⟩ := Inquiry.run_pure_eq_some.mp h
    exact ⟨.nil, .nil⟩
  | cons source rest ih =>
    rw [List.mapM_cons] at h
    obtain ⟨first, o₁, s₁, hfirst, h⟩ := Inquiry.run_bind_eq_some.mp h
    obtain ⟨others, o₂, s₂, hothers, h⟩ := Inquiry.run_bind_eq_some.mp h
    obtain ⟨rfl, rfl, rfl⟩ := Inquiry.run_pure_eq_some.mp h
    obtain ⟨hwired, hmanaged⟩ := wired_of_build hfirst
    obtain ⟨hwireds, hmanageds⟩ := ih hothers
    exact ⟨.cons (hwired.mono fun _ _ _ => (Inquiry.settles hothers).holds) hwireds,
      .cons (hmanaged.within le_rfl (Inquiry.passes hothers).nextId)
        (hmanageds.imp fun _ _ hm => hm.within (Inquiry.passes hfirst).nextId le_rfl)⟩

end InvokerSource

lemma Pipeline.wired_of_build {componentType name : String} {invoker : Invoker σ}
    {pipeline : Pipeline σ}
    (h : System.run depth ((build componentType name invoker).run c o) s =
      some ((pipeline, o'), s')) : pipeline.Wired o'.Holds name ∧ pipeline.invoker = invoker ∧
      Ran s [o.monitorsOf c name componentType name] [pipeline.monitor] s' := by
  obtain ⟨errorHandler, o₁, s₁, herror, h⟩ := Inquiry.run_bind_eq_some.mp h
  obtain ⟨rollback, o₂, s₂, hrollback, h⟩ := Inquiry.run_bind_eq_some.mp h
  obtain ⟨transactions, o₃, s₃, htransactions, h⟩ := Inquiry.run_bind_eq_some.mp h
  obtain ⟨monitor, o₄, s₄, hmonitor, h⟩ := Inquiry.run_bind_eq_some.mp h
  obtain ⟨rfl, rfl, rfl⟩ := Inquiry.run_pure_eq_some.mp h
  have hearly := (Inquiry.settles herror).trans
    ((Inquiry.settles hrollback).trans (Inquiry.settles htransactions))
  have hpasses := trans_of _ (Inquiry.passes herror)
    (trans_of _ (Inquiry.passes hrollback) (Inquiry.passes htransactions))
  have h₃ := Inquiry.settles hmonitor
  have h₂ := (Inquiry.settles htransactions).trans h₃
  have h₁ := (Inquiry.settles hrollback).trans h₂
  refine ⟨⟨h₁.holds (Inquiry.holds_of_resolve herror),
    h₂.holds (Inquiry.holds_of_resolve hrollback),
    h₃.holds (Inquiry.holds_of_resolve htransactions)⟩, rfl, ?_⟩
  rw [← hearly.monitorsOf_eq]
  exact (Ran.one (Inquiry.run_messageMonitor hmonitor)).earlier hpasses.nextId

structure Instance.New (s s' : System σ) (made : Instance) : Prop where
  after : s.nextId ≤ made.id
  below : made.id < s'.nextId

lemma Instance.new_of_make {label : String} {self : Instance} {s₁ : System σ} (hs : s.Passes s₁)
    (h : System.run depth ((Inquiry.ofProgram (make label)).run c o) s₁ =
      some ((self, o'), s')) : o' = o ∧ self.New s s' := by
  obtain ⟨rfl, h⟩ := Inquiry.run_lift_eq_some.mp h
  cases h
  exact ⟨rfl, hs.nextId, Nat.lt_succ_self _⟩

lemma ProcessorPlan.made_of_build {name : String} {invoker : Invoker σ} {p : Processor σ}
    {plan : ProcessorPlan σ}
    (h : System.run depth ((plan.build name invoker).run c o) s = some ((p, o'), s')) :
    p.self.New s s' ∧ p.name = name ∧ p.invoker = invoker ∧
      (∀ pipeline, p.pipeline? = some pipeline → pipeline.Wired o'.Holds name ∧
        Ran s [o.monitorsOf c name p.componentType name] [pipeline.monitor] s') ∧
      ∀ t, p.tracking? = some t → o'.Holds .tokenStore name t.tokens := by
  cases plan with
  | custom label start shutDown =>
    obtain ⟨self, o₁, s₁, hself, h⟩ := Inquiry.run_bind_eq_some.mp h
    obtain ⟨rfl, rfl, rfl⟩ := Inquiry.run_pure_eq_some.mp h
    obtain ⟨-, hnew⟩ := Instance.new_of_make (refl s) hself
    exact ⟨hnew, rfl, rfl, by rintro _ ⟨⟩, by rintro _ ⟨⟩⟩
  | subscribing bus =>
    obtain ⟨pipeline, o₁, s₁, hpipeline, h⟩ := Inquiry.run_bind_eq_some.mp h
    obtain ⟨hwired, hinvoker, hmonitor⟩ := Pipeline.wired_of_build hpipeline
    obtain ⟨self, o₂, s₂, hself, h⟩ := Inquiry.run_bind_eq_some.mp h
    obtain ⟨rfl, rfl, rfl⟩ := Inquiry.run_pure_eq_some.mp h
    obtain ⟨rfl, hnew⟩ := Instance.new_of_make (Inquiry.passes hpipeline) hself
    refine ⟨hnew, rfl, hinvoker, ?_, by rintro _ ⟨⟩⟩
    rintro _ ⟨⟩
    exact ⟨hwired, hmonitor.later (Inquiry.passes hself).nextId⟩
  | tracking source settings =>
    obtain ⟨pipeline, o₁, s₁, hpipeline, h⟩ := Inquiry.run_bind_eq_some.mp h
    obtain ⟨hwired, hinvoker, hmonitor⟩ := Pipeline.wired_of_build hpipeline
    obtain ⟨tokens, o₂, s₂, htokens, h⟩ := Inquiry.run_bind_eq_some.mp h
    obtain ⟨self, o₃, s₃, hself, h⟩ := Inquiry.run_bind_eq_some.mp h
    obtain ⟨rfl, rfl, rfl⟩ := Inquiry.run_pure_eq_some.mp h
    obtain ⟨rfl, hnew⟩ :=
      Instance.new_of_make (trans_of _ (Inquiry.passes hpipeline) (Inquiry.passes htokens)) hself
    refine ⟨hnew, rfl, hinvoker, ?_, ?_⟩
    · rintro _ ⟨⟩
      exact ⟨hwired.mono fun _ _ _ => (Inquiry.settles htokens).holds,
        hmonitor.later
          ((Inquiry.passes htokens).nextId.trans (Inquiry.passes hself).nextId)⟩
    · rintro _ ⟨⟩
      exact Inquiry.holds_of_resolve htokens

namespace ProcessorOrder

variable {order : ProcessorOrder σ} {registry : InterceptorRegistry σ} {p : Processor σ}

lemma made_of_inquiry
    (h : System.run depth (order.inquiry.run order.configuration o) s = some ((.ok p, o'), s')) :
    p.self.New s s' ∧ p.name = order.name ∧ p.Wired o'.Holds order.sources ∧
      p.Supplied (o.monitorsOf order.configuration order.name) s s' order.sources := by
  obtain ⟨invoker, o₁, s₁, hinvoker, h⟩ := Inquiry.run_bind_eq_some.mp h
  obtain ⟨plan, o₂, s₂, hplan, h⟩ := Inquiry.run_bind_eq_some.mp h
  cases plan with
  | error failure =>
    obtain ⟨⟨⟩, -, -⟩ := Inquiry.run_pure_eq_some.mp h
  | ok plan =>
    obtain ⟨made, o₃, s₃, hmade, h⟩ := Inquiry.run_bind_eq_some.mp h
    obtain ⟨⟨⟩, rfl, rfl⟩ := Inquiry.run_pure_eq_some.mp h
    obtain ⟨delegates, o₄, s₄, hdelegates, hinvoker⟩ := Inquiry.run_bind_eq_some.mp hinvoker
    obtain ⟨rfl, rfl, rfl⟩ := Inquiry.run_pure_eq_some.mp hinvoker
    obtain ⟨hnew, hname, hown, hpipeline, htokens⟩ := ProcessorPlan.made_of_build hmade
    obtain ⟨hwired, hmanaged⟩ := InvokerSource.wired_of_builds hdelegates
    have hearly := (Inquiry.settles hdelegates).trans (Inquiry.settles hplan)
    have hsettles := (Inquiry.settles hplan).trans (Inquiry.settles hmade)
    have hbefore := trans_of _ (Inquiry.passes hdelegates) (Inquiry.passes hplan)
    have hafter := trans_of _ (Inquiry.passes hplan) (Inquiry.passes hmade)
    refine ⟨⟨hbefore.nextId.trans hnew.after, hnew.below⟩, hname, ⟨⟨delegates, hown, ?_⟩, ?_, ?_⟩,
      ⟨delegates, hown, ?_⟩, ?_⟩
    · exact hwired.imp fun _ _ hw => hw.mono fun _ _ _ => hsettles.holds
    · rw [hname]
      exact fun pipeline hp => (hpipeline pipeline hp).1
    · rwa [hname]
    · exact hmanaged.imp fun _ _ hm => hm.within le_rfl hafter.nextId
    · rw [hname, ← hearly.monitorsOf_eq]
      exact fun pipeline hp => (hpipeline pipeline hp).2.earlier hbefore.nextId

lemma Builds.settles {result : Except Failure (Processor σ)}
    (h : order.Builds registry depth o s result o' s') : o.Settles o' := by
  cases h with
  | fails h | succeeds h => exact Inquiry.settles h

lemma Builds.passes {failure : Failure}
    (h : order.Builds registry depth o s (.error failure) o' s') : s.Passes s' := by
  cases h with
  | fails h => exact Inquiry.passes h

lemma Builds.made (h : order.Builds registry depth o s (.ok p) o' s') :
    ∃ chain, p.Receives chain s s' ∧ p.self.New s s' ∧ p.name = order.name ∧
      p.Wired o'.Holds order.sources := by
  cases h with
  | succeeds h hc hr =>
    obtain ⟨hnew, hname, hwired, -⟩ := made_of_inquiry h
    have hpasses := trans_of _ (Inquiry.passes h) (System.passes_of_run hc)
    have hreceives := (Processor.Receives.of_passes hpasses).trans hr
    refine ⟨_, hreceives, ⟨hnew.after, ?_⟩, hname, hwired⟩
    exact hnew.below.trans_le ((System.passes_of_run hc).nextId.trans hr.nextId)

lemma Builds.supplied (h : order.Builds registry depth o s (.ok p) o' s') :
    p.Supplied (o.monitorsOf order.configuration order.name) s s' order.sources := by
  cases h with
  | succeeds h hc hr =>
    obtain ⟨-, -, -, hsupplied⟩ := made_of_inquiry h
    exact hsupplied.within le_rfl ((System.passes_of_run hc).nextId.trans hr.nextId)

end ProcessorOrder

end EventProcessing
