import EventProcessing.Proofs.Module.Soundness
import EventProcessing.Proofs.Switching

namespace EventProcessing

variable {σ τ α β : Type}

def Sparing (x : StateT τ (Run σ) α) : Prop := ∀ t, Run.Keeps System.Spares (x t)

namespace Sparing

variable {x : StateT τ (Run σ) α} {depth : ℕ} {s s' : System σ} {t t' : τ}

lemma spares {value : α} (hx : Sparing x) (h : x t depth s = some ((value, t'), s')) :
    s.Spares s' :=
  hx t _ _ _ _ h

lemma pure (value : α) : Sparing (Pure.pure value : StateT τ (Run σ) α) := fun _ => .pure _

lemma bind {f : α → StateT τ (Run σ) β} (hx : Sparing x) (hf : ∀ a, Sparing (f a)) :
    Sparing (x >>= f) :=
  fun t => .bind (hx t) fun r => hf r.1 r.2

lemma lift {m : Run σ α} (hm : m.Keeps System.Spares) : Sparing (liftM m : StateT τ (Run σ) α) :=
  fun _ _ _ _ _ h => hm _ _ _ _ (StateT.lift_eq_some.mp h).2

lemma program (program : Program σ α) :
    Sparing (liftM (liftM program : Run σ α) : StateT τ (Run σ) α) :=
  lift (System.stores_spares.keeps_lift program)

lemma get : Sparing (MonadState.get : StateT τ (Run σ) τ) := fun _ => .pure _

lemma update (f : τ → τ) : Sparing (modify f : StateT τ (Run σ) PUnit) := fun _ => .pure _

lemma trace (line : TraceLine) : Sparing (Traces.trace line : StateT τ (Run σ) Unit) :=
  lift (.update fun s => s.spares_addTrace line)

lemma forM {items : List β} {f : β → StateT τ (Run σ) PUnit} (hf : ∀ item, Sparing (f item)) :
    Sparing (items.forM f) := by
  induction items with
  | nil => exact .pure _
  | cons item rest ih => exact .bind (hf item) fun _ => ih

end Sparing

lemma ProcessorOrder.sparing_build (order : ProcessorOrder σ) (registry : InterceptorRegistry σ) :
    Sparing (order.build registry) := by
  refine .bind (fun o => System.stores_spares.keeps_lift _) fun made => ?_
  cases made with
  | error failure => exact .pure _
  | ok p =>
    refine .bind (.program _) fun chain => .bind ?_ fun _ => .bind (.trace _) fun _ => .pure _
    exact .forM fun interceptor => .lift (p.spares_addInterceptor interceptor)

namespace Module

variable {m m' : Module σ} {depth : ℕ} {s s' : System σ}

lemma sparing_obtain (name : String) (cell : ProcessorCell σ)
    (hcell : ∃ order : ProcessorOrder σ, cell.factory = order.build) :
    Sparing (obtain name cell) := by
  obtain ⟨order, horder⟩ := hcell
  have hget : ∀ registry, Sparing (cell.get registry) := fun registry => by
    unfold Component.get
    split
    · exact .pure _
    · rw [horder]
      refine .bind (.trace _) fun _ => .bind (order.sparing_build registry) fun made => ?_
      cases made with
      | error failure => exact .pure _
      | ok p => exact .pure _
  intro m
  refine .bind (hget m.interceptors m.overrides) fun result => ?_
  dsimp only
  split
  · exact .pure _
  · exact .pure _

lemma sparing_consult (inquiry : Inquiry σ α) : Sparing (consult inquiry) := by
  refine .bind .get fun m => ?_
  split
  · exact .pure _
  · exact .bind (.program _) fun _ => .bind (fun _ => .pure _) fun _ => .pure _

lemma spares_of_processor? {name : String} {answer : Except Failure (Option (Processor σ))}
    (ho : m.Ordered) (h : processor? name m depth s = some ((answer, m'), s')) :
    s.Spares s' := by
  replace h := StateT.get_bind_eq_some.mp h
  cases hc : m.configured with
  | error failure =>
    rw [hc] at h
    cases h
    exact refl s
  | ok c =>
    rw [hc] at h
    cases hcell : m.processors.get? name with
    | none =>
      rw [hcell] at h
      cases h
      exact refl s
    | some cell =>
      rw [hcell] at h
      obtain ⟨order, -, he⟩ := ho name cell hcell
      obtain ⟨found, m₁, s₁, hfound, h⟩ := StateT.bind_eq_some.mp h
      have hs : s.Spares s₁ := (sparing_obtain name cell ⟨order, by rw [he]; rfl⟩).spares hfound
      cases found with
      | error failure =>
        cases h
        exact hs
      | ok p =>
        cases h
        exact hs

lemma sparing_changeOverrides (change : Overrides σ → Program σ (Overrides σ)) :
    Sparing (changeOverrides change) :=
  .bind .get fun _ => .bind (.program _) fun _ => .update _

lemma sparing_registerInterceptor (name : String) (factory : InterceptorFactory σ) :
    Sparing (registerInterceptor name factory) := by
  refine .bind (.update _) fun _ => .bind .get fun m => ?_
  split
  · exact .bind (.trace _) fun _ => .bind (.program _) fun interceptor =>
      .lift (Processor.spares_addInterceptor _ interceptor)
  · exact .pure _

lemma sparing_perform (registration : Registration σ) : Sparing registration.perform := by
  cases registration with
  | interceptor name factory => exact sparing_registerInterceptor name factory
  | override axis key factory => exact sparing_changeOverrides _
  | sagaStore factory => exact sparing_changeOverrides _
  | _ => exact .update _

lemma sparing_setUp (c : Configuration σ) : Sparing (setUp c) :=
  .bind .get fun _ => .bind (.forM fun p => .lift p.spares_abandon) fun _ =>
    .bind (.program _) fun _ => fun _ => .pure _

end Module

end EventProcessing
