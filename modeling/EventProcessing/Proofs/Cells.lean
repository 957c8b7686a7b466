import EventProcessing.Processor.Builder
import EventProcessing.Proofs.Execution

/-! A cell has its past, and answers by it alone: with the first value that it came to since it was
last reset. As long as there is none, every question runs the factory that came last. -/

namespace EventProcessing

variable {m : Type → Type} {S σ κ ε α β φ : Type}

structure Execution (m : Type → Type) [Monad m] (S : Type) where
  run : {α : Type} → m α → S → Option (α × S)
  run_pure : ∀ {α : Type} (a : α) (s : S), run (pure a) s = some (a, s)
  run_bind : ∀ {α β : Type} (x : m α) (f : α → m β) (s : S),
    run (x >>= f) s = (run x s).bind fun r => run (f r.1) r.2

namespace Execution

variable [Monad m] (E : Execution m S)

lemma run_bind_pure (x : m α) (f : α → β) (s : S) :
    E.run (x >>= fun a => pure (f a)) s = (E.run x s).map fun r => (f r.1, r.2) := by
  rw [E.run_bind]
  simp only [E.run_pure, Option.map_eq_bind]
  rfl

def programs (depth : ℕ) : Execution (ProgramOver σ (Consumer σ)) (System σ) where
  run program := System.run depth program
  run_pure _ _ := rfl
  run_bind := System.run_bind depth

def builds (depth : ℕ) : Execution (Building σ) (Overrides σ × System σ) where
  run x s := (x s.1 depth s.2).map fun r => (r.1.1, r.1.2, r.2)
  run_pure _ _ := rfl
  run_bind x f s := by
    change ((x s.1 depth s.2).bind fun r => f r.1.1 r.1.2 depth r.2).map _ = _
    rw [Option.map_bind, Option.bind_map]
    rfl

end Execution

namespace Cell

/-- What can happen to a cell with factories from `φ`. In a past the latest event comes first. -/
inductive Event (φ ε α : Type) where
  | renewed (factory : φ)
  | asked (answer : Except ε α)
  | reset

def latest (first : φ) : List (Event φ ε α) → φ
  | [] => first
  | .renewed factory :: _ => factory
  | .asked _ :: earlier => latest first earlier
  | .reset :: earlier => latest first earlier

def kept : List (Event φ ε α) → Option α
  | [] => none
  | .renewed _ :: earlier => kept earlier
  | .asked (.ok value) :: earlier => some ((kept earlier).getD value)
  | .asked (.error _) :: earlier => kept earlier
  | .reset :: _ => none

lemma kept_append {later past : List (Event φ ε α)} {value : α} (hl : .reset ∉ later)
    (h : kept past = some value) : kept (later ++ past) = some value := by
  induction later with
  | nil => exact h
  | cons event later ih =>
    have hkept := ih fun hm => hl (List.mem_cons_of_mem _ hm)
    cases event with
    | renewed => exact hkept
    | asked answer =>
      cases answer with
      | error => exact hkept
      | ok => rw [List.cons_append, kept, hkept, Option.getD_some]
    | reset => exact absurd List.mem_cons_self hl

end Cell

namespace Component

def building (name : String) : TraceLine :=
  .event .debug "building component" [("component", name)]

def construct [Monad m] [Traces m] (name : String) (factory : κ → m (Except ε α)) (input : κ) :
    m (Except ε α) := do
  Traces.trace (building name)
  factory input

def answered (component : Component m κ ε α) : Except ε α → Component m κ ε α
  | .ok value => { component with built := some value }
  | .error _ => component

section Runs

variable [Monad m] [Traces m] (E : Execution m S) {component component' : Component m κ ε α}
  {input : κ} {s s' : S}

lemma run_get_of_built {value : α} (h : component.built = some value) :
    E.run (component.get input) s = some ((.ok value, component), s) := by
  rw [get, h]
  exact E.run_pure _ _

lemma run_get_of_none (h : component.built = none) :
    E.run (component.get input) s =
      (E.run (construct component.name component.factory input) s).map fun r =>
        ((r.1, component.answered r.1), r.2) := by
  rw [get, h, construct]
  dsimp only
  rw [E.run_bind, E.run_bind, Option.map_bind]
  congr 1
  funext told
  rw [E.run_bind, Function.comp_apply, Option.map_eq_bind]
  congr 1
  funext made
  obtain ⟨answer, after⟩ := made
  cases answer <;> exact E.run_pure _ _

lemma eq_of_run_update {factory : κ → m (Except ε α)}
    (h : E.run (component.update factory) s = some (component', s')) :
    component' = { component with factory } := by
  unfold update at h
  split at h
  · rw [E.run_bind_pure] at h
    obtain ⟨told, -, h⟩ := Option.map_eq_some_iff.mp h
    exact (congrArg Prod.fst h).symm
  · replace h := (E.run_pure _ _).symm.trans h
    exact (congrArg Prod.fst (Option.some.inj h)).symm

end Runs

open Cell

inductive Past [Monad m] [Traces m] (E : Execution m S) (name : String)
    (first : κ → m (Except ε α)) :
    List (Event (κ → m (Except ε α)) ε α) → Component m κ ε α → Prop
  | made : Past E name first [] { name, factory := first }
  | update {past : List (Event (κ → m (Except ε α)) ε α)} {component component' : Component m κ ε α}
      {factory : κ → m (Except ε α)} {s s' : S} (h : Past E name first past component)
      (hr : E.run (component.update factory) s = some (component', s')) :
      Past E name first (.renewed factory :: past) component'
  | get {past : List (Event (κ → m (Except ε α)) ε α)} {component component' : Component m κ ε α}
      {input : κ} {answer : Except ε α} {s s' : S} (h : Past E name first past component)
      (hr : E.run (component.get input) s = some ((answer, component'), s')) :
      Past E name first (.asked answer :: past) component'
  | reset {past : List (Event (κ → m (Except ε α)) ε α)} {component : Component m κ ε α}
      (h : Past E name first past component) : Past E name first (.reset :: past) component.reset

section Past

variable [Monad m] [Traces m] {E : Execution m S} {name : String} {first : κ → m (Except ε α)}
  {past : List (Event (κ → m (Except ε α)) ε α)} {component : Component m κ ε α}

lemma Past.eq (h : Past E name first past component) :
    component = { name, factory := latest first past, built := kept past } := by
  induction h with
  | made => rfl
  | update _ hr ih =>
    rw [eq_of_run_update E hr, ih]
    rfl
  | @get past component component' input answer s s' _ hr ih =>
    have hbuilt : component.built = kept past := congrArg built ih
    cases hk : kept past with
    | some value =>
      rw [run_get_of_built E (hbuilt.trans hk)] at hr
      cases hr
      rw [ih, kept, hk]
      rfl
    | none =>
      rw [run_get_of_none E (hbuilt.trans hk)] at hr
      obtain ⟨⟨answer, after⟩, -, hr⟩ := Option.map_eq_some_iff.mp hr
      cases hr
      rw [ih]
      cases answer with
      | ok value =>
        rw [kept, hk]
        rfl
      | error => rfl
  | reset _ ih =>
    rw [ih]
    rfl

/-- What a component answers after such a past: a value it has, or else what the run of the latest
factory comes to. A run that fails is told of, and leaves the component as it is. -/
structure Recalls (E : Execution m S) (name : String) (first : κ → m (Except ε α))
    (past : List (Event (κ → m (Except ε α)) ε α)) (component : Component m κ ε α) : Prop where
  cached : ∀ value, kept past = some value → ∀ input s,
    E.run (component.get input) s = some ((.ok value, component), s)
  built : kept past = none → ∀ input s,
    E.run (component.get input) s =
      (E.run (construct name (latest first past) input) s).map fun r =>
        ((r.1, component.answered r.1), r.2)
  failed : ∀ input s failure component' s',
    E.run (component.get input) s = some ((.error failure, component'), s') →
      E.run (construct name (latest first past) input) s = some (.error failure, s') ∧
      component' = component ∧ kept (.asked (.error failure) :: past) = none

lemma Past.recalls (h : Past E name first past component) :
    Recalls E name first past component := by
  obtain rfl := h.eq
  constructor
  case cached => exact fun value hk input s => run_get_of_built E hk
  case built => exact fun hk input s => run_get_of_none E hk
  case failed =>
    intro input s failure component' s' hr
    cases hk : kept past with
    | some value =>
      rw [run_get_of_built E hk] at hr
      cases hr
    | none =>
      rw [run_get_of_none E hk] at hr
      obtain ⟨⟨answer, after⟩, hrun, hr⟩ := Option.map_eq_some_iff.mp hr
      cases hr
      refine ⟨hrun, ?_, hk⟩
      rw [hk]
      rfl

end Past

end Component

end EventProcessing
