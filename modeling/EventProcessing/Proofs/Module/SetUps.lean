import EventProcessing.Proofs.Module.LookUps

namespace EventProcessing

variable {σ τ α β : Type} {depth : ℕ} {s s' : System σ} {c : Configuration σ} {m m' : Module σ}

lemma StateT.keeps_forM {R : System σ → System σ → Prop} [IsPreorder (System σ) R] {items : List β}
    {f : β → Run σ PUnit} {t t' : τ} {value : PUnit} (hf : ∀ item, (f item).Keeps R)
    (h : (items.forM fun item => (liftM (f item) : StateT τ (Run σ) PUnit)) t depth s =
      some ((value, t'), s')) : t' = t ∧ R s s' := by
  induction items generalizing s with
  | nil =>
    cases h
    exact ⟨rfl, refl _⟩
  | cons item rest ih =>
    obtain ⟨_, middle, hitem, h⟩ := StateT.lift_bind_eq_some.mp h
    obtain ⟨rfl, hrest⟩ := ih h
    exact ⟨rfl, trans_of R (hf item _ _ _ _ hitem) hrest⟩

def Part.Gives (part : Part σ α) (value : α) : Prop :=
  ∃ c depth s s', System.run depth (part.factory c) s = some (.ok value, s')

lemma Part.kept_or_given {part part' : Part σ α} {value : α}
    (h : System.run depth (part.resolve c) s = some ((value, part'), s')) :
    part' = { part with built := some value } ∧ (part.built = some value ∨ part.Gives value) := by
  obtain ⟨name, factory, built⟩ := part
  cases built with
  | some old =>
    cases h
    exact ⟨rfl, .inl rfl⟩
  | none =>
    obtain ⟨⟨answer, kept⟩, middle, hget, h⟩ := System.run_bind_eq_some.mp h
    obtain ⟨_, _, -, hget⟩ := System.run_bind_eq_some.mp hget
    obtain ⟨result, _, hfactory, hget⟩ := System.run_bind_eq_some.mp hget
    cases result with
    | error impossible => nomatch impossible
    | ok made =>
      cases hget
      cases h
      exact ⟨rfl, .inr ⟨_, _, _, _, hfactory⟩⟩

namespace Module

def Given (parts : List (Part σ α)) : Prop :=
  ∀ part ∈ parts, ∀ value, part.built = some value → part.Gives value

def holding (parts : List (Part σ α)) (values : List α) : List (Part σ α) :=
  List.zipWith (fun part value => { part with built := some value }) parts values

lemma resolveParts_cases {parts parts' : List (Part σ α)} {values : List α} (hg : Given parts)
    (h : System.run depth (resolveParts c parts) s = some ((values, parts'), s')) :
    parts' = holding parts values ∧ List.Forall₂ Part.Gives parts values := by
  induction parts generalizing values parts' s with
  | nil =>
    cases h
    exact ⟨rfl, .nil⟩
  | cons part rest ih =>
    obtain ⟨⟨value, kept⟩, s₁, hpart, h⟩ := System.run_bind_eq_some.mp h
    obtain ⟨⟨values, others⟩, s₂, hrest, h⟩ := System.run_bind_eq_some.mp h
    cases h
    obtain ⟨rfl, hvalue⟩ := Part.kept_or_given hpart
    obtain ⟨rfl, hvalues⟩ := ih (fun other ho => hg other (List.mem_cons_of_mem _ ho)) hrest
    exact ⟨rfl, .cons (hvalue.elim (hg part List.mem_cons_self value) id) hvalues⟩

lemma given_holding {parts : List (Part σ α)} {values : List α}
    (h : List.Forall₂ Part.Gives parts values) : Given (holding parts values) := by
  induction h with
  | nil =>
    intro part hp
    cases hp
  | cons hfirst _ ih =>
    intro part hp value hv
    rcases List.mem_cons.mp hp with rfl | hp
    · cases hv
      exact hfirst
    · exact ih part hp value hv

lemma reset_holding {parts : List (Part σ α)} {values : List α}
    (h : List.Forall₂ Part.Gives parts values) :
    (holding parts values).map Component.reset = parts.map Component.reset := by
  induction h with
  | nil => rfl
  | cons _ _ ih => exact congrArg (_ :: ·) ih

def settled (m : Module σ) (c : Configuration σ) (handlers : List (EventHandler σ))
    (sagas : List (Saga σ)) (overrides : Overrides σ) : Module σ :=
  withAssembly
    { m.cleared c with
      handlers := holding m.handlers handlers
      sagas := holding m.sagas sagas
      activeSagas := sagas
      overrides } c
    (.ofAssigned (handlers.map fun handler => (handler, m.selectors.sort.groupOf handler)) sagas
      m.names)

theorem setUp_cases (hh : Given m.handlers) (hs : Given m.sagas)
    (h : setUp c m depth s = some (((), m'), s')) :
    ∃ handlers sagas overrides s₁ s₂,
      List.Forall₂ Part.Gives m.handlers handlers ∧ List.Forall₂ Part.Gives m.sagas sagas ∧
      s.Passes s₁ ∧ s₂.Passes s' ∧
      System.run depth ((sagas.forM (setUpSaga c)).run m.overrides.reset) s₁ =
        some (((), overrides), s₂) ∧
      m' = m.settled c handlers sagas overrides := by
  replace h := StateT.get_bind_eq_some.mp h
  obtain ⟨_, m, s₁, habandon, hrest⟩ := StateT.bind_eq_some.mp h
  obtain ⟨rfl, hs₁⟩ := StateT.keeps_forM Processor.passes_abandon habandon
  obtain ⟨assembled, s₂, hassemble, hset⟩ := StateT.lift_bind_eq_some.mp hrest
  cases hset
  obtain ⟨⟨handlers, handlerParts⟩, s₃, hhandlers, h⟩ := System.run_bind_eq_some.mp hassemble
  obtain ⟨⟨sagas, sagaParts⟩, s₄, hsagas, h⟩ := System.run_bind_eq_some.mp h
  obtain ⟨⟨_, overrides⟩, s₅, hsetUp, h⟩ := System.run_bind_eq_some.mp h
  obtain ⟨assembly, s₆, hmake, h⟩ := System.run_bind_eq_some.mp h
  obtain ⟨_, s₇, htrace, h⟩ := System.run_bind_eq_some.mp h
  cases h
  obtain ⟨rfl, hgivenHandlers⟩ := resolveParts_cases hh hhandlers
  obtain ⟨rfl, hgivenSagas⟩ := resolveParts_cases hs hsagas
  obtain ⟨lines, htells⟩ := Assembly.exists_tells_make handlers sagas m.selectors.sort m.names
  obtain ⟨rfl, -⟩ := htells.eq_of_run hmake
  refine ⟨handlers, sagas, overrides, s₄, s₅, hgivenHandlers, hgivenSagas, ?_, ?_, hsetUp, rfl⟩
  · exact trans_of _ hs₁
      (trans_of _ (System.passes_of_run hhandlers) (System.passes_of_run hsagas))
  · exact trans_of _ (System.passes_of_run hmake) (System.passes_of_run htrace)

section Settled

variable {handlers : List (EventHandler σ)} {sagas : List (Saga σ)} {overrides : Overrides σ}

lemma get?_settled (m : Module σ) (name : String) :
    (m.settled c handlers sagas overrides).processors.get? name =
      ((m.settled c handlers sagas overrides).assembly.get? name).map fun sources =>
        (ProcessorOrder.mk name sources (m.builderOf name) c).cell :=
  Table.get?_map
    (fun name sources => (ProcessorOrder.mk name sources (m.builderOf name) c).cell) _ name

lemma keys_settled (m : Module σ) : (m.settled c handlers sagas overrides).processors.keys =
    (m.settled c handlers sagas overrides).assembly.keys := by
  simp [settled, withAssembly, Table.keys, Function.comp_def]

lemma ordered_settled (m : Module σ) : (m.settled c handlers sagas overrides).Ordered := by
  intro name cell h
  rw [get?_settled] at h
  obtain ⟨sources, hsources, rfl⟩ := Option.map_eq_some_iff.mp h
  exact ⟨_, ⟨rfl, rfl, hsources⟩, rfl⟩

lemma not_built_settled (m : Module σ) (name : String) (p : Processor σ) :
    ¬ (m.settled c handlers sagas overrides).Built name p := by
  intro h
  rw [Built, get?_settled] at h
  obtain ⟨cell, hcell, hbuilt⟩ := Option.bind_eq_some_iff.mp h
  obtain ⟨sources, -, rfl⟩ := Option.map_eq_some_iff.mp hcell
  cases hbuilt

end Settled

lemma settles_setUps {sagas : List (Saga σ)} {o o' : Overrides σ} {value : PUnit}
    (h : System.run depth ((sagas.forM (setUpSaga c)).run o) s = some ((value, o'), s')) :
    o.Settles o' := by
  induction sagas generalizing o s with
  | nil =>
    cases h
    exact .refl _
  | cons saga rest ih =>
    obtain ⟨⟨_, o₁⟩, s₁, hsaga, h⟩ := System.run_bind_eq_some.mp h
    exact (Inquiry.settles hsaga).trans (ih h)

end Module

end EventProcessing
