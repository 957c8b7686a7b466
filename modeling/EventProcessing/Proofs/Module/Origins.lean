import EventProcessing.Proofs.Module.Soundness

namespace EventProcessing

variable {σ α : Type} {depth : ℕ} {s s' s₀ : System σ} {m m' m₀ : Module σ}
  {history : List (Change σ)} {name : String} {p : Processor σ}

namespace Change

lemma noSetUp_nil : NoSetUp ([] : List (Change σ)) := by rintro _ ⟨⟩

lemma NoSetUp.of_append {more : List (Change σ)} (h : NoSetUp (history ++ more)) :
    NoSetUp history :=
  fun c hc => h c (List.mem_append_left _ hc)

lemma NoSetUp.register (h : NoSetUp history) (registration : Registration σ) :
    NoSetUp (history ++ [.register registration]) := by
  intro c hc
  rcases List.mem_append.mp hc with hc | hc
  · exact h c hc
  · cases List.mem_singleton.mp hc

end Change

namespace Module

lemma Reaches.consult {inquiry : Inquiry σ α} {answer : Except Failure α}
    (h : Reaches m₀ s₀ history m s)
    (hc : Module.consult inquiry m depth s = some ((answer, m'), s')) :
    Reaches m₀ s₀ history m' s' := by
  obtain ⟨-, -, rfl, rfl⟩ | ⟨c, value, o', hconfiguration, -, hrun, rfl⟩ := consult_cases hc
  · exact h
  · have hunit : System.run depth ((do let _ ← inquiry : Inquiry σ Unit).run c m.overrides) s =
        some (((), o'), s') :=
      Inquiry.run_bind_eq_some.mpr ⟨value, o', s', hrun, rfl⟩
    have hq : (Query.consult (do let _ ← inquiry)).perform m depth s =
        some (((), { m with overrides := o' }), s') :=
      StateT.bind_eq_some.mpr ⟨_, _, _, consult_of_run hconfiguration hunit, rfl⟩
    exact .query h hq

lemma Reaches.lookUp {answer : Except Failure (Option (Processor σ))}
    (h : Reaches m₀ s₀ history m s)
    (hl : processor? name m depth s = some ((answer, m'), s')) : Reaches m₀ s₀ history m' s' :=
  have hq : (Query.processor name).perform m depth s = some (((), m'), s') :=
    StateT.bind_eq_some.mpr ⟨_, _, _, hl, rfl⟩
  .query h hq

/-- The processor of a name was built by a look-up after some of the changes and before others, and
the module was not set up since. -/
structure Origin (s₀ : System σ) (before after : List (Change σ)) (name : String)
    (p : Processor σ) (m₁ : Module σ) (s₁ : System σ) (m : Module σ) (s : System σ) : Prop where
  noSetUp : Change.NoSetUp after
  reached : Reaches {} s₀ before m₁ s₁
  unbuilt : ∀ q, ¬ m₁.Built name q
  built : ∃ depth m₂ s₂, processor? name m₁ depth s₁ = some ((.ok (some p), m₂), s₂) ∧
    Reaches m₂ s₂ after m s

lemma Origin.exists_builds {before after : List (Change σ)} {m₁ : Module σ} {s₁ : System σ}
    (h : Origin s₀ before after name p m₁ s₁ m s) (hv : s₀.Vacant) :
    ∃ depth order o' s₂, m₁.Sound s₁ ∧ m₁.Orders name order ∧
      m₁.processors.get? name = some order.cell ∧
      order.Builds m₁.interceptors depth m₁.overrides (order.announced s₁) (.ok p) o' s₂ ∧
      Reaches
        { m₁ with
          overrides := o'
          processors := m₁.processors.put name { order.cell with built := some p } }
        s₂ after m s := by
  obtain ⟨depth, m₂, s₂, hbuilt, hafter⟩ := h.built
  have hsound := h.reached.sound (.init hv)
  have hlooks := looksUp_of_processor? hsound.ordered hbuilt
  cases hlooks with
  | known hknown => exact absurd hknown (h.unbuilt _)
  | @builds order _ o' _ ho hcell hb =>
    exact ⟨depth, order, o', s₂, hsound, ho, hcell, hb, hafter⟩

def HasOrigins (s₀ : System σ) (history : List (Change σ)) (m : Module σ) (s : System σ) : Prop :=
  ∀ name p, m.Built name p → ∃ before after m₁ s₁, history = before ++ after ∧
    Origin s₀ before after name p m₁ s₁ m s

lemma HasOrigins.step {added : List (Change σ)} (h : HasOrigins s₀ history m s)
    (hb : ∀ name p, m'.Built name p → m.Built name p)
    (hn : ∀ after, Change.NoSetUp after → Change.NoSetUp (after ++ added))
    (hs : ∀ {m₂ s₂ after}, Reaches m₂ s₂ after m s → Reaches m₂ s₂ (after ++ added) m' s') :
    HasOrigins s₀ (history ++ added) m' s' := by
  intro name p hp
  obtain ⟨before, after, m₁, s₁, rfl, ho⟩ := h name p (hb name p hp)
  obtain ⟨depth, m₂, s₂, hbuilt, hafter⟩ := ho.built
  exact ⟨before, after ++ added, m₁, s₁, List.append_assoc .., hn after ho.noSetUp, ho.reached,
    ho.unbuilt, depth, m₂, s₂, hbuilt, hs hafter⟩

lemma HasOrigins.query (h : HasOrigins s₀ history m s)
    (hb : ∀ name p, m'.Built name p → m.Built name p)
    (hs : ∀ {m₂ s₂ after}, Reaches m₂ s₂ after m s → Reaches m₂ s₂ after m' s') :
    HasOrigins s₀ history m' s' := by
  have hstep : HasOrigins s₀ (history ++ []) m' s' :=
    h.step hb (fun after hn => by rwa [List.append_nil]) fun hr => by
      rw [List.append_nil]
      exact hs hr
  rwa [List.append_nil] at hstep

lemma HasOrigins.lookUp {answer : Except Failure (Option (Processor σ))}
    (h : HasOrigins s₀ history m s) (hr : Reaches {} s₀ history m s) (ho : m.Ordered)
    (hl : processor? name m depth s = some ((answer, m'), s')) :
    HasOrigins s₀ history m' s' := by
  have hlooks := looksUp_of_processor? ho hl
  cases hlooks with
  | unconfigured | unknown | known => exact h.query (fun _ _ => id) fun hr => hr.lookUp hl
  | fails => exact h.query (fun _ _ => id) fun hr => hr.lookUp hl
  | @builds order p o' _ _ hcell hb =>
    intro other q hq
    obtain ⟨rfl, rfl⟩ | ⟨-, hq⟩ := built_put.mp hq
    · refine ⟨history, [], m, s, by simp, Change.noSetUp_nil, hr, ?_, depth, _, _, hl, .init⟩
      intro q hb
      rw [Built, hcell] at hb
      cases hb
    · obtain ⟨before, after, m₁, s₁, he, ho⟩ := h other q hq
      obtain ⟨depth', m₂, s₂, hbuilt, hafter⟩ := ho.built
      exact ⟨before, after, m₁, s₁, he, ho.noSetUp, ho.reached, ho.unbuilt, depth', m₂, s₂,
        hbuilt, hafter.lookUp hl⟩

lemma allows_hasOrigins (s₀ : System σ) (history : List (Change σ)) :
    Allows fun m s => m.Sound s ∧ Reaches {} s₀ history m s ∧ HasOrigins s₀ history m s where
  beside h hp := ⟨h.1.passes hp, h.2.1.beside hp,
    h.2.2.query (fun _ _ => id) fun hr => hr.beside hp⟩
  consult h hc := by
    refine ⟨allows_sound.consult h.1 hc, h.2.1.consult hc, h.2.2.query ?_ fun hr => hr.consult hc⟩
    obtain ⟨-, -, rfl, rfl⟩ | ⟨c, value, o', -, -, -, rfl⟩ := consult_cases hc
    · exact fun _ _ => id
    · exact fun _ _ => id
  lookUp h hl :=
    ⟨allows_sound.lookUp h.1 hl, h.2.1.lookUp hl, h.2.2.lookUp h.2.1 h.1.ordered hl⟩

theorem Reaches.hasOrigins (h : Reaches {} s₀ history m s) (hv : s₀.Vacant) :
    HasOrigins s₀ history m s := by
  induction h with
  | init => rintro _ _ ⟨⟩
  | beside h hp ih => exact ih.query (fun _ _ => id) fun hr => hr.beside hp
  | query h hq ih =>
    exact ((allows_hasOrigins s₀ _).of_query ⟨h.sound (.init hv), h, ih⟩ hq).2.2
  | @change history m m' s s' change depth h hc ih =>
    cases change with
    | register registration =>
      refine ih.step ?_ (fun after hn => hn.register registration) fun hr => hr.change hc
      obtain ⟨rfl, -⟩ := Registration.perform_cases hc
      exact fun name p => (built_congr (registration.processors_enter m) name p).mp
    | setUp c =>
      have hsound := h.sound (.init hv)
      obtain ⟨handlers, sagas, overrides, s₁, s₂, -, -, -, -, -, rfl⟩ :=
        setUp_cases hsound.handlers hsound.sagas hc
      exact fun name p hb => absurd hb (not_built_settled m name p)

end Module

end EventProcessing
