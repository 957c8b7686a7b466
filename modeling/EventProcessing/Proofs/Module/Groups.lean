import EventProcessing.Proofs.Module.Registered
import Mathlib.Data.List.DropRight

namespace EventProcessing

variable {σ : Type} {depth : ℕ} {s s' s₀ : System σ} {m m' : Module σ}
  {history : List (Change σ)} {name group : String} {groups : List String}

namespace Change

def untilSetUp (history : List (Change σ)) : List (Change σ) :=
  history.rdropWhile isRegistration

/-- The last set-up would still give the group to the same processor. -/
def KeepsName (history : List (Change σ)) (group : String) : Prop :=
  (registered history).names.resolve group =
    (registered (untilSetUp history)).names.resolve group

lemma untilSetUp_register (history : List (Change σ)) (registration : Registration σ) :
    untilSetUp (history ++ [.register registration]) = untilSetUp history :=
  List.rdropWhile_concat_pos _ _ _ rfl

lemma untilSetUp_setUp (history : List (Change σ)) (c : Configuration σ) :
    untilSetUp (history ++ [.setUp c]) = history ++ [.setUp c] :=
  List.rdropWhile_concat_neg _ _ _ Bool.false_ne_true

end Change

lemma Assembly.resolve_group {handlers : List (EventHandler σ)} {sagas : List (Saga σ)}
    {selectors : SelectorChain σ} {names : ProcessorNames} {sources : List (InvokerSource σ)}
    {source : InvokerSource σ}
    (h : (ofAssigned (handlers.map fun handler => (handler, selectors.groupOf handler)) sagas
      names).get? name = some sources) (hs : source ∈ sources) :
    names.resolve source.group = name := by
  rw [eq_sourcesOf h, sourcesOf_eq] at hs
  exact of_decide_eq_true (List.mem_filter.mp hs).2

namespace Module

def Assembled (names : ProcessorNames) (m : Module σ) : Prop :=
  ∃ (handlers : List (EventHandler σ)) (sagas : List (Saga σ)) (selectors : SelectorChain σ),
    m.assembly =
      .ofAssigned (handlers.map fun handler => (handler, selectors.groupOf handler)) sagas names

lemma Reaches.assembled (h : Reaches {} s₀ history m s) (hv : s₀.Vacant) :
    m.Assembled (Change.registered (Change.untilSetUp history)).names := by
  induction h with
  | init => exact ⟨[], [], {}, rfl⟩
  | beside _ _ ih => exact ih
  | query h hq ih =>
    obtain ⟨-, hpersists⟩ := (allows_persists _).of_query ⟨h.sound (.init hv), .refl _⟩ hq
    rwa [Assembled, hpersists.assembly]
  | change h hc ih =>
    rename_i change _
    cases change with
    | register registration =>
      obtain ⟨rfl, -⟩ := Registration.perform_cases hc
      rwa [Change.untilSetUp_register, Assembled, registration.assembly_enter]
    | setUp c =>
      have hsound := h.sound (.init hv)
      obtain ⟨handlers, sagas, _, _, _, -, -, -, -, -, rfl⟩ :=
        setUp_cases hsound.handlers hsound.sagas hc
      rw [Change.untilSetUp_setUp, Change.registered_setUp, ← h.names_eq hv]
      exact ⟨handlers, sagas, _, rfl⟩

lemma exists_source (h : m.groupsOf name = .ok groups) (hg : group ∈ groups) :
    ∃ c sources source, m.configuration = some c ∧ m.assembly.get? name = some sources ∧
      source ∈ sources ∧ source.group = group := by
  unfold groupsOf configured at h
  cases hc : m.configuration with
  | none =>
    rw [hc] at h
    cases h
  | some c =>
    rw [hc] at h
    cases h
    obtain ⟨source, hsource, rfl⟩ := List.mem_map.mp hg
    cases hget : m.assembly.get? name with
    | none =>
      rw [hget] at hsource
      cases hsource
    | some sources =>
      rw [hget] at hsource
      exact ⟨c, sources, source, rfl, rfl, hsource, rfl⟩

lemma processorNameOf_of_configured {c : Configuration σ} (hc : m.configuration = some c) :
    m.processorNameOf group = .ok (m.names.resolve group) := by
  rw [processorNameOf, configured, hc]
  rfl

lemma processorOfGroup?_eq (h : m.processorNameOf group = .ok name) :
    processorOfGroup? group m = processor? name m := by
  rw [processorOfGroup?, StateT.get_bind_apply, h]

def About (name : String) : Except Failure (Option (Processor σ)) → Prop
  | .ok (some p) => p.name = name
  | .error (.processorBuild label _) => label = name
  | _ => False

lemma About.eq {other : String} {answer : Except Failure (Option (Processor σ))}
    (h : About name answer) (h' : About other answer) : name = other := by
  unfold About at h h'
  split at h
  · exact h.symm.trans h'
  · exact h.symm.trans h'
  · exact h.elim

lemma Sound.about {answer : Except Failure (Option (Processor σ))} {c : Configuration σ}
    (h : m.Sound s) (hc : m.configuration = some c) (hl : m.LooksUp name depth s answer m' s') :
    m.processors.get? name = none ∧ answer = .ok none ∨ About name answer := by
  cases hl with
  | unconfigured hn => cases hn.symm.trans hc
  | unknown hn => exact .inl ⟨hn, rfl⟩
  | known hb => exact .inr (h.named hb)
  | fails => exact .inr rfl
  | builds ho _ hb =>
    obtain ⟨-, -, -, hname, -⟩ := hb.made
    exact .inr (hname.trans ho.named)

lemma Sound.about_of_sources {answer : Except Failure (Option (Processor σ))}
    {c : Configuration σ} {sources : List (InvokerSource σ)} (h : m.Sound s)
    (hc : m.configuration = some c) (hs : m.assembly.get? name = some sources)
    (hl : m.LooksUp name depth s answer m' s') : About name answer := by
  refine (h.about hc hl).resolve_left fun hn => ?_
  have hmem : name ∈ m.processors.keys := by
    rw [h.keys]
    exact (Table.mem_keys_iff _ _).mpr ⟨sources, hs⟩
  obtain ⟨cell, hcell⟩ := (Table.mem_keys_iff _ _).mp hmem
  cases hn.1.symm.trans hcell

/-- A look-up by group finds the processor that the last set-up gave the group to, as long as that
set-up would still give it to the same one; and once it would not, it finds something else. -/
theorem look_ups_by_group_iff (hv : s₀.Vacant) (h : Reaches {} s₀ history m s)
    (hgroups : m.groupsOf name = .ok groups) (hg : group ∈ groups) :
    (Change.registered (Change.untilSetUp history)).names.resolve group = name ∧
    (m.processorNameOf group = .ok name ↔ Change.KeepsName history group) ∧
    (Change.KeepsName history group → processorOfGroup? group m = processor? name m) ∧
    ∀ {depth found m₁ s₁ named m₂ s₂},
      processorOfGroup? group m depth s = some ((found, m₁), s₁) →
      processor? name m depth s = some ((named, m₂), s₂) →
        (found = named ↔ Change.KeepsName history group) := by
  have hsound := h.sound (.init hv)
  obtain ⟨c, sources, source, hc, hsources, hsource, rfl⟩ := exists_source hgroups hg
  obtain ⟨handlers, sagas, selectors, hassembly⟩ := h.assembled hv
  have hsnapshot := Assembly.resolve_group (hassembly ▸ hsources) hsource
  have hnow : m.processorNameOf source.group =
      .ok ((Change.registered history).names.resolve source.group) :=
    h.names_eq hv ▸ processorNameOf_of_configured hc
  have hkeeps : m.processorNameOf source.group = .ok name ↔
      Change.KeepsName history source.group := by
    rw [hnow, Change.KeepsName, hsnapshot, Except.ok.injEq]
  refine ⟨hsnapshot, hkeeps, fun hk => processorOfGroup?_eq (hkeeps.mpr hk),
    fun {depth found m₁ s₁ named m₂ s₂} hfound hnamed => ⟨?_, fun hk => ?_⟩⟩
  · rintro rfl
    rw [processorOfGroup?_eq hnow] at hfound
    have habout := hsound.about_of_sources hc hsources (looksUp_of_processor? hsound.ordered hnamed)
    obtain ⟨-, rfl⟩ | hother := hsound.about hc (looksUp_of_processor? hsound.ordered hfound)
    · exact habout.elim
    · exact (hother.eq habout).trans hsnapshot.symm
  · rw [processorOfGroup?_eq (hkeeps.mpr hk), hnamed] at hfound
    cases hfound
    rfl

end Module

namespace Sample

def elsewhere (group : String) : Change Unit := .register (.assignment group "elsewhere")

def reassigned (group : String) : List (Change Unit) := oneSaga ++ [elsewhere group]

def otherReassigned : Module Unit × System Unit := state (reassigned "other") [] (by decide +kernel)

end Sample

namespace Module

theorem other_group_reassigned :
    Sample.otherReassigned.1.groupsOf "ledger" = .ok ["ledger"] ∧
    Change.KeepsName (Sample.reassigned "other") "ledger" ∧
    Sample.otherReassigned.1.processorNameOf "ledger" = .ok "ledger" ∧
    processorOfGroup? "ledger" Sample.otherReassigned.1 =
      processor? "ledger" Sample.otherReassigned.1 := by
  have hgroups : Sample.otherReassigned.1.groupsOf "ledger" = .ok ["ledger"] := rfl
  have hreached : Reaches {} Sample.blank (Sample.reassigned "other") Sample.otherReassigned.1
      Sample.otherReassigned.2 := Sample.reaches_state _ _ _
  have hkeeps : Change.KeepsName (Sample.reassigned "other") "ledger" := rfl
  obtain ⟨-, hname, hsame, -⟩ :=
    look_ups_by_group_iff Sample.vacant_blank hreached hgroups List.mem_cons_self
  exact ⟨hgroups, hkeeps, hname.mpr hkeeps, hsame hkeeps⟩

theorem group_reassigned_after_set_up :
    ¬ ∀ (s₀ : System Unit) history m s names name groups group, s₀.Vacant →
      Reaches {} s₀ history m s → m.processorNames = .ok names → name ∈ names →
        m.groupsOf name = .ok groups → group ∈ groups →
          m.processorNameOf group = .ok name ∧ processorOfGroup? group m = processor? name m := by
  intro hall
  have hreached := Sample.reaches_state (Sample.reassigned "ledger") [] (by decide +kernel)
  have hname : (.ok "elsewhere" : Except Failure String) = .ok "ledger" :=
    (hall _ _ _ _ ["ledger"] "ledger" ["ledger"] "ledger" Sample.vacant_blank hreached rfl
      List.mem_cons_self rfl List.mem_cons_self).1
  exact absurd (Except.ok.inj hname) (by decide)

end Module

end EventProcessing
