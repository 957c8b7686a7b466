import EventProcessing.Proofs.Tracking.Effects
import EventProcessing.Proofs.Tracking.Rounds

/-! The schedule takes the steps of the workers in one of the orders that a run may have. What it
does between them moves no position and gives no worker other work. -/

namespace EventProcessing

variable {σ : Type}

def Apart (p : Processor σ) (t : TrackingProcessor σ) (s : System σ) : Prop :=
  ∀ id work, s.workOf id = some work → work.processor ≠ p.self.id →
    (work.tokens.self.id, work.pipeline.name) ≠ (t.tokens.self.id, t.pipeline.name)

/-- All workers keep their work, and whatever run leads to `s` goes on to `s'`. -/
structure Onward (p : Processor σ) (t : TrackingProcessor σ) (s s' : System σ) : Prop where
  works : ∀ id, s'.workOf id = s.workOf id
  reaches : Apart p t s → ∀ {s₀ : System σ} {base : ℕ → Option (Option Token)}
    {attempts : List (Attempt σ)}, Reaches p t s₀ base attempts s →
      ∃ base' more, Reaches p t s₀ base' (attempts ++ more) s'

section Onward

variable {p : Processor σ} {t : TrackingProcessor σ} {s s' s'' : System σ} {depth id : ℕ}
  {work : SegmentWork σ}

lemma Apart.congr (h : Apart p t s) (hw : ∀ id, s'.workOf id = s.workOf id) : Apart p t s' := by
  intro id work hwork
  rw [hw] at hwork
  exact h id work hwork

lemma Onward.refl : Onward p t s s where
  works _ := rfl
  reaches _ _ base _ h := ⟨base, [], by rwa [List.append_nil]⟩

lemma Onward.trans (h : Onward p t s s') (h' : Onward p t s' s'') : Onward p t s s'' := by
  refine ⟨fun id => (h'.works id).trans (h.works id), fun ha _ _ attempts hr => ?_⟩
  obtain ⟨_, more, hr'⟩ := h.reaches ha hr
  obtain ⟨base, rest, hr''⟩ := h'.reaches (ha.congr h.works) hr'
  exact ⟨base, more ++ rest, by rwa [← List.append_assoc]⟩

lemma onward_of_transition {attempt : Option (Attempt σ)}
    (hw : ∀ id, s'.workOf id = s.workOf id)
    (h : Apart p t s → Transition p t s attempt s') : Onward p t s s' :=
  ⟨hw, fun ha _ _ _ hr => ⟨_, attempt.toList, .next hr (h ha)⟩⟩

lemma onward_of_same (hw : ∀ id, s'.workOf id = s.workOf id) (ht : s'.tokens = s.tokens)
    (hb : s'.buses = s.buses) : Onward p t s s' := by
  have h : Elsewhere p t s s' := by
    refine ⟨position?_congr ht, ?_, ?_⟩
    · rw [System.bus, System.bus, hb]
      exact .refl _
    · intro id worker hid _
      have hsame := hw id
      rw [System.workOf, hid] at hsame
      exact Option.map_eq_some_iff.mp hsame.symm
  exact onward_of_transition hw fun _ => .elsewhere h

lemma SegmentWork.step_cases {result : Except Failure Bool}
    (h : work.step depth s = some (result, s')) :
    System.Frame s s' ∨ ∃ middle token, System.Frame s middle ∧
      s' = middle.setTokenMemory work.tokens.self.id
        ((middle.tokenMemory work.tokens.self.id).store work.pipeline.name
          work.segment.id.toNat token) := by
  by_cases hr : result = .ok true
  · subst hr
    cases steps_of_step h with
    | @stored _ _ _ done _ last hr _ hp hs =>
      obtain ⟨middle, hmiddle, -, rfl⟩ | ⟨-, _, hs, -⟩ := TokenStore.put_cases hs
      · refine .inr ⟨middle, last, (hr.frame.trans (frame_process hp)).trans hmiddle, ?_⟩
        rw [hmiddle.tokenMemory_eq]
      · cases hs
  · exact .inl (frame_of_step h hr)

lemma elsewhere_of_step {result : Except Failure Bool}
    (h : work.step depth s = some (result, s'))
    (hne : (work.tokens.self.id, work.pipeline.name) ≠ (t.tokens.self.id, t.pipeline.name)) :
    Elsewhere p t s s' := by
  obtain hframe | ⟨middle, token, hframe, rfl⟩ := SegmentWork.step_cases h
  · exact elsewhere_of_frame hframe
  · obtain ⟨hpositions, hlog, hworkers⟩ : Elsewhere p t s middle := elsewhere_of_frame hframe
    refine ⟨fun k => ?_, hlog, hworkers⟩
    rw [← hpositions k]
    unfold TrackingProcessor.position? TrackingProcessor.memory
    by_cases hid : t.tokens.self.id = work.tokens.self.id
    · rw [hid, System.tokenMemory_setTokenMemory]
      refine Table.get?_put_of_ne _ _ fun he => hne ?_
      rw [hid, (Prod.mk.inj he).1]
    · rw [System.tokenMemory_setTokenMemory_of_ne _ _ hid]

lemma onward_of_step {result : Except Failure Bool} (hw : s.workOf id = some work)
    (h : work.step depth s = some (result, s')) : Onward p t s s' := by
  have hworkers : s'.workers = s.workers := by
    obtain hframe | ⟨middle, token, hframe, rfl⟩ := SegmentWork.step_cases h
    · exact hframe.workers
    · exact hframe.workers
  have hworks : ∀ id, s'.workOf id = s.workOf id := fun id => by
    rw [System.workOf, hworkers, System.workOf]
  obtain ⟨worker, hworker, rfl⟩ := Option.map_eq_some_iff.mp hw
  by_cases hp : worker.work.processor = p.self.id
  · exact onward_of_transition hworks fun _ => .work hworker hp h
  · exact onward_of_transition hworks fun ha => .elsewhere (elsewhere_of_step h (ha id _ hw hp))

instance : IsPreorder (System σ) (Onward p t) where
  refl _ := .refl
  trans _ _ _ := .trans

lemma allows_onward : Schedule.Allows (Onward p t) where
  beside h := onward_of_same (congrFun (System.workOf_congr h.workers)) h.tokens h.buses
  change hw hchanged := onward_of_same (congrFun (System.workOf_put hw hchanged.work)) rfl rfl
  step := onward_of_step

end Onward

namespace Schedule

variable {p : Processor σ} {t : TrackingProcessor σ} {s s' : System σ} {depth : ℕ}

theorem onward_runFor {milliseconds fuel : ℕ} {value : Unit}
    (h : runFor milliseconds fuel depth s = some (value, s')) : Onward p t s s' :=
  keeps_runFor allows_onward _ _ _ _ _ _ h

theorem onward_awaitTermination {other : Processor σ} {fuel : ℕ} {value : Unit}
    (h : awaitTermination other fuel depth s = some (value, s')) : Onward p t s s' := by
  obtain ⟨ids, middle, htake, h⟩ := Run.bind_eq_some.mp h
  have hfirst : Onward p t s middle := by
    cases htake
    exact onward_of_same (fun _ => rfl) rfl rfl
  exact hfirst.trans (keeps_awaitWorkers allows_onward _ _ _ _ _ _ h)

end Schedule

end EventProcessing
