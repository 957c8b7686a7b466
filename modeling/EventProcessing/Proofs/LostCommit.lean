import EventProcessing.Proofs.Protocol

namespace EventProcessing

variable {σ : Type}

def Failure.chain : Failure → List Failure
  | .context text cause => .context text cause :: cause.chain
  | .processorBuild name cause => .processorBuild name cause :: cause.chain
  | .lifecycle name action cause => .lifecycle name action cause :: cause.chain
  | failure => [failure]

lemma Failure.mem_chain_self (failure : Failure) : failure ∈ failure.chain := by
  cases failure <;> simp [chain]

namespace Protocol

variable {pipeline : Pipeline σ} {events : List EventMessage} {outcome : Outcome}
  {notes : List Note} {ending : Ending} {failure lost : Failure} {n : ℕ}

lemma ending_eq (h : Protocol pipeline events outcome notes ending) {other : Ending}
    (hm : Note.ended other ∈ notes) : other = ending := by
  obtain ⟨before, after, rfl, hbefore, hafter, -⟩ := h.ended
  have hother : other ∈ endings (before ++ .ended ending :: after) :=
    List.mem_filterMap.mpr ⟨_, hm, rfl⟩
  have hone : endings (before ++ .ended ending :: after) = [ending] := by
    rw [endings_append, hbefore]
    exact congrArg (ending :: ·) hafter
  rw [hone] at hother
  exact List.mem_singleton.mp hother

lemma weighings_eq (h : Protocol pipeline events outcome notes (.committed (.error lost)))
    (hf : failing? notes = some (n, failure)) : weighings notes = [(failure, false)] := by
  have hfirst := h.weighed
  rw [hf] at hfirst
  obtain ⟨⟨weighed, rollsBack⟩, hw, rfl⟩ := List.map_eq_singleton_iff.mp hfirst
  cases rollsBack with
  | false => exact hw
  | true => cases h.rolledBack.mpr ⟨n, _, hf, hw⟩

end Protocol

/-- The error handler is told of a failed commit if and only if no event failed before it, or the
first that did had the same failure in its chain. -/
theorem lostCommit_told_iff {pipeline : Pipeline σ} {chain : List (Interceptor σ)}
    {events : List EventMessage} {segment : Segment} {depth : ℕ} {s s' : System σ}
    {outcome : Outcome}
    (h : System.run depth (pipeline.processBatch chain events segment) s = some (outcome, s')) :
    ∃ notes, System.run depth (pipeline.watched chain events segment) (s.quiet []) =
        some (outcome, s'.quiet notes) ∧
      ∀ lost, Note.ended (.committed (.error lost)) ∈ notes →
        ∃ told, consultations notes = [(⟨pipeline.name, told, events⟩, outcome)] ∧
          (failing? notes = none → told = lost) ∧
          (∀ n failure, failing? notes = some (n, failure) →
            told = failure ∧ weighings notes = [(failure, false)]) ∧
          (lost ∈ told.chain ↔
            ∀ n failure, failing? notes = some (n, failure) → lost ∈ failure.chain) := by
  obtain ⟨notes, hp, hw⟩ := watched_processBatch h
  obtain ⟨ending, hprotocol⟩ := protocol_of_processes hp
  refine ⟨notes, hw, fun lost hm => ?_⟩
  obtain rfl := hprotocol.ending_eq hm
  have hasked := hprotocol.consulted
  cases hf : failing? notes with
  | none =>
    rw [hf] at hasked
    exact ⟨lost, hasked, fun _ => rfl, by simp, by simp [lost.mem_chain_self]⟩
  | some first =>
    obtain ⟨n, failure⟩ := first
    rw [hf] at hasked
    refine ⟨failure, hasked, by simp, ?_, by simp⟩
    rintro _ _ ⟨⟩
    exact ⟨rfl, hprotocol.weighings_eq hf⟩

namespace Sample

def both : List EventMessage := [event "first", event "second"]

def lossy : Pipeline Unit where
  name := "sample"
  invoker := halfDone.invoker
  errorHandler := ⟨⟨0, "swallowing"⟩, fun _ => return .ok ()⟩
  rollback := .never 0
  transactions :=
    ⟨⟨0, "lossy"⟩, return { commit := return .error (.report "lost"), rollback := return () }⟩
  monitor := .silent

def reports (text : String) : Failure → Bool
  | .report other => other == text
  | _ => false

def loses (text : String) : Note → Bool
  | .ended (.committed (.error failure)) => reports text failure
  | _ => false

lemma eq_of_reports {text : String} {failure : Failure} (h : reports text failure = true) :
    failure = .report text := by
  cases failure with
  | report other =>
    rw [reports, beq_iff_eq] at h
    rw [h]
  | _ => cases h

lemma lossy_run : ∃ s', System.run 1 (lossy.processBatch [] both .root) { shared := () } =
    some (.ok (), s') := ⟨_, rfl⟩

lemma lossy_notes : (System.run 1 (lossy.watched [] both .root)
    (System.quiet [] { shared := () })).any (fun result =>
      result.2.shared.notes.any (loses "lost") &&
        (consultations result.2.shared.notes).all (reports "broken" ·.1.failure)) = true := by
  decide +kernel

lemma lossy_noted {outcome : Outcome} {s' : System Unit} {notes : List Note}
    (hw : System.run 1 (lossy.watched [] both .root) (System.quiet [] { shared := () }) =
      some (outcome, s'.quiet notes)) :
    Note.ended (.committed (.error (.report "lost"))) ∈ notes ∧
      ∀ batch verdict, (batch, verdict) ∈ consultations notes →
        batch.failure = .report "broken" := by
  have hnotes := lossy_notes
  rw [hw, Option.any_some, Bool.and_eq_true, List.any_eq_true, List.all_eq_true] at hnotes
  obtain ⟨⟨entry, hm, hentry⟩, hasked⟩ := hnotes
  refine ⟨?_, fun batch verdict hb => eq_of_reports (hasked _ hb)⟩
  cases entry with
  | ended ending =>
    cases ending with
    | committed result =>
      cases result with
      | error failure => exact eq_of_reports hentry ▸ hm
      | ok _ => cases hentry
    | rolledBack => cases hentry
  | _ => cases hentry

end Sample

theorem lostCommit_untold : ∃ s' notes,
    System.run 1 (Sample.lossy.processBatch [] Sample.both .root) { shared := () } =
        some (.ok (), s') ∧
      System.run 1 (Sample.lossy.watched [] Sample.both .root) (System.quiet [] { shared := () }) =
        some (.ok (), System.quiet notes s') ∧
      Note.ended (.committed (.error (.report "lost"))) ∈ notes ∧
      ∀ batch verdict, (batch, verdict) ∈ consultations notes →
        Failure.report "lost" ∉ batch.failure.chain := by
  obtain ⟨s', hrun⟩ := Sample.lossy_run
  obtain ⟨notes, -, hw⟩ := watched_processBatch hrun
  obtain ⟨hlost, hasked⟩ := Sample.lossy_noted hw
  refine ⟨s', notes, hrun, hw, hlost, fun batch verdict hm => ?_⟩
  rw [hasked batch verdict hm]
  simp [Failure.chain]

theorem lossy_told : ∃ s' notes told,
    System.run 1 (Sample.lossy.watched [] Sample.both .root) (System.quiet [] { shared := () }) =
        some (.ok (), System.quiet notes s') ∧
      consultations notes = [(⟨"sample", told, Sample.both⟩, .ok ())] ∧
      (Failure.report "lost" ∈ told.chain ↔
        ∀ n failure, failing? notes = some (n, failure) →
          Failure.report "lost" ∈ failure.chain) := by
  obtain ⟨s', hrun⟩ := Sample.lossy_run
  obtain ⟨notes, hw, htold⟩ := lostCommit_told_iff hrun
  obtain ⟨told, hasked, -, -, hiff⟩ := htold _ (Sample.lossy_noted hw).1
  exact ⟨s', notes, told, hw, hasked, hiff⟩

end EventProcessing
