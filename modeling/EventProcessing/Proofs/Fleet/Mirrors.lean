import EventProcessing.Proofs.Fleet.Sparing

/-! Two systems in which a processor finds the same. What it asks of its store and its source has
the same answers in both, and its workers take the same steps. -/

namespace EventProcessing.Fleet

variable {ι σ α β : Type} {τ : ι → Type} (fleet : Fleet ι σ) (part : (i : ι) → σ → τ i) (i : ι)

structure Alike (s r : System σ) : Prop where
  same : Same part i s r
  memory : ((fleet.tracking i).memory s).under (fleet.name i) =
    ((fleet.tracking i).memory r).under (fleet.name i)
  hasRuntime : s.hasRuntime = r.hasRuntime
  chain : (s.processor (fleet.id i)).chain = (r.processor (fleet.id i)).chain
  obeys : ∀ interceptor ∈ (s.processor (fleet.id i)).chain, interceptor.Obeys (.own part i)

def Mirrors (m m' : Run σ α) : Prop :=
  ∀ depth s r, fleet.Alike part i s r → ∃ a s' r',
    m depth s = some (a, s') ∧ m' depth r = some (a, r') ∧ fleet.Alike part i s' r'

variable {fleet part i} {depth : ℕ} {s s' r r' : System σ}

lemma Alike.setTokenMemory {memory memory' : TokenMemory} (h : fleet.Alike part i s r)
    (hm : memory.under (fleet.name i) = memory'.under (fleet.name i)) :
    fleet.Alike part i (s.setTokenMemory (fleet.tracking i).tokens.self.id memory)
      (r.setTokenMemory (fleet.tracking i).tokens.self.id memory') := by
  refine ⟨⟨h.same.part, h.same.buses⟩, ?_, h.hasRuntime, h.chain, h.obeys⟩
  rw [TrackingProcessor.memory, System.tokenMemory_setTokenMemory, hm, TrackingProcessor.memory,
    System.tokenMemory_setTokenMemory]

lemma Alike.segments_eq (h : fleet.Alike part i s r) :
    ((fleet.tracking i).memory s).segments (fleet.name i) =
      ((fleet.tracking i).memory r).segments (fleet.name i) := by
  rw [← TokenMemory.segments_under, h.memory, TokenMemory.segments_under]

lemma Alike.get?_eq (h : fleet.Alike part i s r) (k : ℕ) :
    ((fleet.tracking i).memory s).get? (fleet.name i, k) =
      ((fleet.tracking i).memory r).get? (fleet.name i, k) := by
  rw [← TokenMemory.get?_under, h.memory, TokenMemory.get?_under]

namespace Mirrors

lemma follows {m m' : Run σ α} (h : fleet.Mirrors part i m m') (ha : fleet.Alike part i s r) {a : α}
    (hs : m depth s = some (a, s')) :
    ∃ r', m' depth r = some (a, r') ∧ fleet.Alike part i s' r' := by
  obtain ⟨b, _, r', hs', hr, ha'⟩ := h depth s r ha
  rw [hs] at hs'
  cases hs'
  exact ⟨r', hr, ha'⟩

lemma pure (a : α) : fleet.Mirrors part i (Pure.pure a) (Pure.pure a) :=
  fun _ s r ha => ⟨a, s, r, rfl, rfl, ha⟩

lemma bind {m m' : Run σ α} {next next' : α → Run σ β} (hm : fleet.Mirrors part i m m')
    (hn : ∀ a, fleet.Mirrors part i (next a) (next' a)) :
    fleet.Mirrors part i (m >>= next) (m' >>= next') := by
  intro depth s r ha
  obtain ⟨a, middle, middle', hs, hr, hmiddle⟩ := hm depth s r ha
  obtain ⟨b, s', r', hs', hr', ha'⟩ := hn a depth middle middle' hmiddle
  exact ⟨b, s', r', Run.bind_eq_some.mpr ⟨a, middle, hs, hs'⟩,
    Run.bind_eq_some.mpr ⟨a, middle', hr, hr'⟩, ha'⟩

lemma system {next next' : System σ → Run σ α}
    (hn : ∀ s r, fleet.Alike part i s r → fleet.Mirrors part i (next s) (next' r)) :
    fleet.Mirrors part i (Run.system >>= next) (Run.system >>= next') := by
  intro depth s r ha
  obtain ⟨a, s', r', hs, hr, ha'⟩ := hn s r ha depth s r ha
  exact ⟨a, s', r', Run.bind_eq_some.mpr ⟨s, s, rfl, hs⟩, Run.bind_eq_some.mpr ⟨r, r, rfl, hr⟩,
    ha'⟩

lemma memory {next next' : TokenMemory → Run σ α}
    (hn : ∀ s r, fleet.Alike part i s r → fleet.Mirrors part i
      (next ((fleet.tracking i).memory s)) (next' ((fleet.tracking i).memory r))) :
    fleet.Mirrors part i ((fleet.tracking i).tokens.memory >>= next)
      ((fleet.tracking i).tokens.memory >>= next') :=
  Mirrors.system hn

lemma update {f f' : System σ → System σ}
    (hf : ∀ s r, fleet.Alike part i s r → fleet.Alike part i (f s) (f' r)) :
    fleet.Mirrors part i (Run.update f) (Run.update f') :=
  fun _ s r ha => ⟨(), f s, f' r, rfl, rfl, hf s r ha⟩

lemma lift {program : Program σ α} {P : α → Prop} (h : (ProgramLogic.own part i).Holds program P) :
    fleet.Mirrors part i (liftM program) (liftM program) := by
  intro depth s r ha
  obtain ⟨a, s', r', hs, hr, hsame, -⟩ := h depth s r ha.same
  have hframe := System.frame_run hs
  have hframe' := System.frame_run hr
  have hstate : s'.processor (fleet.id i) = s.processor (fleet.id i) := by
    rw [System.processor, hframe.processors, System.processor]
  have hstate' : r'.processor (fleet.id i) = r.processor (fleet.id i) := by
    rw [System.processor, hframe'.processors, System.processor]
  refine ⟨a, s', r', hs, hr, hsame, ?_, ?_, ?_, ?_⟩
  · rw [TrackingProcessor.memory_eq_of_frame hframe, ha.memory,
      TrackingProcessor.memory_eq_of_frame hframe']
  · rw [hframe.hasRuntime, ha.hasRuntime, hframe'.hasRuntime]
  · rw [hstate, ha.chain, hstate']
  · rw [hstate]
    exact ha.obeys

end Mirrors

section Calls

variable (hp : fleet.Private part)

include hp

lemma mirrors_fetch (segment : ℕ) :
    fleet.Mirrors part i ((fleet.tracking i).tokens.fetch (fleet.name i) segment)
      ((fleet.tracking i).tokens.fetch (fleet.name i) segment) := by
  refine .bind (.lift (hp.tokens i _)) fun outcome => ?_
  cases outcome with
  | error failure => exact .pure _
  | ok _ =>
    refine .memory fun s r ha => ?_
    rw [TokenMemory.fetch, ha.get?_eq, TokenMemory.fetch]
    exact .pure _

lemma mirrors_segments :
    fleet.Mirrors part i ((fleet.tracking i).tokens.segments (fleet.name i))
      ((fleet.tracking i).tokens.segments (fleet.name i)) := by
  refine .bind (.lift (hp.tokens i _)) fun outcome => ?_
  cases outcome with
  | error failure => exact .pure _
  | ok _ =>
    refine .memory fun s r ha => ?_
    rw [ha.segments_eq]
    exact .pure _

lemma mirrors_put (segment : ℕ) (token : Token) :
    fleet.Mirrors part i ((fleet.tracking i).tokens.put (fleet.name i) segment token)
      ((fleet.tracking i).tokens.put (fleet.name i) segment token) := by
  refine .bind (.lift (hp.tokens i _)) fun outcome => ?_
  cases outcome with
  | error failure => exact .pure _
  | ok _ =>
    refine .memory fun s r ha => .bind (.update fun s' r' ha' => ?_) fun _ => .pure _
    apply ha'.setTokenMemory
    rw [TokenMemory.store, TokenMemory.under_put, ha.memory, TokenMemory.store,
      TokenMemory.under_put]

lemma mirrors_begin (count : ℕ) (initial : Option Token) :
    fleet.Mirrors part i ((fleet.tracking i).tokens.begin (fleet.name i) count initial)
      ((fleet.tracking i).tokens.begin (fleet.name i) count initial) := by
  refine .bind (.lift (hp.tokens i _)) fun outcome => ?_
  cases outcome with
  | error failure => exact .pure _
  | ok _ =>
    refine .memory fun s r ha => ?_
    unfold TokenMemory.begin?
    rw [ha.segments_eq]
    by_cases he : (((fleet.tracking i).memory r).segments (fleet.name i)).isEmpty = true
    · rw [if_pos he, if_pos he]
      refine .bind (.update fun s' r' ha' => ?_) fun _ => .pure _
      apply ha'.setTokenMemory
      rw [TokenMemory.under_create, ha.memory, TokenMemory.under_create]
    · rw [if_neg he, if_neg he]
      exact .pure _

lemma mirrors_read (after : Option Token) (max : ℕ) :
    fleet.Mirrors part i ((fleet.tracking i).source.read after max)
      ((fleet.tracking i).source.read after max) := by
  refine .bind (.lift (hp.source i)) fun outcome => ?_
  cases outcome with
  | error failure => exact .pure _
  | ok _ =>
    refine .system fun s r ha => ?_
    rw [ha.same.buses]
    exact .pure _

omit hp in
lemma mirrors_initialToken :
    fleet.Mirrors part i (fleet.tracking i).initialToken (fleet.tracking i).initialToken := by
  unfold TrackingProcessor.initialToken
  split
  · exact .pure _
  · refine .system fun s r ha => ?_
    rw [ha.same.buses]
    exact .pure _

lemma mirrors_claimIds :
    fleet.Mirrors part i (fleet.tracking i).claimIds (fleet.tracking i).claimIds := by
  refine .bind (mirrors_segments hp) fun found => ?_
  rcases found with failure | (_ | ⟨id, ids⟩)
  · exact .pure _
  · dsimp only
    split
    · exact .pure _
    · refine .bind mirrors_initialToken fun initial =>
        .bind (mirrors_begin hp _ _) fun outcome => ?_
      cases outcome with
      | error failure => exact .pure _
      | ok _ => exact mirrors_segments hp
  · exact .pure _

lemma mirrors_claimSegments :
    fleet.Mirrors part i (fleet.tracking i).claimSegments (fleet.tracking i).claimSegments := by
  refine .bind (mirrors_claimIds hp) fun found => ?_
  cases found with
  | error failure => exact .pure _
  | ok ids =>
    dsimp only
    split
    · exact .pure _
    · exact .pure _

lemma mirrors_step (segment : Segment) :
    fleet.Mirrors part i (fleet.work i segment).step (fleet.work i segment).step := by
  refine .bind (mirrors_fetch hp _) fun fetched => ?_
  cases fetched with
  | error failure => exact .pure _
  | ok token =>
    refine .bind (mirrors_read hp _ _) fun batch => ?_
    cases batch with
    | error failure => exact .pure _
    | ok batch =>
      dsimp only
      split
      · exact .pure _
      · refine .system fun s r ha => ?_
        have hbatch := ((hp.pipeline i).obeys ha.obeys segment).processBatch
        change fleet.Mirrors part i _ ((liftM ((fleet.tracking i).pipeline.processBatch
          (r.processor (fleet.id i)).chain _ segment)) >>= _)
        rw [← ha.chain]
        refine .bind (.lift (hbatch _)) fun outcome => ?_
        cases outcome with
        | error failure => exact .pure _
        | ok _ =>
          refine .bind (mirrors_put hp _ _) fun stored => ?_
          cases stored with
          | error failure => exact .pure _
          | ok _ => exact .pure _

end Calls

end EventProcessing.Fleet
