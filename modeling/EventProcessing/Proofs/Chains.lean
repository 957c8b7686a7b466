import EventProcessing.InterceptorRegistry
import EventProcessing.Processor.Lifecycle
import EventProcessing.Proofs.Tracking.Rounds

/-! The chains of processors. Whatever a system runs and however time passes in it, a chain changes
only where an interceptor is added to it. -/

namespace EventProcessing

variable {σ α β : Type} {depth : ℕ} {s s' : System σ}

namespace System

structure Passes (s s' : System σ) : Prop where
  nextId : s.nextId ≤ s'.nextId
  chain : ∀ id, (s'.processor id).chain = (s.processor id).chain

instance : IsPreorder (System σ) Passes where
  refl _ := ⟨le_rfl, fun _ => rfl⟩
  trans _ _ _ hab hbc :=
    ⟨hab.nextId.trans hbc.nextId, fun id => (hbc.chain id).trans (hab.chain id)⟩

/-- No processor has a number that was not given yet. -/
def Vacant (s : System σ) : Prop := ∀ id, s.nextId ≤ id → (s.processor id).chain = []

lemma Passes.vacant (h : Passes s s') (hv : s.Vacant) : s'.Vacant := by
  intro id hid
  rw [h.chain]
  exact hv id (h.nextId.trans hid)

lemma Calm.passes (h : Calm s s') : Passes s s' :=
  ⟨h.nextId, fun id => by rw [h.processor_eq]⟩

theorem passes_of_run {program : Program σ α} {value : α}
    (h : System.run depth program s = some (value, s')) : Passes s s' :=
  (admits_calm.of_run h).passes

lemma processor_setProcessor_of_ne (s : System σ) {id other : ℕ} (state : ProcessorState σ)
    (h : other ≠ id) : (s.setProcessor id state).processor other = s.processor other := by
  simp [processor, setProcessor, Table.get?_put_of_ne _ _ h]

end System

lemma Run.Calm.passes {m : Run σ α} (h : m.Calm) : m.Keeps System.Passes :=
  fun _ _ _ _ hm => (h _ _ _ _ hm).passes

lemma passes_trace (line : TraceLine) : (Run.trace line : Run σ Unit).Keeps System.Passes :=
  .update fun _ => ⟨le_rfl, fun _ => rfl⟩

namespace Processor

variable (p : Processor σ)

lemma passes_updateState {f : ProcessorState σ → ProcessorState σ}
    (hf : ∀ state, (f state).chain = state.chain) : (p.updateState f).Keeps System.Passes := by
  refine .update fun s => ⟨le_rfl, fun id => ?_⟩
  by_cases h : id = p.self.id
  · subst h
    rw [System.processor_setProcessor, hf]
  · rw [System.processor_setProcessor_of_ne _ _ h]

lemma passes_state : p.state.Keeps System.Passes := .bind .system fun _ => .pure _

lemma passes_wake (f : Worker σ → Worker σ) (workers : List ℕ) :
    (Run.update (wake f workers)).Keeps System.Passes :=
  .update fun _ => ⟨le_rfl, fun _ => rfl⟩

lemma passes_startSubscribing (pipeline : Pipeline σ) (bus : BusId) :
    (p.startSubscribing pipeline bus).Keeps System.Passes := by
  refine .bind (passes_state p) fun state => ?_
  split
  · exact .pure _
  · refine .bind ?_ fun subscription => .bind (passes_updateState p fun _ => rfl) fun _ =>
      .bind (passes_trace _) fun _ => .pure _
    intro depth s value s' h
    cases h
    exact ⟨le_rfl, fun _ => rfl⟩

lemma passes_shutDownSubscribing (bus : BusId) :
    (p.shutDownSubscribing bus).Keeps System.Passes := by
  refine .bind (passes_state p) fun state => ?_
  split
  · exact .pure _
  · exact .bind (passes_updateState p fun _ => rfl) fun _ =>
      .bind (.update fun _ => ⟨le_rfl, fun _ => rfl⟩) fun _ => .bind (passes_trace _) fun _ =>
        .pure _

lemma passes_spawnAll (f : Segment → SegmentWork σ) (segments : List Segment) :
    Run.Keeps System.Passes (segments.mapM fun segment => spawn (f segment)) := by
  induction segments with
  | nil => exact .pure _
  | cons segment rest ih =>
    rw [List.mapM_cons]
    refine .bind ?_ fun _ => .bind ih fun _ => .pure _
    intro depth s value s' h
    cases h
    exact ⟨Nat.le_succ _, fun _ => rfl⟩

lemma passes_startTracking (t : TrackingProcessor σ) : (p.startTracking t).Keeps System.Passes := by
  refine .bind .system fun s => .bind (passes_state p) fun state => ?_
  split
  · exact .pure _
  · split
    · exact .pure _
    · refine .bind (passes_updateState p fun _ => rfl) fun _ => ?_
      split
      · exact .pure _
      · refine .bind t.calm_claimSegments.passes fun claimed => ?_
        cases claimed with
        | error failure => exact .pure _
        | ok segments =>
          exact .bind (passes_spawnAll _ segments) fun _ => .bind (passes_trace _) fun _ =>
            .bind (passes_updateState p fun _ => rfl) fun _ => .pure _

lemma passes_shutDownTracking : p.shutDownTracking.Keeps System.Passes := by
  refine .bind (passes_state p) fun state => ?_
  split
  · exact .pure _
  · exact .bind (passes_wake _ _) fun _ => .bind (passes_updateState p fun _ => rfl) fun _ =>
      .bind (passes_trace _) fun _ => .pure _

lemma passes_switchCustom (program : Program σ Outcome) (running : Bool) :
    (p.switchCustom program running).Keeps System.Passes := by
  refine .bind (Run.Calm.lift program).passes fun outcome => ?_
  cases outcome with
  | error failure => exact .pure _
  | ok _ => exact .bind (passes_updateState p fun _ => rfl) fun _ => .pure _

theorem passes_start : p.start.Keeps System.Passes := by
  unfold start
  cases p.kind with
  | subscribing pipeline bus => exact passes_startSubscribing p pipeline bus
  | tracking t => exact passes_startTracking p t
  | custom custom => exact passes_switchCustom p custom.start true

theorem passes_shutDown : p.shutDown.Keeps System.Passes := by
  unfold shutDown
  cases p.kind with
  | subscribing pipeline bus => exact passes_shutDownSubscribing p bus
  | tracking t => exact passes_shutDownTracking p
  | custom custom => exact passes_switchCustom p custom.shutDown false

theorem passes_abandon : p.abandon.Keeps System.Passes :=
  .bind (passes_state p) fun _ => passes_wake _ _

end Processor

namespace Schedule

lemma allows_passes : Allows (System.Passes (σ := σ)) where
  beside h := ⟨h.nextId.ge, fun id => by rw [System.processor, h.processors]; rfl⟩
  change _ _ := ⟨le_rfl, fun _ => rfl⟩
  step _ h := (SegmentWork.calm_step _ _ _ _ _ h).passes

theorem passes_runFor (milliseconds fuel : ℕ) :
    (runFor (σ := σ) milliseconds fuel).Keeps System.Passes :=
  keeps_runFor allows_passes milliseconds fuel

theorem passes_awaitTermination (p : Processor σ) (fuel : ℕ) :
    (awaitTermination p fuel).Keeps System.Passes := by
  refine .bind (.bind (p.passes_state) fun _ => .bind (p.passes_updateState fun _ => rfl) fun _ =>
    .pure _) fun _ => keeps_awaitWorkers allows_passes fuel _

end Schedule

def Interceptor.same (interceptor other : Interceptor σ) : Bool :=
  other.self.id == interceptor.self.id

namespace InterceptorRegistry

lemma addUnique_cases (chain : List (Interceptor σ)) (interceptor : Interceptor σ) :
    (∃ earlier ∈ chain, earlier.self.id = interceptor.self.id) ∧
        Interceptor.addUnique chain interceptor = chain ∨
      (∀ earlier ∈ chain, earlier.self.id ≠ interceptor.self.id) ∧
        Interceptor.addUnique chain interceptor = chain ++ [interceptor] := by
  unfold Interceptor.addUnique
  split
  · next h =>
    obtain ⟨earlier, he, hid⟩ := List.any_eq_true.mp h
    exact .inl ⟨⟨earlier, he, by simpa using hid⟩, rfl⟩
  · next h =>
    refine .inr ⟨fun earlier he hid => h (List.any_eq_true.mpr ⟨earlier, he, ?_⟩), rfl⟩
    simpa using hid

lemma unique_concat (interceptors : List (Interceptor σ)) (interceptor : Interceptor σ) :
    unique (interceptors ++ [interceptor]) =
      Interceptor.addUnique (unique interceptors) interceptor := by
  rw [unique, List.foldl_append]
  rfl

theorem mem_unique_iff (interceptors : List (Interceptor σ)) (interceptor : Interceptor σ) :
    interceptor ∈ unique interceptors ↔
      interceptors.find? (fun other => other.self.id = interceptor.self.id) =
        some interceptor := by
  induction interceptors using List.reverseRecOn generalizing interceptor with
  | nil => simp [unique]
  | append_singleton interceptors last ih =>
    rw [unique_concat, List.find?_append]
    by_cases hid : last.self.id = interceptor.self.id
    · have hlast : [last].find? (fun other => other.self.id = interceptor.self.id) = some last :=
        List.find?_cons_of_pos (by simpa using hid)
      rw [hlast]
      obtain ⟨⟨earlier, he, hsame⟩, h⟩ | ⟨hnew, h⟩ := addUnique_cases (unique interceptors) last
      · have hfound := (ih earlier).mp he
        rw [hsame, hid] at hfound
        rw [h, ih, hfound, Option.some_or]
      · have hnone : interceptors.find? (fun other => other.self.id = interceptor.self.id) =
            none := by
          by_contra hsome
          obtain ⟨found, hfound⟩ := Option.ne_none_iff_exists'.mp hsome
          have hfid : found.self.id = interceptor.self.id := by simpa using List.find?_some hfound
          exact hnew found ((ih found).mpr (by rw [hfid, hfound])) (hfid.trans hid.symm)
        have hout : interceptor ∉ unique interceptors := fun hm => hnew interceptor hm hid.symm
        rw [h, hnone, Option.none_or, List.mem_append, List.mem_singleton]
        simp [hout, eq_comm]
    · have hlast : [last].find? (fun other => other.self.id = interceptor.self.id) = none :=
        List.find?_eq_none.mpr fun other ho => by simpa [List.mem_singleton.mp ho] using hid
      have hne : interceptor ≠ last := fun h => hid (by rw [h])
      rw [hlast, Option.or_none, ← ih]
      obtain ⟨-, h⟩ | ⟨-, h⟩ := addUnique_cases (unique interceptors) last
      · rw [h]
      · rw [h, List.mem_append, List.mem_singleton, or_iff_left hne]

theorem nodup_unique (interceptors : List (Interceptor σ)) :
    ((unique interceptors).map fun interceptor => interceptor.self.id).Nodup := by
  induction interceptors using List.reverseRecOn with
  | nil => exact List.nodup_nil
  | append_singleton interceptors last ih =>
    rw [unique_concat]
    obtain ⟨-, h⟩ | ⟨hnew, h⟩ := addUnique_cases (unique interceptors) last
    · rwa [h]
    · rw [h, List.map_append]
      refine ih.append (List.nodup_singleton _) (List.disjoint_singleton.mpr fun hm => ?_)
      obtain ⟨earlier, he, hid⟩ := List.mem_map.mp hm
      exact hnew earlier he hid

lemma foldl_addUnique {chain added : List (Interceptor σ)}
    (h : ((chain ++ added).map fun interceptor => interceptor.self.id).Nodup) :
    added.foldl Interceptor.addUnique chain = chain ++ added := by
  induction added generalizing chain with
  | nil => simp
  | cons interceptor rest ih =>
    have hnew : Interceptor.addUnique chain interceptor = chain ++ [interceptor] := by
      obtain ⟨⟨earlier, he, hid⟩, -⟩ | ⟨-, h'⟩ := addUnique_cases chain interceptor
      · rw [List.map_append, List.nodup_append] at h
        exact absurd hid (h.2.2 _ (List.mem_map_of_mem he) _ (by simp))
      · exact h'
    rw [List.foldl_cons, hnew, ih (by simpa using h)]
    simp

lemma unique_unique (interceptors : List (Interceptor σ)) :
    unique (unique interceptors) = unique interceptors :=
  foldl_addUnique (nodup_unique interceptors)

lemma exists_mem_unique {interceptors : List (Interceptor σ)} {interceptor : Interceptor σ}
    (h : interceptor ∈ interceptors) :
    ∃ kept ∈ unique interceptors, kept.self.id = interceptor.self.id := by
  obtain ⟨kept, hkept⟩ : ∃ kept, interceptors.find?
      (fun other => other.self.id = interceptor.self.id) = some kept := by
    refine Option.isSome_iff_exists.mp (List.find?_isSome.mpr ⟨interceptor, h, ?_⟩)
    simp
  have hid : kept.self.id = interceptor.self.id := by simpa using List.find?_some hkept
  exact ⟨kept, (mem_unique_iff _ _).mpr (by rw [hid, hkept]), hid⟩

lemma foldl_addUnique_reverse (interceptors chain : List (Interceptor σ)) :
    interceptors.foldl Interceptor.addUnique chain.reverse =
      List.eraseDupsBy.loop Interceptor.same interceptors chain := by
  induction interceptors generalizing chain with
  | nil => rfl
  | cons interceptor rest ih =>
    have hadd : Interceptor.addUnique chain.reverse interceptor =
        if chain.any (Interceptor.same interceptor) then chain.reverse
        else (interceptor :: chain).reverse := by
      rw [Interceptor.addUnique, List.any_reverse, List.reverse_cons]
      rfl
    rw [List.foldl_cons, List.eraseDupsBy.loop, hadd]
    cases chain.any (Interceptor.same interceptor)
    · exact ih (interceptor :: chain)
    · exact ih chain

lemma unique_eq (interceptors : List (Interceptor σ)) :
    unique interceptors = interceptors.eraseDupsBy Interceptor.same :=
  foldl_addUnique_reverse interceptors []

end InterceptorRegistry

namespace Processor

variable (p : Processor σ)

def extend (chain : List (Interceptor σ)) (interceptor : Interceptor σ) : List (Interceptor σ) :=
  match p.kind with
  | .custom _ => chain ++ [interceptor]
  | _ => Interceptor.addUnique chain interceptor

def IsBuiltIn : Prop := ∀ custom, p.kind ≠ .custom custom

variable {p}

lemma extend_of_isBuiltIn (h : p.IsBuiltIn) : p.extend = Interceptor.addUnique := by
  funext chain interceptor
  unfold extend
  split
  · next custom hk => exact absurd hk (h custom)
  · rfl

structure Receives (p : Processor σ) (added : List (Interceptor σ)) (s s' : System σ) : Prop where
  nextId : s.nextId ≤ s'.nextId
  chain : (s'.processor p.self.id).chain = added.foldl p.extend (s.processor p.self.id).chain
  others : ∀ id, id ≠ p.self.id → (s'.processor id).chain = (s.processor id).chain

variable {added more : List (Interceptor σ)} {middle : System σ}

lemma Receives.of_passes (h : s.Passes s') : p.Receives [] s s' :=
  ⟨h.nextId, h.chain _, fun id _ => h.chain id⟩

lemma Receives.trans (h : p.Receives added s middle) (h' : p.Receives more middle s') :
    p.Receives (added ++ more) s s' where
  nextId := h.nextId.trans h'.nextId
  chain := by rw [h'.chain, h.chain, List.foldl_append]
  others id hid := (h'.others id hid).trans (h.others id hid)

lemma Receives.vacant (h : p.Receives added s s') (hv : s.Vacant) (hid : p.self.id < s.nextId) :
    s'.Vacant := by
  intro id hle
  have hne : id ≠ p.self.id := fun he => by
    have := h.nextId
    omega
  rw [h.others id hne]
  exact hv id (h.nextId.trans hle)

lemma receives_addInterceptor {interceptor : Interceptor σ} {value : Unit}
    (h : p.addInterceptor interceptor depth s = some (value, s')) :
    p.Receives [interceptor] s s' := by
  cases h
  refine ⟨le_rfl, ?_, fun id hid => ?_⟩
  · rw [System.processor_setProcessor]
    rfl
  · rw [System.processor_setProcessor_of_ne _ _ hid]

end Processor

end EventProcessing
