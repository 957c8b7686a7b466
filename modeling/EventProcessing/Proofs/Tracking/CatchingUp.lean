import EventProcessing.Proofs.Tracking.Effects
import Mathlib.Algebra.Order.Floor.Div

namespace EventProcessing

variable {σ : Type}

namespace Bus

lemma map_message_entriesFrom (n : ℕ) (events : List EventMessage) :
    (entriesFrom n events).map TrackedEvent.message = events := by
  induction events generalizing n with
  | nil => rfl
  | cons event rest ih => rw [entriesFrom, List.map_cons, ih]

lemma numbered_entriesFrom (events : List EventMessage) : Numbered (entriesFrom 0 events) :=
  Extends.numbered ⟨events, rfl⟩

end Bus

lemma ceilDiv_succ {size length first : ℕ} (hpos : 0 < size) (hbehind : first < length) :
    (length - first) ⌈/⌉ size = (length - min length (first + size)) ⌈/⌉ size + 1 := by
  rw [Nat.ceilDiv_eq_add_pred_div, Nat.ceilDiv_eq_add_pred_div]
  obtain hlast | hmore := le_total length (first + size)
  · rw [min_eq_left hlast, Nat.sub_self, Nat.zero_add,
      Nat.div_eq_of_lt (by omega : size - 1 < size),
      show length - first + size - 1 = length - first - 1 + size by omega,
      Nat.add_div_right _ hpos, Nat.div_eq_of_lt (by omega)]
  · rw [min_eq_right hmore,
      show length - first + size - 1 = length - (first + size) + size - 1 + size by omega,
      Nat.add_div_right _ hpos]

lemma replicate_min_succ {α : Type} (n r : ℕ) (a b : α) :
    a :: (List.replicate (min n r) a ++ List.replicate (n - r) b) =
      List.replicate (min (n + 1) (r + 1)) a ++ List.replicate (n + 1 - (r + 1)) b := by
  rw [Nat.add_min_add_right, List.replicate_succ, Nat.add_sub_add_right, List.cons_append]

/-- Nothing is in the way of a worker. As long as the system is fit, its store and its source let it
through, and what it reads of the events goes through its pipeline without a failure. None of this
adds to the log. -/
structure Unhindered (work : SegmentWork σ) (depth : ℕ) (events : List EventMessage)
    (Fit : System σ → Prop) : Prop where
  log : ∀ s, Fit s → (s.bus work.source.bus).log = Bus.entriesFrom 0 events
  fetches : ∀ s, Fit s → ∃ s', System.run depth
    (work.tokens.gate (.fetch work.pipeline.name work.segment.id.toNat)) s = some (.ok (), s') ∧
      Fit s'
  reads : ∀ s, Fit s → ∃ s', System.run depth work.source.gate s = some (.ok (), s') ∧ Fit s'
  processes : ∀ s batch, Fit s → batch.length ≤ work.batchSize →
    batch <:+: Bus.entriesFrom 0 events →
      ∃ s', work.process batch depth s = some (.ok (), s') ∧ Fit s'
  stores : ∀ s token, Fit s → ∃ s', System.run depth
    (work.tokens.gate (.store work.pipeline.name work.segment.id.toNat token)) s =
      some (.ok (), s') ∧ Fit s'
  stored : ∀ s token, Fit s → Fit (s.setTokenMemory work.tokens.self.id
    ((s.tokenMemory work.tokens.self.id).store work.pipeline.name work.segment.id.toNat token))

namespace SegmentWork

variable {work : SegmentWork σ} {depth : ℕ} {s s' : System σ} {token : Option Token}

def strides (work : SegmentWork σ) (depth : ℕ) : ℕ → System σ →
    Option (List (Except Failure Bool) × List (Attempt σ) × System σ)
  | 0, s => some ([], [], s)
  | n + 1, s => do
    let (result, middle) ← work.step depth s
    let (results, attempts, s') ← work.strides depth n middle
    return (result :: results, (work.attempt? depth s result).toList ++ attempts, s')

lemma strides_succ {n : ℕ} {result : Except Failure Bool} {middle : System σ}
    {results : List (Except Failure Bool)} {attempts : List (Attempt σ)}
    (hs : work.step depth s = some (result, middle))
    (hn : work.strides depth n middle = some (results, attempts, s')) :
    work.strides depth (n + 1) s =
      some (result :: results, (work.attempt? depth s result).toList ++ attempts, s') := by
  simp only [strides, hs, hn, Option.bind_eq_bind, Option.bind_some, Option.pure_def]

end SegmentWork

def Attempt.HandledBy (a : Attempt σ) (work : SegmentWork σ) (depth : ℕ) : Prop :=
  a.work = work ∧ a.depth = depth ∧ a.events ≠ [] ∧ ∃ done, System.run depth
    (work.pipeline.processBatch a.chain a.events work.segment) a.start = some (.ok (), done)

namespace SegmentWork

def position? (work : SegmentWork σ) (s : System σ) : Option (Option Token) :=
  (s.tokenMemory work.tokens.self.id).get? (work.pipeline.name, work.segment.id.toNat)

variable {work : SegmentWork σ} {depth : ℕ} {events : List EventMessage} {Fit : System σ → Prop}
  {s : System σ} {token : Option Token}

lemma reads_of_unhindered (hu : Unhindered work depth events Fit) (hs : Fit s)
    (ht : work.position? s = some token) :
    ∃ start, work.Reads depth s token
      (readLog (Bus.entriesFrom 0 events) token work.batchSize) start ∧ Fit start := by
  obtain ⟨middle, hf, hm⟩ := hu.fetches s hs
  obtain ⟨start, hr, hstart⟩ := hu.reads middle hm
  refine ⟨start, ⟨middle, ?_, ?_⟩, hstart⟩
  · have hfetch := TokenStore.fetch_of_ok hf
    rw [TokenMemory.fetch, show Table.get? _ _ = _ from ht] at hfetch
    exact hfetch
  · rw [← hu.log start hstart]
    exact Run.bind_eq_some.mpr ⟨_, _, hr, rfl⟩

lemma step_at_end (hu : Unhindered work depth events Fit) (hs : Fit s)
    (ht : work.position? s = some token) (hend : events.length ≤ covered token) :
    ∃ s', work.step depth s = some (.ok false, s') ∧
      work.attempt? depth s (.ok false) = none ∧ Fit s' ∧ work.position? s' = some token := by
  obtain ⟨start, hr, hstart⟩ := reads_of_unhindered hu hs ht
  have hnil : readLog (Bus.entriesFrom 0 events) token work.batchSize = [] := by
    rw [readLog, List.drop_eq_nil_of_le ((Bus.length_entriesFrom 0 events).trans_le hend),
      List.take_nil]
  rw [hnil] at hr
  refine ⟨start, step_of_idle hr, attempt?_of_idle hr _, hstart, ?_⟩
  rw [position?, hr.frame.tokenMemory_eq]
  exact ht

lemma step_behind (hu : Unhindered work depth events Fit) (hs : Fit s)
    (ht : work.position? s = some token) (hpos : 0 < work.batchSize)
    (hbehind : covered token < events.length) :
    ∃ a last s', work.step depth s = some (.ok true, s') ∧
      work.attempt? depth s (.ok true) = some a ∧ a.HandledBy work depth ∧
      a.events = (events.drop (covered token)).take work.batchSize ∧ Fit s' ∧
      work.position? s' = some (some last) ∧
      covered (some last) = min events.length (covered token + work.batchSize) := by
  obtain ⟨start, hr, hstart⟩ := reads_of_unhindered hu hs ht
  generalize hbatch : readLog (Bus.entriesFrom 0 events) token work.batchSize = batch at hr
  have hread : ReadFrom (Bus.entriesFrom 0 events) token work.batchSize batch :=
    hbatch ▸ readFrom_readLog (Bus.numbered_entriesFrom events) _ _
  have hmessages : batch.map TrackedEvent.message =
      (events.drop (covered token)).take work.batchSize := by
    rw [← hbatch, readLog, List.map_take, List.map_drop, Bus.map_message_entriesFrom]
  have hlength : batch.length = min work.batchSize (events.length - covered token) := by
    rw [← List.length_map TrackedEvent.message, hmessages, List.length_take, List.length_drop]
  have hne : batch ≠ [] := List.length_pos_iff.mp (by omega)
  obtain ⟨last, hl⟩ : ∃ last, headToken? batch = some last :=
    Option.ne_none_iff_exists'.mp (mt headToken?_eq_none.mp hne)
  have hpart : batch <:+: Bus.entriesFrom 0 events := by
    rw [← hbatch]
    exact (List.take_prefix _ _).isInfix.trans (List.drop_suffix _ _).isInfix
  obtain ⟨done, hp, hdone⟩ := hu.processes start batch hstart hread.length_le hpart
  obtain ⟨passed, hg, hpassed⟩ := hu.stores done last hdone
  have hstore := TokenStore.put_of_ok hg
  rw [← (System.frame_run hg).tokenMemory_eq] at hstore
  refine ⟨⟨work, depth, token, batch, start, .ok true⟩, last, _, step_of_stored hr hl hp hstore,
    attempt?_of_reads hr hne _, ⟨rfl, rfl, mt List.map_eq_nil_iff.mp hne, done, hp⟩, hmessages,
    hu.stored passed last hpassed, ?_, ?_⟩
  · rw [position?, System.tokenMemory_setTokenMemory, TokenMemory.get?_store, if_pos rfl]
  · rw [hread.covered_last hl, hlength]
    omega

lemma strides_of_unhindered (hu : Unhindered work depth events Fit) (hpos : 0 < work.batchSize)
    (n : ℕ) (hs : Fit s) (ht : work.position? s = some token) :
    ∃ attempts s' token',
      work.strides depth n s = some
        (List.replicate (min n ((events.length - covered token) ⌈/⌉ work.batchSize)) (.ok true) ++
          List.replicate (n - (events.length - covered token) ⌈/⌉ work.batchSize) (.ok false),
          attempts, s') ∧
      (∀ a ∈ attempts, a.HandledBy work depth) ∧
      attempts.flatMap Attempt.events =
        (events.drop (covered token)).take (work.batchSize * n) ∧
      work.position? s' = some token' ∧
      covered token' =
        max (covered token) (min events.length (covered token + work.batchSize * n)) := by
  -- On the number of steps, from any position: the first step moves it over at most one batch.
  induction n generalizing s token with
  | zero =>
    refine ⟨[], s, token, ?_, List.forall_mem_nil _, ?_, ht, ?_⟩
    · rw [Nat.zero_min, Nat.zero_sub]
      rfl
    · rw [Nat.mul_zero, List.take_zero]
      rfl
    · omega
  | succ n ih =>
    obtain hend | hbehind := le_or_gt events.length (covered token)
    · obtain ⟨middle, hstep, hnone, hm, hmt⟩ := step_at_end hu hs ht hend
      obtain ⟨attempts, s', token', hrest, hall, hevents, ht', hc⟩ := ih hm hmt
      rw [Nat.sub_eq_zero_of_le hend, zero_ceilDiv, Nat.min_zero, Nat.sub_zero] at hrest
      refine ⟨attempts, s', token', ?_, hall, ?_, ht', ?_⟩
      · rw [strides_succ hstep hrest, hnone, Nat.sub_eq_zero_of_le hend, zero_ceilDiv, Nat.min_zero,
          Nat.sub_zero]
        rfl
      · rw [hevents, List.drop_eq_nil_of_le hend, List.take_nil, List.take_nil]
      · rw [hc]
        omega
    · obtain ⟨a, last, middle, hstep, hread, ha, hbatch, hm, hmt, hlast⟩ :=
        step_behind hu hs ht hpos hbehind
      obtain ⟨attempts, s', token', hrest, hall, hevents, ht', hc⟩ := ih hm hmt
      rw [hlast] at hrest hevents hc
      refine ⟨a :: attempts, s', token', ?_, List.forall_mem_cons.mpr ⟨ha, hall⟩, ?_, ht', ?_⟩
      · rw [strides_succ hstep hrest, hread, replicate_min_succ, ← ceilDiv_succ hpos hbehind]
        rfl
      · have hdrop : events.drop (min events.length (covered token + work.batchSize)) =
            events.drop (covered token + work.batchSize) := by
          obtain hle | hge := le_total events.length (covered token + work.batchSize)
          · rw [min_eq_left hle, List.drop_length, List.drop_eq_nil_of_le hle]
          · rw [min_eq_right hge]
        rw [List.flatMap_cons, hbatch, hevents, hdrop, Nat.mul_succ,
          Nat.add_comm (work.batchSize * n), List.take_add, List.drop_drop]
      · rw [hc, Nat.mul_succ]
        omega

end SegmentWork

/-- Steps of a worker that nothing is in the way of handle one batch each as long as events remain,
and then find nothing more. What they handle in all is what remained, in order. From then on the
token is that of the last event, or what it was if nothing remained. -/
theorem catches_up {id : ℕ} {t : TrackingProcessor σ} {segment : Segment} {depth : ℕ}
    {events : List EventMessage} {Fit : System σ → Prop} {s : System σ} {token : Option Token}
    (hu : Unhindered (Processor.work id t segment) depth events Fit) (hs : Fit s)
    (ht : t.position? s segment.id.toNat = some token) (n : ℕ) :
    let size := max t.settings.batchSize 1
    let busy := (events.length - covered token) ⌈/⌉ size
    ∃ attempts s',
      (Processor.work id t segment).strides depth n s =
        some (List.replicate (min n busy) (.ok true) ++ List.replicate (n - busy) (.ok false),
          attempts, s') ∧
      (∀ a ∈ attempts, a.HandledBy (Processor.work id t segment) depth) ∧
      attempts.flatMap Attempt.events = (events.drop (covered token)).take (size * n) ∧
      (busy < n → attempts.flatMap Attempt.events = events.drop (covered token) ∧
        t.position? s' segment.id.toNat =
          some (if events.length ≤ covered token then token else some (events.length - 1))) := by
  intro size busy
  have hpos : 0 < size := by omega
  obtain ⟨attempts, s', token', hrun, hall, hevents, ht', hc⟩ :=
    SegmentWork.strides_of_unhindered hu hpos n hs ht
  change _ = (events.drop _).take (size * n) at hevents
  change _ = max _ (min _ (_ + size * n)) at hc
  have hreach (hn : busy < n) : events.length - covered token ≤ size * n :=
    (ceilDiv_le_iff_le_smul hpos).mp hn.le
  refine ⟨attempts, s', hrun, hall, hevents, fun hn => ⟨?_, ?_⟩⟩
  · rw [hevents, List.take_of_length_le ((List.length_drop ..).trans_le (hreach hn))]
  · refine ht'.trans (congrArg some ?_)
    have := hreach hn
    split
    · exact covered_injective (by omega)
    · next hbehind =>
      have hlast : covered (some (events.length - 1)) = events.length :=
        Nat.sub_add_cancel (by omega)
      exact covered_injective (by omega)

namespace Sample

def trail : List EventMessage := [event "first", event "second", event "third"]

def behind (tokens : TokenMemory) (trace : List TraceLine) : System Unit where
  shared := ()
  buses := [(0, { log := Bus.entriesFrom 0 trail })]
  tokens := [(0, tokens)]
  trace

lemma sound_unhindered : Unhindered (work sound) 1 trail
    fun s => ∃ tokens trace, s = behind tokens trace where
  log := by
    rintro _ ⟨tokens, trace, rfl⟩
    rfl
  fetches s hs := ⟨s, rfl, hs⟩
  reads s hs := ⟨s, rfl, hs⟩
  processes := by
    rintro _ batch ⟨tokens, trace, rfl⟩ - hpart
    have hmem := List.mem_sublists.mpr hpart.sublist
    fin_cases hmem <;> exact ⟨_, rfl, _, _, rfl⟩
  stores s _ hs := ⟨s, rfl, hs⟩
  stored := by
    rintro _ token ⟨tokens, trace, rfl⟩
    exact ⟨_, _, rfl⟩

end Sample

theorem sound_catches_up :
    Unhindered (Processor.work 0 (Sample.tracking Sample.sound) .root) 1 Sample.trail
        (fun s => ∃ tokens trace, s = Sample.behind tokens trace) ∧
      (Sample.tracking Sample.sound).position? (Sample.behind [(("sample", 0), none)] []) 0 =
        some none ∧
      ∃ attempts s', (Sample.work Sample.sound).strides 1 3
          (Sample.behind [(("sample", 0), none)] []) =
            some ([.ok true, .ok true, .ok false], attempts, s') ∧
        attempts.flatMap Attempt.events = Sample.trail ∧
        (Sample.tracking Sample.sound).position? s' 0 = some (some 2) := by
  have hposition : (Sample.tracking Sample.sound).position?
      (Sample.behind [(("sample", 0), none)] []) 0 = some none := rfl
  obtain ⟨attempts, s', hrun, -, -, hdone⟩ :=
    catches_up Sample.sound_unhindered ⟨_, _, rfl⟩ hposition 3
  obtain ⟨hevents, hlast⟩ := hdone (by decide)
  exact ⟨Sample.sound_unhindered, hposition, attempts, s', hrun, hevents, hlast⟩

end EventProcessing
