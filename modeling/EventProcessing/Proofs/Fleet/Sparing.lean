import EventProcessing.Proofs.Fleet

namespace EventProcessing

namespace TokenMemory

variable (memory : TokenMemory) {name other : String}

def under (name : String) (memory : TokenMemory) : TokenMemory :=
  memory.filter fun entry => entry.1.1 = name

lemma segments_under : (memory.under name).segments name = memory.segments name := by
  have hkeys : (memory.under name).keys = memory.keys.filter fun key => key.1 = name := by
    rw [under, Table.keys, Table.keys, List.filter_map]
    rfl
  rw [segments, segments, hkeys, List.filterMap_filter]
  congr 1
  refine List.filterMap_congr fun key _ => ?_
  by_cases hn : key.1 = name
  · simp [hn]
  · simp [hn]

lemma get?_under (k : ℕ) : (memory.under name).get? (name, k) = memory.get? (name, k) :=
  Table.get?_filter (fun key : String × ℕ => decide (key.1 = name)) memory (by simp)

lemma under_put (k : ℕ) (position : Option Token) :
    under name (memory.put (name, k) position) = (memory.under name).put (name, k) position :=
  Table.filter_put (fun key : String × ℕ => decide (key.1 = name)) memory position (by simp)

lemma under_put_of_ne (k : ℕ) (position : Option Token) (h : other ≠ name) :
    under name (memory.put (other, k) position) = memory.under name :=
  Table.filter_put_of_not (fun key : String × ℕ => decide (key.1 = name)) memory position
    (by simpa using h)

lemma under_create (initial : Option Token) (count : ℕ) :
    (memory.create name initial count).under name =
      (memory.under name).create name initial count := by
  induction count with
  | zero => rfl
  | succ count ih => rw [create_succ, create_succ, under_put, ih]

lemma under_create_of_ne (initial : Option Token) (count : ℕ) (h : other ≠ name) :
    (memory.create other initial count).under name = memory.under name := by
  induction count with
  | zero => rfl
  | succ count ih => rw [create_succ, under_put_of_ne _ _ _ h, ih]

end TokenMemory

namespace Fleet

variable {ι σ α : Type} {τ : ι → Type} (fleet : Fleet ι σ) (part : (i : ι) → σ → τ i)

structure Confined (j : ι) (s s' : System σ) : Prop where
  parts : ∀ i, i ≠ j → part i s'.shared = part i s.shared
  buses : ∀ bus, s'.bus bus = s.bus bus
  memory : ∀ i, i ≠ j → ((fleet.tracking i).memory s').under (fleet.name i) =
    ((fleet.tracking i).memory s).under (fleet.name i)
  hasRuntime : s'.hasRuntime = s.hasRuntime
  states : ∀ i, i ≠ j → s'.processor (fleet.id i) = s.processor (fleet.id i)
  nextId : s.nextId ≤ s'.nextId
  workers : ∀ id worker, id < s.nextId → s.workers.get? id = some worker →
    worker.work.processor ≠ fleet.id j → s'.workers.get? id = some worker

instance (j : ι) : IsPreorder (System σ) (fleet.Confined part j) where
  refl _ := ⟨fun _ _ => rfl, fun _ => rfl, fun _ _ => rfl, rfl, fun _ _ => rfl, le_rfl,
    fun _ _ _ h _ => h⟩
  trans _ _ _ hab hbc := {
    parts := fun i hi => (hbc.parts i hi).trans (hab.parts i hi)
    buses := fun bus => (hbc.buses bus).trans (hab.buses bus)
    memory := fun i hi => (hbc.memory i hi).trans (hab.memory i hi)
    hasRuntime := hbc.hasRuntime.trans hab.hasRuntime
    states := fun i hi => (hbc.states i hi).trans (hab.states i hi)
    nextId := hab.nextId.trans hbc.nextId
    workers := fun id worker hid hw hp =>
      hbc.workers id worker (hid.trans_le hab.nextId) (hab.workers id worker hid hw hp) hp }

structure Private : Prop where
  pipeline : ∀ i, (fleet.tracking i).pipeline.Within (.own part i)
  source : ∀ i, (ProgramLogic.own part i).Runs (fleet.tracking i).source.gate
  tokens : ∀ i call, (ProgramLogic.own part i).Runs ((fleet.tracking i).tokens.gate call)

variable {fleet part} {j : ι} {depth : ℕ} {s s' : System σ}

lemma separate_of_holds {program : Program σ α} {P : α → Prop} {value : α}
    (h : (ProgramLogic.own part j).Holds program P)
    (hrun : System.run depth program s = some (value, s')) : Separate part j s s' := by
  obtain ⟨a, middle, _, hs, -, -, hseparate, -⟩ := h depth s s ⟨rfl, fun _ => rfl⟩
  rw [hrun] at hs
  cases hs
  exact hseparate

lemma confined_of_holds {program : Program σ α} {P : α → Prop} {value : α}
    (h : (ProgramLogic.own part j).Holds program P)
    (hrun : System.run depth program s = some (value, s')) : fleet.Confined part j s s' := by
  have hframe := System.frame_run hrun
  have hseparate := separate_of_holds h hrun
  constructor
  case parts => exact hseparate.parts
  case buses => exact hseparate.buses
  case memory =>
    intro i _
    rw [TrackingProcessor.memory, hframe.tokenMemory_eq, TrackingProcessor.memory]
  case hasRuntime => exact hframe.hasRuntime
  case states =>
    intro i _
    rw [System.processor, hframe.processors, System.processor]
  case nextId => exact (System.admits_calm.of_run hrun).nextId
  case workers =>
    intro id worker _ hw _
    rwa [hframe.workers]

lemma keeps_lift {program : Program σ α} {P : α → Prop}
    (h : (ProgramLogic.own part j).Holds program P) :
    (liftM program : Run σ α).Keeps (fleet.Confined part j) :=
  fun _ _ _ _ hrun => confined_of_holds h hrun

lemma confined_setTokenMemory {memory : TokenMemory}
    (h : ∀ name, name ≠ fleet.name j →
      memory.under name = ((fleet.tracking j).memory s).under name) :
    fleet.Confined part j s (s.setTokenMemory (fleet.tracking j).tokens.self.id memory) := by
  refine ⟨fun _ _ => rfl, fun _ => rfl, fun i hi => ?_, rfl, fun _ _ => rfl, le_rfl,
    fun _ _ _ hw _ => hw⟩
  by_cases hm : (fleet.tracking i).tokens.self.id = (fleet.tracking j).tokens.self.id
  · rw [TrackingProcessor.memory, hm, System.tokenMemory_setTokenMemory,
      h _ (fleet.name_ne hi), TrackingProcessor.memory, TrackingProcessor.memory, hm]
  · rw [TrackingProcessor.memory, System.tokenMemory, System.setTokenMemory,
      Table.get?_put_of_ne _ _ hm]
    rfl

lemma confined_addTrace (line : TraceLine) : fleet.Confined part j s (s.addTrace line) :=
  ⟨fun _ _ => rfl, fun _ => rfl, fun _ _ => rfl, rfl, fun _ _ => rfl, le_rfl,
    fun _ _ _ hw _ => hw⟩

lemma confined_setProcessor (state : ProcessorState σ) :
    fleet.Confined part j s (s.setProcessor (fleet.id j) state) := by
  refine ⟨fun _ _ => rfl, fun _ => rfl, fun _ _ => rfl, rfl, fun i hi => ?_, le_rfl,
    fun _ _ _ hw _ => hw⟩
  rw [System.processor, System.setProcessor, Table.get?_put_of_ne _ _ (fleet.id_ne hi),
    System.processor]

section Private

variable (hp : fleet.Private part)

include hp

lemma stays : (fleet.tracking j).tokens.Stays (fleet.Confined part j) (fleet.name j) where
  gate call := keeps_lift (hp.tokens j call)
  stored _ _ _ := confined_setTokenMemory fun _ hn => TokenMemory.under_put_of_ne _ _ _ hn.symm
  created _ _ _ := confined_setTokenMemory fun _ hn =>
    TokenMemory.under_create_of_ne _ _ _ hn.symm

lemma keeps_read (after : Option Token) (max : ℕ) :
    ((fleet.tracking j).source.read after max).Keeps (fleet.Confined part j) :=
  EventSource.keeps_read (keeps_lift (hp.source j)) after max

lemma keeps_claimSegments : (fleet.tracking j).claimSegments.Keeps (fleet.Confined part j) :=
  TrackingProcessor.keeps_claimSegments (stays hp)

lemma confined_step {work : SegmentWork σ} {segment : Segment} {result : Except Failure Bool}
    (hw : work = fleet.work j segment)
    (hc : ∀ interceptor ∈ (s.processor (fleet.id j)).chain, interceptor.Obeys (.own part j))
    (h : work.step depth s = some (result, s')) : fleet.Confined part j s s' := by
  subst hw
  have hstays := stays (j := j) hp
  have hfetch := hstays.fetch segment.id.toNat
  have hread := keeps_read (j := j) hp
  have hreads : ∀ {token batch start},
      (fleet.work j segment).Reads depth s token batch start → fleet.Confined part j s start := by
    rintro token batch start ⟨middle, hf, hr⟩
    exact trans_of (fleet.Confined part j) (hfetch _ _ _ _ hf) (hread _ _ _ _ _ _ hr)
  have hprocess : ∀ {token batch start outcome done},
      (fleet.work j segment).Reads depth s token batch start →
      (fleet.work j segment).process batch depth start = some (outcome, done) →
        fleet.Confined part j start done := by
    intro token batch start outcome done hr hd
    have hstate : start.processor (fleet.id j) = s.processor (fleet.id j) := by
      rw [System.processor, hr.frame.processors, System.processor]
    refine confined_of_holds (((hp.pipeline j).obeys ?_ segment).processBatch _) hd
    change ∀ interceptor ∈ (start.processor (fleet.id j)).chain, _
    rwa [hstate]
  cases SegmentWork.steps_of_step h with
  | unfetched hf => exact hfetch _ _ _ _ hf
  | unread hf hr =>
    exact trans_of (fleet.Confined part j) (hfetch _ _ _ _ hf) (hread _ _ _ _ _ _ hr)
  | idle hr => exact hreads hr
  | failed hr hb hd => exact trans_of (fleet.Confined part j) (hreads hr) (hprocess hr hd)
  | unstored hr hl hd hs =>
    exact trans_of (fleet.Confined part j)
      (trans_of (fleet.Confined part j) (hreads hr) (hprocess hr hd)) (hstays.put _ _ _ _ _ _ hs)
  | stored hr hl hd hs =>
    exact trans_of (fleet.Confined part j)
      (trans_of (fleet.Confined part j) (hreads hr) (hprocess hr hd)) (hstays.put _ _ _ _ _ _ hs)

end Private

end Fleet

end EventProcessing
