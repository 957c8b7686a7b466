import EventProcessing.Proofs.Responsive
import EventProcessing.Proofs.Tracking.Layouts

namespace EventProcessing

variable {σ : Type} {depth : ℕ} {s s' : System σ}

namespace System

structure Unmoved (store : ℕ) (s s' : System σ) : Prop where
  workers : s'.workers = s.workers
  processors : s'.processors = s.processors
  hasRuntime : s'.hasRuntime = s.hasRuntime
  logs : ∀ bus, Bus.Extends (s.bus bus).log (s'.bus bus).log
  memories : ∀ id, id ≠ store → s'.tokenMemory id = s.tokenMemory id

variable {store : ℕ}

instance : IsPreorder (System σ) (Unmoved store) where
  refl _ := ⟨rfl, rfl, rfl, fun _ => .refl _, fun _ _ => rfl⟩
  trans _ _ _ hab hbc := ⟨hbc.workers.trans hab.workers, hbc.processors.trans hab.processors,
    hbc.hasRuntime.trans hab.hasRuntime, fun bus => (hab.logs bus).trans (hbc.logs bus),
    fun id hid => (hbc.memories id hid).trans (hab.memories id hid)⟩

lemma Frame.unmoved (h : Frame s s') : Unmoved store s s' :=
  ⟨h.workers, h.processors, h.hasRuntime, h.logs, fun id _ => h.tokenMemory_eq id⟩

lemma unmoved_setTokenMemory (s : System σ) (memory : TokenMemory) :
    Unmoved store s (s.setTokenMemory store memory) :=
  ⟨rfl, rfl, rfl, fun _ => .refl _, fun _ hid => tokenMemory_setTokenMemory_of_ne _ _ hid⟩

def KeepsTokens (s s' : System σ) : Prop :=
  ∀ store key position, (s.tokenMemory store).get? key = some position →
    (s'.tokenMemory store).get? key = some position

end System

namespace TrackingProcessor

variable {t : TrackingProcessor σ}

def ids (t : TrackingProcessor σ) (s : System σ) : List ℕ := (t.memory s).segments t.pipeline.name

def firstPosition (t : TrackingProcessor σ) (s : System σ) : Option Token :=
  match t.settings.initialPosition with
  | .tail => none
  | .head => headToken? (s.bus t.source.bus).log

def IsSplit (ids : List ℕ) : Prop := ∃ e, 2 ^ e < 2 ^ 32 ∧ ids = List.range (2 ^ e)

lemma layout?_range {e : ℕ} (h : 2 ^ e < 2 ^ 32) :
    layout? (List.range (2 ^ e)) = some (Segment.layout (2 ^ e)) := by
  rw [layout?, List.length_range, if_pos ⟨rfl, Segment.roundedCount?_two_pow h⟩]

lemma layout?_eq_some_iff {ids : List ℕ} :
    (∃ segments, layout? ids = some segments) ↔ IsSplit ids := by
  constructor
  · rintro ⟨segments, h⟩
    unfold layout? at h
    split at h
    · next hl =>
      obtain ⟨e, he, hlt⟩ := Segment.two_pow_of_roundedCount? hl.2
      exact ⟨e, he ▸ hlt, he ▸ hl.1⟩
    · cases h
  · rintro ⟨e, hlt, rfl⟩
    exact ⟨_, layout?_range hlt⟩

/-- The calls on the store that a claim makes, with the answers of the gate. It asks for the
segments; when there are none, it has them created and asks again. -/
inductive Asks (t : TrackingProcessor σ) (depth : ℕ) (s : System σ) :
    List (TokenCall × Outcome) → System σ → Prop
  | refused {f : Failure} {s₁ : System σ}
      (hg : System.run depth (t.tokens.gate (.segments t.pipeline.name)) s = some (.error f, s₁)) :
      Asks t depth s [(.segments t.pipeline.name, .error f)] s₁
  | stored {s₁ : System σ}
      (hg : System.run depth (t.tokens.gate (.segments t.pipeline.name)) s = some (.ok (), s₁))
      (hids : t.ids s ≠ []) : Asks t depth s [(.segments t.pipeline.name, .ok ())] s₁
  | unbegun {count : ℕ} {f : Failure} {s₁ s₂ : System σ}
      (hg : System.run depth (t.tokens.gate (.segments t.pipeline.name)) s = some (.ok (), s₁))
      (hids : t.ids s = []) (hc : Segment.roundedCount? t.settings.segmentCount = some count)
      (hb : System.run depth (t.tokens.gate (.begin t.pipeline.name count (t.firstPosition s₁)))
        s₁ = some (.error f, s₂)) :
      Asks t depth s [(.segments t.pipeline.name, .ok ()),
        (.begin t.pipeline.name count (t.firstPosition s₁), .error f)] s₂
  | begun {count : ℕ} {outcome : Outcome} {s₁ s₂ s₃ : System σ}
      (hg : System.run depth (t.tokens.gate (.segments t.pipeline.name)) s = some (.ok (), s₁))
      (hids : t.ids s = []) (hc : Segment.roundedCount? t.settings.segmentCount = some count)
      (hb : System.run depth (t.tokens.gate (.begin t.pipeline.name count (t.firstPosition s₁)))
        s₁ = some (.ok (), s₂))
      (ha : System.run depth (t.tokens.gate (.segments t.pipeline.name))
        (s₂.setTokenMemory t.tokens.self.id
          ((t.memory s).create t.pipeline.name (t.firstPosition s₁) count)) =
        some (outcome, s₃)) :
      Asks t depth s [(.segments t.pipeline.name, .ok ()),
        (.begin t.pipeline.name count (t.firstPosition s₁), .ok ()),
        (.segments t.pipeline.name, outcome)] s₃

variable {calls : List (TokenCall × Outcome)}

lemma exists_asks (hg : ∀ call, (t.tokens.gate call).Returns depth fun _ => True)
    (hn : t.settings.segmentCount ≤ 2 ^ 31) (s : System σ) :
    ∃ calls s', t.Asks depth s calls s' := by
  have hc := Segment.roundedCount?_eq hn
  obtain ⟨first, s₁, h₁, -⟩ := hg (.segments t.pipeline.name) s
  cases first with
  | error f => exact ⟨_, _, .refused h₁⟩
  | ok _ =>
    by_cases hids : t.ids s = []
    · obtain ⟨begun, s₂, h₂, -⟩ := hg (.begin t.pipeline.name _ (t.firstPosition s₁)) s₁
      cases begun with
      | error f => exact ⟨_, _, .unbegun h₁ hids hc h₂⟩
      | ok _ =>
        obtain ⟨again, s₃, h₃, -⟩ := hg (.segments t.pipeline.name) (s₂.setTokenMemory
          t.tokens.self.id ((t.memory s).create t.pipeline.name (t.firstPosition s₁) _))
        exact ⟨_, _, .begun h₁ hids hc h₂ h₃⟩
    · exact ⟨_, _, .stored h₁ hids⟩

lemma initialToken_eq (t : TrackingProcessor σ) (s : System σ) :
    t.initialToken depth s = some (t.firstPosition s, s) := by
  cases hp : t.settings.initialPosition with
  | tail =>
    simp only [initialToken, firstPosition, hp]
    rfl
  | head =>
    simp only [initialToken, firstPosition, hp]
    rfl

lemma ids_of_frame (h : System.Frame s s') : t.ids s' = t.ids s := by
  rw [ids, memory_eq_of_frame h, ids]

lemma memory_setTokenMemory (s : System σ) (memory : TokenMemory) :
    t.memory (s.setTokenMemory t.tokens.self.id memory) = memory :=
  System.tokenMemory_setTokenMemory _ _ _

lemma claimIds_of_empty {count : ℕ} {s₁ : System σ} {r : Except Failure (List ℕ)}
    (hg : System.run depth (t.tokens.gate (.segments t.pipeline.name)) s = some (.ok (), s₁))
    (hids : t.ids s = []) (hc : Segment.roundedCount? t.settings.segmentCount = some count)
    {outcome : Outcome} {s₂ : System σ}
    (hb : t.tokens.begin t.pipeline.name count (t.firstPosition s₁) depth s₁ = some (outcome, s₂))
    (hr : (match outcome with
      | .error f => pure (.error f)
      | .ok () => t.tokens.segments t.pipeline.name : Run σ _) depth s₂ = some (r, s')) :
    t.claimIds depth s = some (r, s') := by
  have hs := TokenStore.segments_of_ok hg
  rw [show (s.tokenMemory t.tokens.self.id).segments t.pipeline.name = [] from hids] at hs
  refine Run.bind_eq_some.mpr ⟨_, _, hs, ?_⟩
  dsimp only
  rw [hc]
  exact Run.bind_eq_some.mpr ⟨_, _, initialToken_eq t s₁, Run.bind_eq_some.mpr ⟨_, _, hb, hr⟩⟩

namespace Asks

lemma claimIds (h : t.Asks depth s calls s') :
    (∀ call ∈ calls, call.2 = .ok ()) ∧ t.claimIds depth s = some (.ok (t.ids s'), s') ∨
      ∃ f, (∃ call ∈ calls, call.2 = .error f) ∧ t.claimIds depth s = some (.error f, s') := by
  cases h with
  | @refused f s₁ hg =>
    exact .inr ⟨f, ⟨_, List.mem_singleton_self _, rfl⟩,
      Run.bind_eq_some.mpr ⟨_, _, TokenStore.segments_of_error hg, rfl⟩⟩
  | stored hg hids =>
    refine .inl ⟨by simp, Run.bind_eq_some.mpr ⟨_, _, TokenStore.segments_of_ok hg, ?_⟩⟩
    rw [ids_of_frame (System.frame_run hg)]
    obtain ⟨id, rest, hcons⟩ := List.exists_cons_of_ne_nil hids
    rw [hcons]
    rw [ids, memory] at hcons
    rw [hcons]
    rfl
  | @unbegun count f s₁ s₂ hg hids hc hb =>
    exact .inr ⟨f, ⟨_, List.mem_cons_of_mem _ List.mem_cons_self, rfl⟩,
      claimIds_of_empty hg hids hc (TokenStore.begin_of_error hb) rfl⟩
  | @begun count outcome s₁ s₂ s₃ hg hids hc hb ha =>
    have hempty : (s₁.tokenMemory t.tokens.self.id).segments t.pipeline.name = [] :=
      (ids_of_frame (System.frame_run hg)).trans hids
    have hbegun := TokenStore.begin_of_ok hb hempty
    rw [(System.frame_run hg).tokenMemory_eq] at hbegun
    cases outcome with
    | error f =>
      exact .inr ⟨f, ⟨_, List.mem_cons_of_mem _ (List.mem_cons_of_mem _ List.mem_cons_self), rfl⟩,
        claimIds_of_empty hg hids hc hbegun (TokenStore.segments_of_error ha)⟩
    | ok _ =>
      refine .inl ⟨by simp, claimIds_of_empty hg hids hc hbegun ?_⟩
      rw [ids_of_frame (System.frame_run ha)]
      exact TokenStore.segments_of_ok ha

lemma unmoved (h : t.Asks depth s calls s') : System.Unmoved t.tokens.self.id s s' := by
  have hstays : t.tokens.Stays (System.Unmoved t.tokens.self.id) t.pipeline.name :=
    ⟨fun _ _ _ _ _ hg => (System.frame_run hg).unmoved,
      fun s _ _ => System.unmoved_setTokenMemory s _,
      fun s _ _ => System.unmoved_setTokenMemory s _⟩
  rcases h.claimIds with ⟨-, hc⟩ | ⟨f, -, hc⟩
  · exact keeps_claimIds hstays _ _ _ _ hc
  · exact keeps_claimIds hstays _ _ _ _ hc

lemma memory_cases (h : t.Asks depth s calls s') :
    t.memory s' = t.memory s ∧ ((∀ call ∈ calls, call.2 = .ok ()) → t.ids s ≠ []) ∨
      t.ids s = [] ∧ ∃ count middle, Segment.roundedCount? t.settings.segmentCount = some count ∧
        (∀ bus, Bus.Extends (s.bus bus).log (middle.bus bus).log) ∧
        (∀ bus, Bus.Extends (middle.bus bus).log (s'.bus bus).log) ∧
        t.memory s' = (t.memory s).create t.pipeline.name (t.firstPosition middle) count := by
  cases h with
  | refused hg =>
    refine .inl ⟨memory_eq_of_frame (System.frame_run hg), fun hok => ?_⟩
    cases hok _ List.mem_cons_self
  | stored hg hids => exact .inl ⟨memory_eq_of_frame (System.frame_run hg), fun _ => hids⟩
  | unbegun hg hids hc hb =>
    refine .inl ⟨memory_eq_of_frame ((System.frame_run hg).trans (System.frame_run hb)),
      fun hok => ?_⟩
    cases hok _ (List.mem_cons_of_mem _ List.mem_cons_self)
  | @begun count outcome s₁ s₂ s₃ hg hids hc hb ha =>
    refine .inr ⟨hids, count, s₁, hc, (System.frame_run hg).logs, fun bus => ?_, ?_⟩
    · exact ((System.frame_run hb).logs bus).trans ((System.frame_run ha).logs bus)
    · rw [memory_eq_of_frame (System.frame_run ha), memory_setTokenMemory]

lemma keepsTokens (h : t.Asks depth s calls s') : s.KeepsTokens s' := by
  intro store key position hposition
  by_cases hstore : store = t.tokens.self.id
  · subst hstore
    change (t.memory s').get? key = some position
    rcases h.memory_cases with ⟨hsame, -⟩ | ⟨hids, count, middle, -, -, -, hcreated⟩
    · rw [hsame]
      exact hposition
    · rw [hcreated]
      exact TokenMemory.get?_create_of_get? hids _ _ hposition
  · rw [h.unmoved.memories store hstore]
    exact hposition

end Asks

def Claimable (t : TrackingProcessor σ) (s : System σ) : Prop := t.ids s = [] ∨ IsSplit (t.ids s)

/-- Between `s` and `s'` the `n` segments that the settings ask for have been created, all of them
where new segments started at a moment between the two. -/
structure Lays (t : TrackingProcessor σ) (n : ℕ) (s s' : System σ) : Prop where
  count : IsLeast {m | ∃ e, m = 2 ^ e ∧ max t.settings.segmentCount 1 ≤ m} n
  none_before : t.ids s = []
  positions : ∃ middle, (∀ bus, Bus.Extends (s.bus bus).log (middle.bus bus).log) ∧
    (∀ bus, Bus.Extends (middle.bus bus).log (s'.bus bus).log) ∧
    ∀ k, t.position? s' k = if k < n then some (t.firstPosition middle) else none

lemma Lays.congr {n : ℕ} {s₁ s₁' : System σ} (h : t.Lays n s s') (hm : t.memory s₁ = t.memory s)
    (hb : ∀ bus, (s₁.bus bus).log = (s.bus bus).log) (hm' : t.memory s₁' = t.memory s')
    (hb' : ∀ bus, (s₁'.bus bus).log = (s'.bus bus).log) : t.Lays n s₁ s₁' where
  count := h.count
  none_before := by
    rw [ids, hm]
    exact h.none_before
  positions := by
    obtain ⟨middle, hbefore, hafter, hpositions⟩ := h.positions
    refine ⟨middle, fun bus => ?_, fun bus => ?_, fun k => ?_⟩
    · rw [hb]
      exact hbefore bus
    · rw [hb']
      exact hafter bus
    · rw [position?, hm']
      exact hpositions k

namespace Asks

lemma kept_or_lays (h : t.Asks depth s calls s') (hn : t.settings.segmentCount ≤ 2 ^ 31) :
    t.memory s' = t.memory s ∧ ((∀ call ∈ calls, call.2 = .ok ()) → t.ids s ≠ []) ∨
      ∃ e, 2 ^ e < 2 ^ 32 ∧ t.Lays (2 ^ e) s s' ∧ t.ids s' = List.range (2 ^ e) := by
  refine h.memory_cases.imp_right ?_
  rintro ⟨hids, count, middle, hc, hbefore, hafter, hcreated⟩
  obtain ⟨-, -, hlt⟩ := Segment.two_pow_of_roundedCount? hc
  rw [Segment.roundedCount?_eq hn] at hc
  obtain rfl := Option.some.inj hc
  refine ⟨_, hlt, ⟨Segment.isLeast_two_pow_clog _, hids, middle, hbefore, hafter, fun k => ?_⟩, ?_⟩
  · rw [position?, hcreated, TokenMemory.get?_create, TokenMemory.get?_eq_none_of_segments hids]
  · rw [ids, hcreated, TokenMemory.segments_create hids]

lemma claimable (h : t.Asks depth s calls s') (hn : t.settings.segmentCount ≤ 2 ^ 31)
    (hs : t.Claimable s) : t.Claimable s' := by
  rcases h.kept_or_lays hn with ⟨hsame, -⟩ | ⟨e, hlt, -, hids⟩
  · rwa [Claimable, ids, hsame]
  · exact .inr ⟨e, hlt, hids⟩

lemma isSplit_iff (h : t.Asks depth s calls s') (hn : t.settings.segmentCount ≤ 2 ^ 31)
    (hok : ∀ call ∈ calls, call.2 = .ok ()) : IsSplit (t.ids s') ↔ t.Claimable s := by
  rcases h.kept_or_lays hn with ⟨hsame, hnone⟩ | ⟨e, hlt, hlays, hids⟩
  · rw [Claimable, or_iff_right (hnone hok), ids, hsame, ids]
  · exact ⟨fun _ => .inl hlays.none_before, fun _ => ⟨e, hlt, hids⟩⟩

lemma claimSegments (h : t.Asks depth s calls s') (hn : t.settings.segmentCount ≤ 2 ^ 31) :
    ((∀ call ∈ calls, call.2 = .ok ()) ∧ t.Claimable s) ∧
        (∃ e, 2 ^ e < 2 ^ 32 ∧ t.ids s' = List.range (2 ^ e) ∧
          t.claimSegments depth s = some (.ok (Segment.layout (2 ^ e)), s')) ∨
      ¬ ((∀ call ∈ calls, call.2 = .ok ()) ∧ t.Claimable s) ∧
        ∃ f, t.claimSegments depth s = some (.error f, s') := by
  rcases h.claimIds with ⟨hok, hc⟩ | ⟨f, ⟨call, hcall, hf⟩, hc⟩
  · by_cases hsplit : IsSplit (t.ids s')
    · obtain ⟨e, hlt, hids⟩ := hsplit
      refine .inl ⟨⟨hok, (h.isSplit_iff hn hok).mp ⟨e, hlt, hids⟩⟩, e, hlt, hids,
        Run.bind_eq_some.mpr ⟨_, _, hc, ?_⟩⟩
      dsimp only
      rw [hids, layout?_range hlt]
      rfl
    · refine .inr ⟨fun hs => hsplit ((h.isSplit_iff hn hok).mpr hs.2),
        .brokenLayout t.pipeline.name (t.ids s'), Run.bind_eq_some.mpr ⟨_, _, hc, ?_⟩⟩
      have hnone : layout? (t.ids s') = none := by
        rw [← Option.not_isSome_iff_eq_none, Option.isSome_iff_exists]
        exact fun hl => hsplit (layout?_eq_some_iff.mp hl)
      dsimp only
      rw [hnone]
      rfl
  · refine .inr ⟨fun hs => ?_, f, Run.bind_eq_some.mpr ⟨_, _, hc, rfl⟩⟩
    rw [hs.1 call hcall] at hf
    cases hf

end Asks

end TrackingProcessor

namespace Processor

open TrackingProcessor

variable {p : Processor σ} {t : TrackingProcessor σ} {calls : List (TokenCall × Outcome)}

structure Stopped (p : Processor σ) (s : System σ) : Prop where
  runtime : s.hasRuntime = true
  workers : (s.processor p.self.id).workers = none
  stopping : p.kept s = []

structure Launched (p : Processor σ) (t : TrackingProcessor σ) (n : ℕ) (s s' : System σ) :
    Prop where
  workers : ∃ workers segments, Segment.split n = .ok segments ∧
    (s'.processor p.self.id).workers = some workers ∧
    List.Forall₂ (fun id segment =>
      s'.workers.get? id = some { work := work p.self.id t segment }) workers segments ∧
    ∀ id, id ∉ workers → s'.workers.get? id = s.workers.get? id
  ids : t.ids s' = List.range n
  stored : t.ids s ≠ [] → n = (t.ids s).length ∧ t.memory s' = t.memory s
  created : t.ids s = [] → t.Lays n s s'

structure Declined (p : Processor σ) (t : TrackingProcessor σ) (s s' : System σ) : Prop where
  stopped : p.Stopped s'
  workers : s'.workers = s.workers
  memory : t.memory s' = t.memory s ∨ ∃ n, t.Lays n s s' ∧ t.ids s' = List.range n
  claimable : t.Claimable s → t.Claimable s'

lemma declined_of_asks (hs : p.Stopped s) (h : t.Asks depth (p.pruned s) calls s')
    (hn : t.settings.segmentCount ≤ 2 ^ 31) : p.Declined t s s' := by
  have hp : s'.processor p.self.id = (p.pruned s).processor p.self.id := by
    rw [System.processor, h.unmoved.processors]
    rfl
  have hpruned : (p.pruned s).processor p.self.id =
      { s.processor p.self.id with stopping := p.kept s } := System.processor_setProcessor _ _ _
  constructor
  case stopped =>
    refine ⟨h.unmoved.hasRuntime.trans hs.runtime, ?_, ?_⟩
    · rw [hp, hpruned]
      exact hs.workers
    · rw [kept, hp, hpruned, hs.stopping]
      rfl
  case workers => exact h.unmoved.workers
  case memory =>
    refine (h.kept_or_lays hn).imp And.left ?_
    rintro ⟨e, -, hlays, hids⟩
    exact ⟨_, hlays.congr rfl (fun _ => rfl) rfl fun _ => rfl, hids⟩
  case claimable => exact h.claimable hn

lemma Spawns.forall₂ {f : Segment → SegmentWork σ} {segments : List Segment} {ids : List ℕ}
    (h : Spawns f segments ids s s') :
    List.Forall₂ (fun id segment => s'.workers.get? id = some { work := f segment }) ids
      segments := by
  refine List.forall₂_iff_get.mpr ⟨by rw [h.ids, List.length_range'], fun i hi hsegment => ?_⟩
  have hnew := h.new i _ (List.getElem?_eq_getElem hsegment)
  simpa [h.ids] using hnew

lemma launched_of_asks {e : ℕ} {ids : List ℕ} {hired : System σ} (line : TraceLine)
    (h : t.Asks depth (p.pruned s) calls s') (hn : t.settings.segmentCount ≤ 2 ^ 31)
    (hok : ∀ call ∈ calls, call.2 = .ok ()) (he : 2 ^ e < 2 ^ 32)
    (hids : t.ids s' = List.range (2 ^ e))
    (hs : Spawns (work p.self.id t) (Segment.layout (2 ^ e)) ids s' hired) :
    p.Launched t (2 ^ e) s ((hired.addTrace line).setProcessor p.self.id
      { hired.processor p.self.id with workers := some ids }) := by
  have hm : t.memory ((hired.addTrace line).setProcessor p.self.id
      { hired.processor p.self.id with workers := some ids }) = t.memory s' := by
    rw [memory, System.tokenMemory, memory, System.tokenMemory]
    exact congrArg (fun tokens : Table ℕ TokenMemory => (tokens.get? t.tokens.self.id).getD [])
      hs.tokens
  constructor
  case workers =>
    refine ⟨ids, Segment.layout (2 ^ e),
      Segment.split_of_rounded (Segment.roundedCount?_two_pow he),
      by rw [System.processor_setProcessor], hs.forall₂, fun id hid => ?_⟩
    rw [hs.ids, List.mem_range'_1] at hid
    exact (hs.old id (by omega)).trans (congrArg (Table.get? · id) h.unmoved.workers)
  case ids => rw [TrackingProcessor.ids, hm, ← hids, TrackingProcessor.ids]
  case stored =>
    intro hsome
    rcases h.kept_or_lays hn with ⟨hsame, -⟩ | ⟨_, -, hlays, -⟩
    · refine ⟨?_, hm.trans hsame⟩
      have hlength := congrArg List.length hids
      rw [List.length_range, TrackingProcessor.ids, hsame] at hlength
      exact hlength.symm
    · exact absurd hlays.none_before hsome
  case created =>
    intro hnone
    rcases h.kept_or_lays hn with ⟨-, hsome⟩ | ⟨e', -, hlays, hids'⟩
    · exact absurd hnone (hsome hok)
    · have hsame : 2 ^ e = 2 ^ e' := by
        have hlength := congrArg List.length (hids.symm.trans hids')
        rwa [List.length_range, List.length_range] at hlength
      rw [hsame]
      refine hlays.congr rfl (fun _ => rfl) hm fun bus => ?_
      exact congrArg (fun buses : Table ℕ (Bus (Subscriber σ)) => ((buses.get? bus).getD {}).log)
        hs.buses

lemma exists_start (hk : p.kind = .tracking t) (hn : t.settings.segmentCount ≤ 2 ^ 31)
    (hg : ∀ call, (t.tokens.gate call).Returns depth fun _ => True) (hs : p.Stopped s) :
    ∃ calls asked, t.Asks depth (p.pruned s) calls asked ∧
      (((∀ call ∈ calls, call.2 = .ok ()) ∧ t.Claimable s) ∧
          (∃ n s', p.start depth s = some (.ok (), s') ∧ s.KeepsTokens s' ∧
            p.Launched t n s s') ∨
        ¬ ((∀ call ∈ calls, call.2 = .ok ()) ∧ t.Claimable s) ∧
          ∃ f, p.start depth s = some (.error f, asked)) := by
  obtain ⟨calls, asked, h⟩ := exists_asks hg hn (p.pruned s)
  have hstart : p.start depth s = p.startTracking t depth s := by
    rw [start, hk]
  refine ⟨calls, asked, h, (h.claimSegments hn).imp ?_ ?_⟩
  · rintro ⟨hok, e, he, hids, hc⟩
    obtain ⟨ids, hired, line, hspawns, hrun⟩ :=
      startTracking_of_claimed hs.runtime hs.workers hs.stopping hc
    refine ⟨hok, _, _, hstart.trans hrun, fun store key position hposition => ?_,
      launched_of_asks line h hn hok.1 he hids hspawns⟩
    have hkept := h.keepsTokens store key position hposition
    rw [System.tokenMemory] at hkept ⊢
    rwa [← hspawns.tokens] at hkept
  · rintro ⟨hnot, f, hc⟩
    exact ⟨hnot, f, hstart.trans (startTracking_of_refused hs.runtime hs.workers hs.stopping hc)⟩

/-- A start of a stopped processor gets through exactly when no call on the store is refused and the
stored segments are none or those of a split. One that does not get through has done nothing but
those calls, and once the cause is gone the next one gets through. -/
theorem start_of_stopped (p : Processor σ) (t : TrackingProcessor σ) (depth : ℕ) (s : System σ)
    (hk : p.kind = .tracking t) (hn : t.settings.segmentCount ≤ 2 ^ 31)
    (hg : ∀ call, (t.tokens.gate call).Returns depth fun _ => True) (hs : p.Stopped s) :
    ∃ calls asked outcome s', t.Asks depth (p.pruned s) calls asked ∧
      p.start depth s = some (outcome, s') ∧ s.KeepsTokens s' ∧
      (outcome = .ok () ↔ (∀ call ∈ calls, call.2 = .ok ()) ∧ t.Claimable s) ∧
      (outcome = .ok () → ∃ n, p.Launched t n s s') ∧
      (outcome ≠ .ok () → s' = asked ∧ p.Declined t s s' ∧
        ∀ later r, p.Stopped r → (∀ call, (t.tokens.gate call).Returns later fun _ => True) →
          (∀ calls asked, t.Asks later (p.pruned r) calls asked →
            ∀ call ∈ calls, call.2 = .ok ()) →
          t.Claimable r ∨ t.Claimable s ∧ t.ids r = t.ids s' →
          ∃ n r', p.start later r = some (.ok (), r') ∧ r.KeepsTokens r' ∧
            p.Launched t n r r') := by
  obtain ⟨calls, asked, h, ⟨hok, n, s', hrun, hkeeps, hlaunched⟩ | ⟨hnot, f, hrun⟩⟩ :=
    exists_start hk hn hg hs
  · exact ⟨calls, asked, _, s', h, hrun, hkeeps, iff_of_true rfl hok, fun _ => ⟨n, hlaunched⟩,
      fun hne => absurd rfl hne⟩
  · have hdeclined : p.Declined t s asked := declined_of_asks hs h hn
    refine ⟨calls, asked, _, asked, h, hrun, h.keepsTokens, iff_of_false nofun hnot, nofun,
      fun _ => ⟨rfl, hdeclined, fun later r hr hlater hlet hcause => ?_⟩⟩
    have hclaimable : t.Claimable r := by
      rcases hcause with hclaimable | ⟨hclaimable, hids⟩
      · exact hclaimable
      · rw [Claimable, hids]
        exact hdeclined.claimable hclaimable
    obtain ⟨again, askedAgain, h', ⟨-, hlaunched⟩ | ⟨hnot, -⟩⟩ := exists_start hk hn hlater hr
    · exact hlaunched
    · exact absurd ⟨hlet again askedAgain h', hclaimable⟩ hnot

end Processor

namespace Sample

def countdown : TokenStore ℕ where
  self := ⟨0, "store"⟩
  gate _ := do
    match ← Program.get with
    | 0 => return .ok ()
    | 1 =>
      Program.set 0
      return .error (.report "refused")
    | left + 2 =>
      Program.set (left + 1)
      return .ok ()

def claiming : TrackingProcessor ℕ where
  pipeline :=
    { name := "sample"
      invoker := .all []
      errorHandler := .propagating 0
      rollback := .anyError 0
      transactions := .none 0
      monitor := .silent }
  source := .ofBus 0
  tokens := countdown
  settings := { segmentCount := 3 }

def claimer : Processor ℕ := ⟨⟨0, "sample"⟩, "sample", .tracking claiming⟩

lemma returns_countdown (depth : ℕ) (call : TokenCall) :
    (claiming.tokens.gate call).Returns depth fun _ => True := by
  refine .bind (P := fun _ => True) (fun s => ⟨s.shared, s, rfl, trivial⟩) fun left _ => ?_
  rcases left with _ | _ | left
  · exact .pure trivial
  · exact .bind (P := fun _ => True) (fun s => ⟨(), _, rfl, trivial⟩) fun _ _ => .pure trivial
  · exact .bind (P := fun _ => True) (fun s => ⟨(), _, rfl, trivial⟩) fun _ _ => .pure trivial

lemma run_countdown {depth : ℕ} {s : System ℕ} (hs : s.shared = 0) (call : TokenCall) :
    System.run depth (claiming.tokens.gate call) s = some (.ok (), s) := by
  refine System.run_bind_eq_some.mpr ⟨s.shared, s, rfl, ?_⟩
  rw [hs]
  rfl

lemma let_through {depth : ℕ} {s asked : System ℕ} {calls : List (TokenCall × Outcome)}
    (hs : s.shared = 0) (h : claiming.Asks depth s calls asked) :
    ∀ call ∈ calls, call.2 = .ok () := by
  cases h with
  | refused hg =>
    rw [run_countdown hs] at hg
    cases hg
  | stored hg hids => simp
  | unbegun hg hids hc hb =>
    rw [run_countdown hs] at hg
    cases hg
    rw [run_countdown hs] at hb
    cases hb
  | begun hg hids hc hb ha =>
    rw [run_countdown hs] at hg
    cases hg
    rw [run_countdown hs] at hb
    cases hb
    rw [run_countdown (s := s.setTokenMemory _ _) hs] at ha
    cases ha
    simp

end Sample

theorem half_claimed_then_claimed :
    ∃ f s', Sample.claimer.start 0 { shared := 3 } = some (.error f, s') ∧
      Sample.claiming.ids s' = [0, 1, 2, 3] ∧
      (∀ k < 4, Sample.claiming.position? s' k = some none) ∧
      ∃ n r', Sample.claimer.start 0 { s' with shared := 0 } = some (.ok (), r') ∧
        Sample.claimer.Launched Sample.claiming n { s' with shared := 0 } r' := by
  have hempty : Sample.claiming.ids { shared := 3 } = [] := by
    change TokenMemory.segments [] "sample" = []
    exact Sample.segments_nil
  obtain ⟨calls, asked, outcome, s', hasks, hstart, -, hok, -, hdeclined⟩ :=
    Processor.start_of_stopped Sample.claimer Sample.claiming 0 { shared := 3 } rfl (by decide)
      (Sample.returns_countdown 0) ⟨rfl, rfl, rfl⟩
  cases hasks with
  | refused hg => cases hg
  | stored hg hids => exact absurd hempty hids
  | unbegun hg hids hc hb =>
    cases hg
    cases hb
  | @begun count again s₁ s₂ s₃ hg hids hc hb ha =>
    cases hg
    cases hb
    cases ha
    obtain rfl : count = 4 := Option.some.inj (hc.symm.trans (by decide))
    have hne : outcome ≠ .ok () := by
      intro he
      cases (hok.mp he).1 _ (List.mem_cons_of_mem _ (List.mem_cons_of_mem _ List.mem_cons_self))
    obtain ⟨hasked, hdeclined, hretry⟩ := hdeclined hne
    have hm : Sample.claiming.memory s' = TokenMemory.create [] "sample" none 4 := by
      rw [hasked]
      rfl
    have hids' : Sample.claiming.ids s' = [0, 1, 2, 3] := by
      rw [TrackingProcessor.ids, hm]
      exact TokenMemory.segments_create Sample.segments_nil none 4
    obtain ⟨n, r', hagain, -, hlaunched⟩ := hretry 0 { s' with shared := 0 }
      ⟨hdeclined.stopped.runtime, hdeclined.stopped.workers, hdeclined.stopped.stopping⟩
      (Sample.returns_countdown 0) (fun _ _ h => Sample.let_through rfl h)
      (.inr ⟨.inl hempty, rfl⟩)
    cases outcome with
    | ok _ => exact absurd rfl hne
    | error f =>
      refine ⟨f, s', hstart, hids', fun k hk => ?_, n, r', hagain, hlaunched⟩
      rw [TrackingProcessor.position?, hm]
      exact (TokenMemory.get?_create [] "sample" k none 4).trans (if_pos hk)

end EventProcessing
