import EventProcessing.Proofs.Accounting
import EventProcessing.Proofs.Responsive

namespace EventProcessing

variable {σ α β : Type}

def Note.consultation? : Note → Option (BatchFailure × Outcome)
  | .consulted batch verdict => some (batch, verdict)
  | _ => none

def consultations (notes : List Note) : List (BatchFailure × Outcome) :=
  notes.filterMap Note.consultation?

def Note.weighing? : Note → Option (Failure × Bool)
  | .weighed failure rollsBack => some (failure, rollsBack)
  | _ => none

def weighings (notes : List Note) : List (Failure × Bool) := notes.filterMap Note.weighing?

def Note.onEvent : Note → Bool
  | .ingested _ | .entered _ | .called _ _ | .left _ _ | .reported _ _ => true
  | .began | .weighed _ _ | .ended _ | .consulted _ _ => false

/-- The failure that the error handler is told of: that of the first event that failed, and that of
the commit only when no event did. -/
def Ending.blamed? (failing : Option (ℕ × Failure)) (ending : Ending) : Option Failure :=
  match failing, ending with
  | some (_, failure), _ => some failure
  | none, .committed (.error failure) => some failure
  | none, .committed (.ok ()) => none
  | none, .rolledBack => none

structure Protocol (pipeline : Pipeline σ) (events : List EventMessage) (outcome : Outcome)
    (notes : List Note) (ending : Ending) : Prop where
  begun : ∃ rest, notes = .began :: rest ∧ Note.began ∉ rest
  ended : ∃ before after, notes = before ++ .ended ending :: after ∧
    endings before = [] ∧ endings after = [] ∧ consultations before = [] ∧
    ∀ entry ∈ after, entry.onDispatch = false ∧ entry.ingestion? = none
  weighed : (weighings notes).map Prod.fst = (failing? notes).toList.map Prod.snd
  rolledBack : ending = .rolledBack ↔
    ∃ n failure, failing? notes = some (n, failure) ∧ weighings notes = [(failure, true)]
  stops : ∀ n failure, failing? notes = some (n, failure) → ∀ k ∈ entrances 0 notes, k ≤ n
  consulted : consultations notes = (ending.blamed? (failing? notes)).toList.map fun failure =>
    (⟨pipeline.name, failure, events⟩, outcome)
  settled : ending.blamed? (failing? notes) = none → outcome = .ok ()

section Readings

variable {pipeline : Pipeline σ} {chain : List (Interceptor σ)} {segment : Segment}
  {event : EventMessage} {events : List EventMessage} {outcome : Outcome}
  {notes body closing verdict : List Note} {pending : List ℕ} {failure answer : Option Failure}
  {n : ℕ}

lemma Dispatched.onEvent (h : Dispatched pipeline chain segment event outcome notes) :
    ∀ entry ∈ notes, entry.onEvent = true := by
  obtain ⟨places, rfl⟩ := h.places
  simp only [List.mem_cons, List.mem_append, List.mem_map]
  rintro entry (rfl | ⟨place, -, rfl⟩ | rfl | hm)
  · rfl
  · rfl
  · rfl
  · cases hm

lemma Ingests.onEvent (h : Ingests pipeline chain segment n events notes pending failure) :
    ∀ entry ∈ notes, entry.onEvent = true := by
  induction h with
  | done n => exact fun _ h => by cases h
  | ignored hc hr ih => simpa [Note.onEvent] using ih
  | handled hc hd hr ih =>
    simp only [List.mem_cons, List.mem_append]
    rintro entry (rfl | hm | hm)
    · rfl
    · exact hd.onEvent entry hm
    · exact ih entry hm
  | failed hc hd =>
    simp only [List.mem_cons, List.mem_append]
    rintro entry (rfl | hm | rfl | hm)
    · rfl
    · exact hd.onEvent entry hm
    · rfl
    · cases hm

lemma onEvent_reports (verdict : Verdict) : ∀ entry ∈ reports pending verdict,
    entry.onEvent = true ∧ entry.onDispatch = false ∧ entry.ingestion? = none := by
  intro entry hm
  obtain ⟨_, -, rfl⟩ := List.mem_map.mp hm
  exact ⟨rfl, rfl, rfl⟩

lemma filterMap_onEvent {γ : Type} {f : Note → Option γ}
    (hf : ∀ entry, entry.onEvent = true → f entry = none)
    (h : ∀ entry ∈ notes, entry.onEvent = true) : notes.filterMap f = [] :=
  List.filterMap_eq_nil_iff.mpr fun entry hm => hf entry (h entry hm)

lemma consultations_onEvent (h : ∀ entry ∈ notes, entry.onEvent = true) :
    consultations notes = [] :=
  filterMap_onEvent
    (fun entry he => by cases entry <;> simp_all [Note.consultation?, Note.onEvent]) h

lemma weighings_onEvent (h : ∀ entry ∈ notes, entry.onEvent = true) : weighings notes = [] :=
  filterMap_onEvent (fun entry he => by cases entry <;> simp_all [Note.weighing?, Note.onEvent]) h

lemma endings_onEvent (h : ∀ entry ∈ notes, entry.onEvent = true) : endings notes = [] :=
  filterMap_onEvent (fun entry he => by cases entry <;> simp_all [Note.ending?, Note.onEvent]) h

end Readings

structure Closing (failing : Option (ℕ × Failure)) (answer : Option Failure) (closing : List Note)
    (ending : Ending) : Prop where
  split : ∃ front back, closing = front ++ .ended ending :: back ∧
    (∀ entry ∈ front, ∃ failure rollsBack, entry = .weighed failure rollsBack) ∧
    ∀ entry ∈ back, entry.onEvent = true ∧ entry.onDispatch = false ∧ entry.ingestion? = none
  weighed : (weighings closing).map Prod.fst = failing.toList.map Prod.snd
  rolledBack : ending = .rolledBack ↔
    ∃ n failure, failing = some (n, failure) ∧ weighings closing = [(failure, true)]
  blamed : ending.blamed? failing = answer

section Whole

variable {pipeline : Pipeline σ} {chain : List (Interceptor σ)} {segment : Segment}
  {events : List EventMessage} {outcome : Outcome} {notes body closing verdict : List Note}
  {pending : List ℕ} {failure answer : Option Failure} {failing : Option (ℕ × Failure)}
  {ending : Ending}

lemma closing_append (front : List Note) (verdict : Verdict)
    (hf : ∀ entry ∈ front, ∃ failure rollsBack, entry = .weighed failure rollsBack)
    (hw : (weighings front).map Prod.fst = failing.toList.map Prod.snd)
    (hr : ending = .rolledBack ↔
      ∃ n failure, failing = some (n, failure) ∧ weighings front = [(failure, true)])
    (hb : ending.blamed? failing = answer) :
    Closing failing answer (front ++ .ended ending :: reports pending verdict) ending := by
  have hfront : weighings (front ++ .ended ending :: reports pending verdict) =
      weighings front := by
    have hback : weighings (reports pending verdict) = [] :=
      weighings_onEvent fun entry hm => (onEvent_reports verdict entry hm).1
    rw [weighings, List.filterMap_append]
    exact (congrArg (weighings front ++ ·) hback).trans (List.append_nil _)
  refine ⟨⟨front, _, rfl, hf, onEvent_reports verdict⟩, ?_, ?_, hb⟩
  · rw [hfront, hw]
  · rw [hfront, hr]

lemma closing_of_closes (h : Closes pending failure answer closing)
    (hf : failing.map Prod.snd = failure) : ∃ ending, Closing failing answer closing ending := by
  cases h with
  | committed =>
    obtain rfl := Option.map_eq_none_iff.mp hf
    exact ⟨_, closing_append [] .success (by simp) rfl (by simp) rfl⟩
  | commitFailed f =>
    obtain rfl := Option.map_eq_none_iff.mp hf
    exact ⟨_, closing_append [] (.failure f) (by simp) rfl (by simp) rfl⟩
  | rolledBack f =>
    obtain ⟨⟨n, f⟩, rfl, rfl⟩ := Option.map_eq_some_iff.mp hf
    have hw : weighings [.weighed f true] = [(f, true)] := rfl
    exact ⟨_, closing_append [.weighed f true] (.failure f) (by simp) rfl (by simp [hw]) rfl⟩
  | kept f =>
    obtain ⟨⟨n, f⟩, rfl, rfl⟩ := Option.map_eq_some_iff.mp hf
    have hw : weighings [.weighed f false] = [(f, false)] := rfl
    exact ⟨_, closing_append [.weighed f false] .success (by simp) rfl (by simp [hw]) rfl⟩
  | keptInVain f commitFailure =>
    obtain ⟨⟨n, f⟩, rfl, rfl⟩ := Option.map_eq_some_iff.mp hf
    have hw : weighings [.weighed f false] = [(f, false)] := rfl
    exact ⟨_, closing_append [.weighed f false] (.failure commitFailure) (by simp) rfl
      (by simp [hw]) rfl⟩

section Assembled

variable (hi : Ingests pipeline chain segment 0 events body pending failure)
  (hc : Closing failing answer closing ending) (hd : Decides pipeline events answer outcome verdict)

include hi hd

lemma weighings_whole :
    weighings (.began :: (body ++ (closing ++ verdict))) = weighings closing := by
  have hverdict : weighings verdict = [] := by cases hd <;> rfl
  change (body ++ (closing ++ verdict)).filterMap _ = _
  rw [List.filterMap_append, List.filterMap_append]
  change weighings body ++ (weighings closing ++ weighings verdict) = _
  rw [weighings_onEvent hi.onEvent, hverdict, List.append_nil, List.nil_append]

include hc

lemma ended_whole : ∃ before after,
    .began :: (body ++ (closing ++ verdict)) = before ++ .ended ending :: after ∧
      endings before = [] ∧ endings after = [] ∧ consultations before = [] ∧
      consultations after = consultations verdict ∧ Note.began ∉ body ++ (closing ++ verdict) ∧
      ∀ entry ∈ after, entry.onDispatch = false ∧ entry.ingestion? = none := by
  obtain ⟨front, back, rfl, hfront, hback⟩ := hc.split
  refine ⟨.began :: (body ++ front), back ++ verdict, by simp, ?_, ?_, ?_, ?_, ?_, ?_⟩
  · have hf : endings front = [] := List.filterMap_eq_nil_iff.mpr fun entry hm => by
      obtain ⟨_, _, rfl⟩ := hfront entry hm
      rfl
    change endings (body ++ front) = []
    rw [endings_append, endings_onEvent hi.onEvent, hf, List.append_nil]
  · rw [endings_append, endings_onEvent fun entry hm => (hback entry hm).1,
      (silent_of_decides hd).endings_eq, List.append_nil]
  · have hf : consultations front = [] := List.filterMap_eq_nil_iff.mpr fun entry hm => by
      obtain ⟨_, _, rfl⟩ := hfront entry hm
      rfl
    change (body ++ front).filterMap _ = []
    rw [List.filterMap_append]
    change consultations body ++ consultations front = []
    rw [consultations_onEvent hi.onEvent, hf, List.append_nil]
  · rw [consultations, List.filterMap_append]
    change consultations back ++ consultations verdict = _
    rw [consultations_onEvent fun entry hm => (hback entry hm).1, List.nil_append]
  · have hverdict : Note.began ∉ verdict := by cases hd <;> simp
    simp only [List.mem_append, List.mem_cons, not_or]
    refine ⟨fun hm => ?_, ⟨fun hm => ?_, by simp, fun hm => ?_⟩, hverdict⟩
    · cases hi.onEvent _ hm
    · obtain ⟨_, _, he⟩ := hfront _ hm
      cases he
    · cases (hback _ hm).1
  · intro entry hm
    rcases List.mem_append.mp hm with hm | hm
    · exact (hback entry hm).2
    · exact ⟨onDispatch_of_decides hd entry hm,
        List.filterMap_eq_nil_iff.mp (silent_of_decides hd).ingestions_eq entry hm⟩

end Assembled

lemma consultations_of_decides (h : Decides pipeline events answer outcome verdict) :
    (consultations verdict = answer.toList.map fun failure =>
      (⟨pipeline.name, failure, events⟩, outcome)) ∧ (answer = none → outcome = .ok ()) := by
  cases h with
  | done => exact ⟨rfl, fun _ => rfl⟩
  | failed failure verdict hg => exact ⟨rfl, fun h => by cases h⟩

lemma Accounts.stops (h : Accounts pipeline segment events notes) {n : ℕ} {failure : Failure}
    (hf : failing? notes = some (n, failure)) : ∀ k ∈ entrances 0 notes, k ≤ n := by
  intro k hk
  rw [h.dispatched] at hk
  obtain ⟨⟨event, k⟩, hm, rfl⟩ := List.mem_map.mp hk
  have hlt := (List.mem_zipIdx (List.mem_of_mem_filter hm)).2.1
  have hl := h.upToFailure n failure hf
  omega

lemma protocol_of_processes (h : Processes pipeline chain segment events outcome notes) :
    ∃ ending, Protocol pipeline events outcome notes ending := by
  have ha := accounts_of_processes h
  obtain @⟨body, closing, verdict, pending, failure, answer, hi, hc, hd⟩ := h
  have hsnd : (Ingests.failing 0 body failure).map Prod.snd = failure := by
    cases failure <;> rfl
  have hfailing := failing?_whole hi hc hd
  rw [← hfailing] at hsnd
  obtain ⟨ending, hclosing⟩ := closing_of_closes hc hsnd
  obtain ⟨before, after, hsplit, hbefore, hafter, hearly, hlate, hbegan, hrest⟩ :=
    ended_whole hi hclosing hd
  obtain ⟨hasked, hunasked⟩ := consultations_of_decides hd
  have hweighings : weighings (.began :: (body ++ (closing ++ verdict))) = weighings closing :=
    weighings_whole hi hd
  refine ⟨ending, ?_⟩
  constructor
  case begun => exact ⟨_, rfl, hbegan⟩
  case ended => exact ⟨before, after, hsplit, hbefore, hafter, hearly, hrest⟩
  case weighed =>
    rw [hweighings]
    exact hclosing.weighed
  case rolledBack =>
    rw [hweighings]
    exact hclosing.rolledBack
  case stops => exact fun n failure hf => ha.stops hf
  case consulted =>
    have hwhole : consultations (before ++ .ended ending :: after) =
        consultations before ++ consultations after := List.filterMap_append
    rw [hclosing.blamed, hsplit, hwhole, hearly, hlate, hasked, List.nil_append]
  case settled =>
    rw [hclosing.blamed]
    exact hunasked

end Whole

/-- A batch whose collaborators come back has an outcome, and whenever it has one, it has run in
one transaction that ended once, behind all dispatches: it was rolled back exactly when the rule
weighed the first failure and said so. The error handler was asked once if anything failed, and
what it said is the outcome; else it was not asked. -/
theorem processBatch_protocol (pipeline : Pipeline σ) (chain : List (Interceptor σ))
    (events : List EventMessage) (segment : Segment) (depth : ℕ) (s : System σ) :
    (pipeline.Responsive chain segment depth → ∃ outcome s',
      System.run depth (pipeline.processBatch chain events segment) s = some (outcome, s')) ∧
    ∀ outcome s',
      System.run depth (pipeline.processBatch chain events segment) s = some (outcome, s') →
      ∃ notes ending, System.run depth (pipeline.watched chain events segment) (s.quiet []) =
          some (outcome, s'.quiet notes) ∧
        Protocol pipeline events outcome notes ending := by
  constructor
  · intro h
    obtain ⟨outcome, s', hr, -⟩ := returns_processBatch h events s
    exact ⟨outcome, s', hr⟩
  · intro outcome s' h
    obtain ⟨notes, hp, hw⟩ := watched_processBatch h
    obtain ⟨ending, hprotocol⟩ := protocol_of_processes hp
    exact ⟨notes, ending, hw, hprotocol⟩

namespace Sample

lemma run_handle (outcome : EventMessage → Outcome) (rollback : RollbackRule Unit)
    (errorHandler : ErrorHandler Unit) (depth : ℕ) (event : EventMessage) (unit : UnitOfWork)
    (s : System Unit) :
    System.run depth
      ((pipeline (group outcome (.propagating 0)) rollback errorHandler).invoker.handle
        event unit .root) s = some (outcome event, s) := by
  have h (fixed : Outcome) : System.run depth
      ((pipeline (group (fun _ => fixed) (.propagating 0)) rollback errorHandler).invoker.handle
        event unit .root) s = some (fixed, s) := by
    cases fixed <;> rfl
  exact h (outcome event)

lemma halfDone_responsive (depth : ℕ) : halfDone.Responsive [] .root depth where
  start := .pure ⟨.pure trivial, .pure trivial⟩
  ingest event := .pure ⟨.pure trivial, fun _ => .pure trivial, .pure trivial⟩
  enter := by simp
  handle event unit := fun s => ⟨_, s, run_handle _ _ _ depth event unit s, trivial⟩
  weigh _ := .pure trivial
  consult _ := .pure trivial

end Sample

theorem halfDone_protocol : Sample.halfDone.Responsive [] .root 1 ∧
    ∃ outcome s' notes ending,
      System.run 1 (Sample.halfDone.watched [] [Sample.event "first", Sample.event "second"] .root)
          (System.quiet [] { shared := () }) = some (outcome, System.quiet notes s') ∧
        Protocol Sample.halfDone [Sample.event "first", Sample.event "second"] outcome notes
          ending := by
  have hr := Sample.halfDone_responsive 1
  obtain ⟨hreturns, hkept⟩ := processBatch_protocol Sample.halfDone []
    [Sample.event "first", Sample.event "second"] .root 1 { shared := () }
  obtain ⟨outcome, s', h⟩ := hreturns hr
  obtain ⟨notes, ending, hw, hp⟩ := hkept outcome s' h
  exact ⟨hr, outcome, s', notes, ending, hw, hp⟩

end EventProcessing
