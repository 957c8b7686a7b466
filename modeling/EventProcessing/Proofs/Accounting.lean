import EventProcessing.Proofs.Notebook.Attribution

namespace EventProcessing

variable {σ : Type}

def Note.report? : Note → Option (ℕ × Verdict)
  | .reported ingestion verdict => some (ingestion, verdict)
  | _ => none

def verdicts (notes : List Note) (ingestion : ℕ) : List Verdict :=
  (notes.filterMap Note.report?).filterMap fun report =>
    if report.1 = ingestion then some report.2 else none

def Note.ending? : Note → Option Ending
  | .ended ending => some ending
  | _ => none

def endings (notes : List Note) : List Ending := notes.filterMap Note.ending?

def firstFailure? : List (ℕ × Outcome) → Option (ℕ × Failure)
  | [] => none
  | (n, .error failure) :: _ => some (n, failure)
  | (_, .ok ()) :: rest => firstFailure? rest

def failing? (notes : List Note) : Option (ℕ × Failure) := firstFailure? (departures 0 notes)

inductive Ending.Decides (failing : Option (ℕ × Failure)) : Ending → Verdict → Prop
  | committed : Ending.Decides failing (.committed (.ok ())) .success
  | commitFailed (failure : Failure) :
      Ending.Decides failing (.committed (.error failure)) (.failure failure)
  | rolledBack (n : ℕ) (failure : Failure) (h : failing = some (n, failure)) :
      Ending.Decides failing .rolledBack (.failure failure)

def verdictOn (pipeline : Pipeline σ) (segment : Segment) (failing : Option (ℕ × Failure))
    (decided : Verdict) (ingestion : ℕ) (event : EventMessage) : Verdict :=
  if pipeline.invoker.canHandle event segment then
    match failing with
    | some (n, failure) => if ingestion = n then .failure failure else decided
    | none => decided
  else .ignored

structure Accounts (pipeline : Pipeline σ) (segment : Segment) (events : List EventMessage)
    (notes : List Note) : Prop where
  inOrder : ingestions notes <+: events
  whole : failing? notes = none → ingestions notes = events
  upToFailure : ∀ n failure, failing? notes = some (n, failure) →
    (ingestions notes).length = n + 1
  dispatched : entrances 0 notes =
    ((ingestions notes).zipIdx.filter fun entry =>
      pipeline.invoker.canHandle entry.1 segment).map Prod.snd
  departed : (departures 0 notes).map Prod.fst = entrances 0 notes
  reported : ∃ ending decided, endings notes = [ending] ∧ ending.Decides (failing? notes) decided ∧
    ∀ n event, (ingestions notes)[n]? = some event →
      verdicts notes n = [verdictOn pipeline segment (failing? notes) decided n event]
  noOther : ∀ n, (ingestions notes).length ≤ n → verdicts notes n = []
  successLast : ∀ earlier later n, notes = earlier ++ .reported n .success :: later →
    Note.ended (.committed (.ok ())) ∈ earlier

section Append

variable (xs ys : List Note)

lemma verdicts_append (n : ℕ) : verdicts (xs ++ ys) n = verdicts xs n ++ verdicts ys n := by
  simp [verdicts, List.filterMap_append]

lemma verdicts_report (m n : ℕ) (verdict : Verdict) :
    verdicts [.reported m verdict] n = if m = n then [verdict] else [] := by
  by_cases h : m = n <;> simp [verdicts, Note.report?, h]

lemma endings_append : endings (xs ++ ys) = endings xs ++ endings ys := List.filterMap_append

end Append

section Parts

variable {pipeline : Pipeline σ} {chain : List (Interceptor σ)} {segment : Segment}
  {event : EventMessage} {events : List EventMessage} {outcome : Outcome} {notes : List Note}

structure Silent (notes : List Note) : Prop where
  ingestions_eq : ingestions notes = []
  reports_eq : notes.filterMap Note.report? = []
  endings_eq : endings notes = []

lemma Silent.verdicts_eq (h : Silent notes) (n : ℕ) : verdicts notes n = [] := by
  simp [verdicts, h.reports_eq]

lemma Silent.not_mem (h : Silent notes) (n : ℕ) (verdict : Verdict) :
    Note.reported n verdict ∉ notes := by
  intro hm
  have hr : (n, verdict) ∈ notes.filterMap Note.report? := List.mem_filterMap.mpr ⟨_, hm, rfl⟩
  rw [h.reports_eq] at hr
  cases hr

lemma Silent.append {more : List Note} (h : Silent notes) (hm : Silent more) :
    Silent (notes ++ more) where
  ingestions_eq := by rw [ingestions_append, h.ingestions_eq, hm.ingestions_eq]; rfl
  reports_eq := by rw [List.filterMap_append, h.reports_eq, hm.reports_eq]; rfl
  endings_eq := by rw [endings_append, h.endings_eq, hm.endings_eq]; rfl

lemma silent_calls (places : List (List ℕ)) : Silent (places.map (Note.called · event)) := by
  constructor
  · exact ingestions_map_called places event
  all_goals
    induction places with
    | nil => rfl
    | cons place rest ih => exact ih

lemma Dispatched.silent (h : Dispatched pipeline chain segment event outcome notes) :
    Silent notes := by
  obtain ⟨places, rfl⟩ := h.places
  have he : Silent [.entered event] := ⟨rfl, rfl, rfl⟩
  have hl : Silent [.left event outcome] := ⟨rfl, rfl, rfl⟩
  exact he.append ((silent_calls places).append hl)

lemma verdicts_reports (pending : List ℕ) (verdict : Verdict) (n : ℕ) :
    verdicts (reports pending verdict) n = List.replicate (pending.count n) verdict := by
  induction pending with
  | nil => rfl
  | cons k rest ih =>
    change verdicts ([.reported k verdict] ++ reports rest verdict) n = _
    rw [verdicts_append, ih]
    by_cases h : k = n
    · subst h
      simp [verdicts_report, List.replicate_succ]
    · simp [verdicts_report, h]

end Parts

namespace Ingests

variable {pipeline : Pipeline σ} {chain : List (Interceptor σ)} {segment : Segment} {n : ℕ}
  {events : List EventMessage} {notes : List Note} {pending : List ℕ} {failure : Option Failure}

lemma inOrder (h : Ingests pipeline chain segment n events notes pending failure) :
    ingestions notes <+: events := by
  induction h with
  | done n => exact List.nil_prefix
  | ignored hc hr ih => exact (List.prefix_cons_inj _).mpr ih
  | handled hc hd hr ih =>
    rw [ingestions_handled hd]
    exact (List.prefix_cons_inj _).mpr ih
  | failed hc hd =>
    rw [ingestions_handled hd]
    exact (List.prefix_cons_inj _).mpr List.nil_prefix

lemma whole (h : Ingests pipeline chain segment n events notes pending failure)
    (hf : failure = none) : ingestions notes = events := by
  induction h with
  | done n => rfl
  | ignored hc hr ih => exact congrArg _ (ih hf)
  | handled hc hd hr ih => rw [ingestions_handled hd, ih hf]
  | failed hc hd => cases hf

lemma endings_eq (h : Ingests pipeline chain segment n events notes pending failure) :
    endings notes = [] := by
  induction h with
  | done n => rfl
  | ignored hc hr ih => exact ih
  | handled hc hd hr ih =>
    change endings (_ ++ _) = []
    rw [endings_append, hd.silent.endings_eq, ih]
    rfl
  | failed hc hd =>
    change endings (_ ++ _) = []
    rw [endings_append, hd.silent.endings_eq]
    rfl

lemma departures_eq (h : Ingests pipeline chain segment n events notes pending failure) :
    departures n notes = pending.map (·, .ok ()) ++
      failure.elim [] fun f => [(n + (ingestions notes).length - 1, .error f)] := by
  induction h with
  | done n => rfl
  | @ignored n _ _ notes _ failure hc hr ih =>
    have hn : n + 1 + (ingestions notes).length - 1 = n + ((ingestions notes).length + 1) - 1 := by
      omega
    rw [hn] at ih
    exact ih
  | @handled n _ _ _ notes _ failure hc hd hr ih =>
    have hn : n + 1 + (ingestions notes).length - 1 = n + ((ingestions notes).length + 1) - 1 := by
      omega
    rw [ingestions_handled hd, List.length_cons, ← hn]
    change departures (n + 1) (_ ++ _) = _
    rw [departures_append, hd.departures_eq, hd.ingestions_eq, List.length_nil, Nat.add_zero, ih]
    rfl
  | failed hc hd =>
    rw [ingestions_handled hd]
    change departures (_ + 1) (_ ++ _) = _
    rw [departures_append, hd.departures_eq]
    rfl

lemma departed (h : Ingests pipeline chain segment n events notes pending failure) (m : ℕ) :
    (departures m notes).map Prod.fst = entrances m notes := by
  induction h generalizing m with
  | done n => rfl
  | ignored hc hr ih => exact ih (m + 1)
  | handled hc hd hr ih =>
    change (departures (m + 1) (_ ++ _)).map _ = entrances (m + 1) (_ ++ _)
    rw [departures_append, entrances_append, hd.departures_eq, hd.entrances_eq, hd.ingestions_eq]
    exact congrArg _ (ih (m + 1))
  | failed hc hd =>
    change (departures (m + 1) (_ ++ _)).map _ = entrances (m + 1) (_ ++ _)
    rw [departures_append, entrances_append, hd.departures_eq, hd.entrances_eq]
    rfl

lemma verdicts_ignored (event : EventMessage) (m : ℕ) :
    verdicts (.ingested event :: .reported n .ignored :: notes) m =
      verdicts [.reported n .ignored] m ++ verdicts notes m :=
  verdicts_append [.reported n .ignored] notes m

lemma verdicts_handled {event : EventMessage} {outcome : Outcome} {inner : List Note}
    (hd : Dispatched pipeline chain segment event outcome inner) (more : List Note) (m : ℕ) :
    verdicts (.ingested event :: (inner ++ more)) m = verdicts more m := by
  change verdicts (inner ++ more) m = _
  rw [verdicts_append, hd.silent.verdicts_eq]
  rfl

lemma own (h : Ingests pipeline chain segment n events notes pending failure) (k : ℕ)
    (hk : k < n ∨ n + (ingestions notes).length ≤ k) : verdicts notes k = [] ∧ k ∉ pending := by
  induction h with
  | done n => exact ⟨rfl, List.not_mem_nil⟩
  | @ignored n event _ notes _ _ hc hr ih =>
    have hl : (ingestions (.ingested event :: .reported n .ignored :: notes)).length =
        (ingestions notes).length + 1 := rfl
    obtain ⟨hv, hp⟩ := ih (by omega)
    refine ⟨?_, hp⟩
    rw [verdicts_ignored, hv, List.append_nil, verdicts_report, if_neg (by omega)]
  | @handled n event _ inner notes _ _ hc hd hr ih =>
    rw [ingestions_handled hd, List.length_cons] at hk
    obtain ⟨hv, hp⟩ := ih (by omega)
    refine ⟨(verdicts_handled hd _ k).trans hv, ?_⟩
    rw [List.mem_cons, not_or]
    exact ⟨by omega, hp⟩
  | @failed n event _ inner failure hc hd =>
    rw [ingestions_handled hd] at hk
    change k < n ∨ n + (0 + 1) ≤ k at hk
    refine ⟨?_, List.not_mem_nil⟩
    rw [verdicts_handled hd, verdicts_report, if_neg (by omega)]

lemma length_pos (h : Ingests pipeline chain segment n events notes pending failure)
    (hf : failure.isSome) : 0 < (ingestions notes).length := by
  cases h with
  | done => cases hf
  | ignored hc hr => exact Nat.succ_pos _
  | handled hc hd hr => simp [ingestions_handled hd]
  | failed hc hd => simp [ingestions_handled hd]

abbrev failing (n : ℕ) (notes : List Note) (failure : Option Failure) : Option (ℕ × Failure) :=
  failure.map (n + (ingestions notes).length - 1, ·)

lemma failing_cons {event : EventMessage} {more : List Note}
    (h : ingestions more = event :: ingestions notes) :
    failing n more failure = failing (n + 1) notes failure := by
  simp only [failing, h, List.length_cons, Nat.add_assoc, Nat.add_comm 1]

lemma reported (h : Ingests pipeline chain segment n events notes pending failure)
    (decided : Verdict) (k : ℕ) (event : EventMessage)
    (hk : (ingestions notes)[k]? = some event) :
    verdicts notes (n + k) ++ List.replicate (pending.count (n + k)) decided =
      [verdictOn pipeline segment (failing n notes failure) decided (n + k) event] := by
  induction h generalizing k with
  | done n => cases hk
  | @ignored n first _ notes pending failure hc hr ih =>
    have hl : (ingestions (.ingested first :: .reported n .ignored :: notes)) =
        first :: ingestions notes := rfl
    rw [hl] at hk
    rw [verdicts_ignored, failing_cons hl]
    cases k with
    | zero =>
      cases hk
      obtain ⟨hv, hp⟩ := hr.own n (by omega)
      simp [hv, List.count_eq_zero.mpr hp, verdictOn, hc, verdicts_report]
    | succ k =>
      have hrest := ih k hk
      rw [show n + 1 + k = n + (k + 1) by omega] at hrest
      simpa [verdicts_report] using hrest
  | @handled n first _ inner notes pending failure hc hd hr ih =>
    have hl := ingestions_handled hd notes
    rw [hl] at hk
    rw [verdicts_handled hd, failing_cons hl]
    cases k with
    | zero =>
      cases hk
      obtain ⟨hv, hp⟩ := hr.own n (by omega)
      cases failure with
      | none => simp [hv, List.count_eq_zero.mpr hp, verdictOn, hc]
      | some failure =>
        have hne := List.ne_nil_of_length_pos (hr.length_pos rfl)
        simp [hv, List.count_eq_zero.mpr hp, verdictOn, hc, hne]
    | succ k =>
      have hrest := ih k hk
      rw [show n + 1 + k = n + (k + 1) by omega] at hrest
      simpa [List.count_cons] using hrest
  | @failed n first _ inner failure hc hd =>
    have hl := ingestions_handled hd [.reported n (.failure failure)]
    rw [hl] at hk
    rw [verdicts_handled hd]
    cases k with
    | zero =>
      cases hk
      have hone : (ingestions
          (.ingested event :: (inner ++ [.reported n (.failure failure)]))).length = 1 := by
        rw [hl]
        rfl
      simp [failing, hone, verdictOn, hc, verdicts_report]
    | succ k => cases hk

lemma no_success (h : Ingests pipeline chain segment n events notes pending failure) (k : ℕ) :
    Note.reported k .success ∉ notes := by
  induction h with
  | done n => exact List.not_mem_nil
  | ignored hc hr ih => simpa using ih
  | handled hc hd hr ih => simpa [ih] using hd.silent.not_mem k .success
  | failed hc hd => simpa using hd.silent.not_mem k .success

end Ingests

lemma firstFailure?_append_of_ok (pending : List ℕ) (more : List (ℕ × Outcome)) :
    firstFailure? (pending.map (·, .ok ()) ++ more) = firstFailure? more := by
  induction pending with
  | nil => rfl
  | cons n rest ih => exact ih

section Closing

variable {pending : List ℕ} {failure answer : Option Failure} {closing : List Note}

lemma endings_reports (verdict : Verdict) : endings (reports pending verdict) = [] := by
  induction pending with
  | nil => rfl
  | cons n rest ih => exact ih

lemma decided_of_closes (h : Closes pending failure answer closing)
    (failing : Option (ℕ × Failure)) (hf : failing.map Prod.snd = failure) :
    ∃ ending decided, endings closing = [ending] ∧ ending.Decides failing decided ∧
      ∀ n, verdicts closing n = List.replicate (pending.count n) decided := by
  cases h with
  | committed =>
    refine ⟨_, _, ?_, .committed, fun n => verdicts_reports _ _ n⟩
    exact congrArg _ (endings_reports _)
  | commitFailed failure =>
    refine ⟨_, _, ?_, .commitFailed failure, fun n => verdicts_reports _ _ n⟩
    exact congrArg _ (endings_reports _)
  | rolledBack failure =>
    obtain ⟨⟨n, _⟩, hn, rfl⟩ := Option.map_eq_some_iff.mp hf
    refine ⟨_, _, ?_, .rolledBack n _ hn, fun n => verdicts_reports _ _ n⟩
    exact congrArg _ (endings_reports _)
  | kept failure =>
    refine ⟨_, _, ?_, .committed, fun n => verdicts_reports _ _ n⟩
    exact congrArg _ (endings_reports _)
  | keptInVain failure commitFailure =>
    refine ⟨_, _, ?_, .commitFailed commitFailure, fun n => verdicts_reports _ _ n⟩
    exact congrArg _ (endings_reports _)

lemma not_mem_reports (n : ℕ) {verdict other : Verdict} (h : other ≠ verdict) :
    Note.reported n other ∉ reports pending verdict := by
  intro hm
  obtain ⟨_, _, he⟩ := List.mem_map.mp hm
  cases he
  exact h rfl

lemma commit_of_success (h : Closes pending failure answer closing) {n : ℕ}
    (hm : Note.reported n .success ∈ closing) :
    ∃ front back, closing = front ++ .ended (.committed (.ok ())) :: back ∧
      Note.reported n .success ∉ front := by
  have hno : ∀ f, Note.reported n .success ∉ reports pending (.failure f) :=
    fun f => not_mem_reports n (by simp)
  cases h with
  | committed => exact ⟨[], _, rfl, List.not_mem_nil⟩
  | kept failure => exact ⟨[_], _, rfl, by simp⟩
  | commitFailed | rolledBack | keptInVain => simp [hno] at hm

lemma mem_of_split {front back earlier later : List Note} {entry report : Note}
    (h : front ++ entry :: back = earlier ++ report :: later) (hf : report ∉ front)
    (he : report ≠ entry) : entry ∈ earlier := by
  rcases List.append_eq_append_iff.mp h with ⟨middle, rfl, hm⟩ | ⟨middle, rfl, hm⟩
  · cases middle with
    | nil =>
      cases hm
      exact absurd rfl he
    | cons first rest =>
      cases hm
      simp
  · cases middle with
    | nil =>
      cases hm
      exact absurd rfl he
    | cons first rest =>
      cases hm
      exact absurd (by simp) hf

end Closing

section Whole

variable {pipeline : Pipeline σ} {chain : List (Interceptor σ)} {segment : Segment}
  {events : List EventMessage} {outcome : Outcome} {notes body closing verdict : List Note}
  {pending : List ℕ} {failure answer : Option Failure}

lemma silent_of_decides (h : Decides pipeline events answer outcome verdict) : Silent verdict := by
  cases h <;> exact ⟨rfl, rfl, rfl⟩

lemma verdicts_whole (hd : Decides pipeline events answer outcome verdict) (n : ℕ) :
    verdicts (.began :: (body ++ (closing ++ verdict))) n =
      verdicts body n ++ verdicts closing n := by
  change verdicts (body ++ (closing ++ verdict)) n = _
  rw [verdicts_append, verdicts_append, (silent_of_decides hd).verdicts_eq, List.append_nil]

lemma endings_whole (hi : Ingests pipeline chain segment 0 events body pending failure)
    (hd : Decides pipeline events answer outcome verdict) :
    endings (.began :: (body ++ (closing ++ verdict))) = endings closing := by
  change endings (body ++ (closing ++ verdict)) = _
  rw [endings_append, endings_append, hi.endings_eq, (silent_of_decides hd).endings_eq,
    List.append_nil]
  rfl

lemma failing?_whole (hi : Ingests pipeline chain segment 0 events body pending failure)
    (hc : Closes pending failure answer closing)
    (hd : Decides pipeline events answer outcome verdict) :
    failing? (.began :: (body ++ (closing ++ verdict))) = Ingests.failing 0 body failure := by
  rw [failing?, Ingests.departures_whole hc hd, hi.departures_eq, firstFailure?_append_of_ok]
  cases failure <;> rfl

lemma commit_before_success (hi : Ingests pipeline chain segment 0 events body pending failure)
    (hc : Closes pending failure answer closing)
    (hd : Decides pipeline events answer outcome verdict) {earlier later : List Note} {n : ℕ}
    (h : .began :: (body ++ (closing ++ verdict)) = earlier ++ .reported n .success :: later) :
    Note.ended (.committed (.ok ())) ∈ earlier := by
  have hverdict : Note.reported n .success ∉ verdict := (silent_of_decides hd).not_mem n .success
  have hmem : Note.reported n .success ∈ .began :: (body ++ (closing ++ verdict)) := by
    rw [h]
    simp
  have hclosing : Note.reported n .success ∈ closing := by
    simpa [hi.no_success n, hverdict] using hmem
  obtain ⟨front, back, rfl, hfront⟩ := commit_of_success hc hclosing
  have hfirst : Note.reported n .success ∉ .began :: (body ++ front) := by
    simp [hi.no_success n, hfront]
  exact mem_of_split (by simpa using h) hfirst (by simp)

lemma accounts_of_processes (h : Processes pipeline chain segment events outcome notes) :
    Accounts pipeline segment events notes := by
  obtain @⟨body, closing, verdict, _, failure, _, hi, hc, hd⟩ := h
  have hsnd : (Ingests.failing 0 body failure).map Prod.snd = failure := by
    cases failure <;> rfl
  obtain ⟨ending, decided, hend, hdecides, hclosing⟩ := decided_of_closes hc _ hsnd
  have hingested : ingestions (.began :: (body ++ (closing ++ verdict))) = ingestions body :=
    Ingests.ingestions_whole hc hd
  have hfailing := failing?_whole hi hc hd
  constructor
  case inOrder =>
    rw [hingested]
    exact hi.inOrder
  case whole =>
    rw [hfailing, hingested]
    intro hf
    exact hi.whole (Option.map_eq_none_iff.mp hf)
  case upToFailure =>
    rw [hfailing, hingested]
    intro n f hf
    obtain ⟨_, rfl, hn⟩ := Option.map_eq_some_iff.mp hf
    cases hn
    have hpos := hi.length_pos rfl
    omega
  case dispatched =>
    rw [Ingests.entrances_whole hc hd, hingested]
    exact hi.entrances_eq 0
  case departed =>
    rw [Ingests.departures_whole hc hd, Ingests.entrances_whole hc hd]
    exact hi.departed 0
  case reported =>
    rw [hfailing, hingested]
    refine ⟨ending, decided, (endings_whole hi hd).trans hend, hdecides, fun n event hn => ?_⟩
    have hone := hi.reported decided n event hn
    rw [Nat.zero_add] at hone
    rw [verdicts_whole hd, hclosing, hone]
  case noOther =>
    rw [hingested]
    intro n hn
    obtain ⟨hnone, hpending⟩ := hi.own n (.inr (by omega))
    rw [verdicts_whole hd, hclosing, hnone, List.count_eq_zero.mpr hpending]
    rfl
  case successLast => exact fun earlier later n h => commit_before_success hi hc hd h

end Whole

/-- The events of a batch are taken in in order, up to the first that fails, and the monitor hears
of each of them once: a success never before its commit. -/
theorem processBatch_accounts {pipeline : Pipeline σ} {chain : List (Interceptor σ)}
    {events : List EventMessage} {segment : Segment} {depth : ℕ} {s s' : System σ}
    {outcome : Outcome}
    (h : System.run depth (pipeline.processBatch chain events segment) s = some (outcome, s')) :
    ∃ notes, System.run depth (pipeline.watched chain events segment) (s.quiet []) =
        some (outcome, s'.quiet notes) ∧
      Accounts pipeline segment events notes := by
  obtain ⟨notes, hp, hw⟩ := watched_processBatch h
  exact ⟨notes, hw, accounts_of_processes hp⟩

namespace Sample

def event (identifier : String) : EventMessage where
  identifier
  payloadType := "sample"
  payload := .null
  aggregateIdentifier := none
  metadata := .empty
  timestampMillis := 0

def group (outcome : EventMessage → Outcome) (errorHandler : ListenerErrorHandler Unit) :
    HandlerGroup Unit where
  handlers := [{
    label := "handler"
    typeName := "Handler"
    package := ""
    declaredGroup := none
    tag := .null
    canHandle := fun _ => true
    handle := fun event _ => return outcome event }]
  errorHandler
  policy := .sequential 0

def pipeline (group : HandlerGroup Unit) (rollback : RollbackRule Unit)
    (errorHandler : ErrorHandler Unit) : Pipeline Unit where
  name := "sample"
  invoker := .all ([group].map Invoker.group)
  errorHandler
  rollback
  transactions := .none 0
  monitor := .silent

def halfDone : Pipeline Unit :=
  pipeline (group (fun event => if event.identifier = "second" then .error (.report "broken")
    else .ok ()) (.propagating 0)) (.never 0) (.propagating 0)

end Sample

theorem halfDone_accounts : ∃ outcome s' notes,
    System.run 1 (Sample.halfDone.watched [] [Sample.event "first", Sample.event "second"] .root)
        (System.quiet [] { shared := () }) = some (outcome, System.quiet notes s') ∧
      Accounts Sample.halfDone .root [Sample.event "first", Sample.event "second"] notes := by
  have h : ∃ outcome s', System.run 1
      (Sample.halfDone.processBatch [] [Sample.event "first", Sample.event "second"] .root)
      { shared := () } = some (outcome, s') := ⟨_, _, rfl⟩
  obtain ⟨outcome, s', h⟩ := h
  obtain ⟨notes, hw, ha⟩ := processBatch_accounts h
  exact ⟨outcome, s', notes, hw, ha⟩

end EventProcessing
