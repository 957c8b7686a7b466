import EventProcessing.Proofs.Tracking.Hiring
import EventProcessing.Schedule

/-! What the schedule can do to a system. A turn changes a worker on its way and takes its steps;
all else is about the line, the clock and what is told of a run. A relation that allows for these
three holds between the ends of whatever the schedule runs. -/

namespace EventProcessing

variable {σ : Type}

def System.workOf (s : System σ) (id : ℕ) : Option (SegmentWork σ) :=
  (s.workers.get? id).map Worker.work

lemma System.workOf_congr {s s' : System σ} (h : s'.workers = s.workers) :
    s'.workOf = s.workOf := by
  funext id
  rw [workOf, h, workOf]

lemma System.workOf_put {s : System σ} {id : ℕ} {worker changed : Worker σ}
    (hw : s.workers.get? id = some worker) (hwork : changed.work = worker.work) :
    workOf { s with workers := s.workers.put id changed } = s.workOf := by
  funext other
  unfold workOf
  by_cases ho : other = id
  · subst ho
    rw [Table.get?_put_self, hw]
    exact congrArg some hwork
  · rw [Table.get?_put_of_ne _ _ ho]

structure Worker.Advances (worker changed : Worker σ) : Prop where
  work : changed.work = worker.work
  stopRequested : worker.stopRequested = true → changed.stopRequested = true
  finished : worker.finished = true → changed.finished = true

lemma Worker.Advances.refl (worker : Worker σ) : worker.Advances worker :=
  ⟨rfl, fun h => h, fun h => h⟩

lemma Worker.Advances.trans {a b c : Worker σ} (hab : a.Advances b) (hbc : b.Advances c) :
    a.Advances c :=
  ⟨hbc.work.trans hab.work, fun h => hbc.stopRequested (hab.stopRequested h),
    fun h => hbc.finished (hab.finished h)⟩

namespace Schedule

structure Beside (s s' : System σ) : Prop where
  workers : s'.workers = s.workers
  processors : s'.processors = s.processors
  tokens : s'.tokens = s.tokens
  buses : s'.buses = s.buses
  nextId : s'.nextId = s.nextId

structure Allows (R : System σ → System σ → Prop) : Prop where
  beside : ∀ {s s'}, Beside s s' → R s s'
  change : ∀ {s id worker changed}, s.workers.get? id = some worker →
    Worker.Advances worker changed → R s { s with workers := s.workers.put id changed }
  step : ∀ {s s' id work depth result}, s.workOf id = some work →
    SegmentWork.step work depth s = some (result, s') → R s s'

variable {R : System σ → System σ → Prop} {s s' : System σ} {depth id : ℕ}
  {work : SegmentWork σ} {worker : Worker σ}

def proceed (id : ℕ) (worker : Worker σ) : Run σ Bool := do
  updateWorker id fun worker => { worker with started := true, idling := false }
  if worker.mustEnd then
    finish id worker.work
    return false
  else if worker.work.pollInterval = 0 then restlessTurn id worker
  else if ← attempt worker.work then return true
  else
    goIdle id worker
    return false

def Within (R : System σ → System σ → Prop) (s s' : System σ) : Prop :=
  R s s' ∧ s'.workOf = s.workOf

lemma within_beside (hR : Allows R) (h : Beside s s') : Within R s s' :=
  ⟨hR.beside h, System.workOf_congr h.workers⟩

lemma within_trace (hR : Allows R) {line : TraceLine} {value : Unit}
    (h : Run.trace line depth s = some (value, s')) : Within R s s' := by
  cases h
  exact within_beside hR ⟨rfl, rfl, rfl, rfl, rfl⟩

lemma keeps_update (hR : Allows R) {f : System σ → System σ} (hf : ∀ s, Beside s (f s)) :
    (Run.update f).Keeps R :=
  .update fun s => hR.beside (hf s)

lemma keeps_endWait (hR : Allows R) : (endWait : Run σ Unit).Keeps R :=
  keeps_update hR fun _ => ⟨rfl, rfl, rfl, rfl, rfl⟩

variable [IsPreorder (System σ) R] (hR : Allows R)

lemma Within.trans {middle : System σ} (h : Within R s middle) (h' : Within R middle s') :
    Within R s s' :=
  ⟨trans_of R h.1 h'.1, h'.2.trans h.2⟩

section Turn

include hR

lemma within_updateWorker {f : Worker σ → Worker σ} {value : Unit}
    (h : updateWorker id f depth s = some (value, s'))
    (hf : ∀ worker : Worker σ, worker.Advances (f worker)) : Within R s s' := by
  cases h
  dsimp only
  split
  · next worker hw =>
    exact ⟨hR.change hw (hf worker), System.workOf_put hw (hf worker).work⟩
  · exact ⟨refl s, rfl⟩

lemma within_finish {value : Unit} (h : finish id work depth s = some (value, s')) :
    Within R s s' := by
  obtain ⟨_, middle, hu, h⟩ := Run.bind_eq_some.mp h
  have hupdate : Within R s middle :=
    within_updateWorker hR hu fun _ => ⟨rfl, fun h => h, fun _ => rfl⟩
  exact hupdate.trans (within_trace hR h)

lemma within_goIdle {value : Unit} (h : goIdle id worker depth s = some (value, s')) :
    Within R s s' := by
  unfold goIdle at h
  split at h
  · exact within_finish hR h
  · obtain ⟨_, middle, hu, h⟩ := Run.bind_eq_some.mp h
    have hidle : Within R middle s' := by
      cases h
      exact within_beside hR ⟨rfl, rfl, rfl, rfl, rfl⟩
    exact (within_updateWorker hR hu fun _ => ⟨rfl, fun h => h, fun h => h⟩).trans hidle

lemma within_attempt {processed : Bool} (hw : s.workOf id = some work)
    (h : attempt work depth s = some (processed, s')) : Within R s s' := by
  obtain ⟨result, middle, hs, h⟩ := Run.bind_eq_some.mp h
  have hstep : Within R s middle :=
    ⟨hR.step hw hs, System.workOf_congr (work.calm_step _ _ _ _ hs).workers⟩
  cases result with
  | ok processed =>
    cases h
    exact hstep
  | error failure =>
    obtain ⟨_, _, htrace, h⟩ := Run.bind_eq_some.mp h
    cases h
    exact hstep.trans (within_trace hR htrace)

lemma within_attempts {processed : Bool} {waits : ℕ} (hw : s.workOf id = some work)
    (h : attempts work waits depth s = some (processed, s')) : Within R s s' := by
  induction waits generalizing s with
  | zero => exact within_attempt hR hw h
  | succ waits ih =>
    obtain ⟨first, middle, ha, h⟩ := Run.bind_eq_some.mp h
    have hfirst : Within R s middle := within_attempt hR hw ha
    cases first with
    | true =>
      cases h
      exact hfirst
    | false => exact hfirst.trans (ih (by rw [hfirst.2, hw]) h)

lemma within_restlessTurn {goesOn : Bool} (hw : s.workOf id = some worker.work)
    (h : restlessTurn id worker depth s = some (goesOn, s')) : Within R s s' := by
  obtain ⟨processed, middle, ha, h⟩ := Run.bind_eq_some.mp h
  have hattempts : Within R s middle := within_attempts hR hw ha
  cases processed with
  | true =>
    cases h
    exact hattempts
  | false =>
    obtain ⟨_, _, hu, h⟩ := Run.bind_eq_some.mp h
    cases h
    exact hattempts.trans (within_updateWorker hR hu fun _ => ⟨rfl, fun h => h, fun h => h⟩)

lemma within_started {goesOn : Bool} (hw : s.workOf id = some worker.work)
    (h : proceed id worker depth s = some (goesOn, s')) : Within R s s' := by
  obtain ⟨_, middle, hu, h⟩ := Run.bind_eq_some.mp h
  have hupdate : Within R s middle :=
    within_updateWorker hR hu fun _ => ⟨rfl, fun h => h, fun h => h⟩
  have hmiddle : middle.workOf id = some worker.work := by rw [hupdate.2, hw]
  apply hupdate.trans
  split at h
  · obtain ⟨_, _, hf, h⟩ := Run.bind_eq_some.mp h
    cases h
    exact within_finish hR hf
  · split at h
    · exact within_restlessTurn hR hmiddle h
    · obtain ⟨processed, last, ha, h⟩ := Run.bind_eq_some.mp h
      have hattempt : Within R middle last := within_attempt hR hmiddle ha
      cases processed with
      | true =>
        cases h
        exact hattempt
      | false =>
        obtain ⟨_, _, hg, h⟩ := Run.bind_eq_some.mp h
        cases h
        exact hattempt.trans (within_goIdle hR hg)

lemma keeps_turn (id : ℕ) : (turn id).Keeps R := by
  intro depth s goesOn s' h
  obtain ⟨_, _, hs, h⟩ := Run.bind_eq_some.mp h
  cases hs
  cases hw : s.workers.get? id with
  | none =>
    rw [hw] at h
    cases h
    exact refl s
  | some worker =>
    rw [hw] at h
    have hwork : s.workOf id = some worker.work := by rw [System.workOf, hw, Option.map_some]
    dsimp only at h
    split at h
    · exact (within_started hR hwork h).1
    · obtain ⟨_, middle, htrace, h⟩ := Run.bind_eq_some.mp h
      have hmiddle : Within R s middle := within_trace hR htrace
      exact (hmiddle.trans (within_started hR (by rw [hmiddle.2, hwork]) h)).1

end Turn

section Time

include hR

lemma keeps_turns (ids goingOn : List ℕ) : (List.filterAuxM turn ids goingOn).Keeps R := by
  induction ids generalizing goingOn with
  | nil => exact .pure _
  | cons id rest ih => exact .bind (keeps_turn hR id) fun _ => ih _

lemma keeps_round : (round : Run σ Unit).Keeps R := by
  refine .bind .system fun s => .bind (keeps_update hR fun _ => ⟨rfl, rfl, rfl, rfl, rfl⟩) fun _ =>
    .bind ?_ fun _ => keeps_update hR fun _ => ⟨rfl, rfl, rfl, rfl, rfl⟩
  exact .bind (keeps_turns hR _ _) fun _ => .pure _

lemma keeps_passWait : (passWait : Run σ Unit).Keeps R := by
  refine .bind .system fun s => ?_
  split
  · exact .bind (keeps_round hR) fun _ => keeps_endWait hR
  · exact keeps_update hR fun _ => ⟨rfl, rfl, rfl, rfl, rfl⟩

lemma keeps_roundsUntil (done : System σ → Bool) (fuel : ℕ) :
    (roundsUntil done fuel).Keeps R := by
  induction fuel with
  | zero =>
    intro depth s value s' h
    cases h
  | succ fuel ih =>
    refine .bind .system fun s => ?_
    split
    · exact .pure _
    · exact .bind (keeps_round hR) fun _ => ih

lemma keeps_runUntil (instant fuel jumps : ℕ) : (runUntil (σ := σ) instant fuel jumps).Keeps R := by
  induction jumps with
  | zero =>
    intro depth s value s' h
    cases h
  | succ jumps ih =>
    refine .bind (keeps_roundsUntil hR _ _) fun _ => .bind .system fun s => ?_
    split
    · split
      · exact .bind (keeps_update hR fun _ => ⟨rfl, rfl, rfl, rfl, rfl⟩) fun _ => ih
      · exact keeps_update hR fun _ => ⟨rfl, rfl, rfl, rfl, rfl⟩
    · exact keeps_update hR fun _ => ⟨rfl, rfl, rfl, rfl, rfl⟩

lemma keeps_runFor (milliseconds fuel : ℕ) : (runFor (σ := σ) milliseconds fuel).Keeps R := by
  unfold runFor
  split
  · exact keeps_passWait hR
  · exact .bind .system fun s => .bind (keeps_runUntil hR _ _ _) fun _ => keeps_endWait hR

lemma keeps_awaitWorker (fuel id : ℕ) : (awaitWorker (σ := σ) fuel id).Keeps R := by
  refine .bind .system fun s => ?_
  split
  · exact keeps_passWait hR
  · exact .bind (keeps_roundsUntil hR _ _) fun _ => keeps_endWait hR

lemma keeps_awaitWorkers (fuel : ℕ) (ids : List ℕ) :
    Run.Keeps R (ids.forM (awaitWorker fuel) : Run σ PUnit) := by
  induction ids with
  | nil => exact .pure _
  | cons id rest ih => exact .bind (keeps_awaitWorker hR fuel id) fun _ => ih

end Time

end Schedule

end EventProcessing
