import EventProcessing.Proofs.Notebook.Twins
import EventProcessing.Proofs.Tracking.Effects
import EventProcessing.Proofs.Tracking.Hiring
import EventProcessing.Schedule

/-! Fleets: tracking processors with names of their own, side by side in one system. What happens to
a fleet is a list of operations, and a run of them tells what is seen of each processor. -/

namespace EventProcessing

variable {ι σ : Type}

structure Fleet (ι σ : Type) where
  processor : ι → Processor σ
  tracking : ι → TrackingProcessor σ
  kind : ∀ i, (processor i).kind = .tracking (tracking i)
  selves : Function.Injective fun i => (processor i).self.id
  names : Function.Injective fun i => (tracking i).pipeline.name

inductive Operation (ι : Type) where
  | publish (bus : BusId) (events : List EventMessage)
  | start (i : ι)
  | shutDown (i : ι)
  /-- The worker goes by its place among all that the processor ever hired. -/
  | step (i : ι) (place : ℕ)

def Operation.owner : Operation ι → Option ι
  | .publish _ _ => none
  | .start i | .shutDown i | .step i _ => some i

def Operation.concerns [DecidableEq ι] (i : ι) (operation : Operation ι) : Bool :=
  operation.owner.all fun j => j = i

inductive Sight where
  | started (outcome : Outcome)
  | stopped (outcome : Outcome)
  | stepped (result : Except Failure Bool) (batch : Option (Option Token × List Note))

structure Stage (ι σ : Type) where
  system : System σ
  crew : ι → List ℕ
  seen : ι → List Sight

def Stage.start (s : System σ) : Stage ι σ := ⟨s, fun _ => [], fun _ => []⟩

def Stage.worker? (c : Stage ι σ) (i : ι) (place : ℕ) : Option (ℕ × Worker σ) := do
  let id ← (c.crew i)[place]?
  let worker ← c.system.workers.get? id
  return (id, worker)

def Attempt.account (a : Attempt σ) : Option Token × List Note := (a.token, a.notes)

namespace Fleet

variable (fleet : Fleet ι σ)

def id (i : ι) : ℕ := (fleet.processor i).self.id

def name (i : ι) : String := (fleet.tracking i).pipeline.name

abbrev work (i : ι) (segment : Segment) : SegmentWork σ :=
  Processor.work (fleet.id i) (fleet.tracking i) segment

lemma id_ne {i j : ι} (h : i ≠ j) : fleet.id i ≠ fleet.id j := fun he => h (fleet.selves he)

lemma name_ne {i j : ι} (h : i ≠ j) : fleet.name i ≠ fleet.name j := fun he => h (fleet.names he)

variable [DecidableEq ι]

def hired (i : ι) (before after : System σ) : List ℕ :=
  if (before.processor (fleet.id i)).workers.isSome then []
  else (after.processor (fleet.id i)).workers.getD []

def perform (depth : ℕ) (c : Stage ι σ) : Operation ι → Option (Stage ι σ)
  | .publish bus events => do
    let (_, system) ← System.run depth (Program.publish bus events) c.system
    return { c with system }
  | .start i => do
    let (outcome, system) ← (fleet.processor i).start depth c.system
    return {
      system
      crew := Function.update c.crew i (c.crew i ++ fleet.hired i c.system system)
      seen := Function.update c.seen i (c.seen i ++ [.started outcome]) }
  | .shutDown i => do
    let (outcome, system) ← (fleet.processor i).shutDown depth c.system
    return { c with system, seen := Function.update c.seen i (c.seen i ++ [.stopped outcome]) }
  | .step i place =>
    match c.worker? i place with
    | none => return c
    | some (id, worker) =>
      if worker.finished then return c
      else if worker.mustEnd then do
        let (_, system) ← Schedule.finish id worker.work depth c.system
        return { c with system }
      else do
        let (result, _) ← worker.work.step depth c.system
        let (_, system) ← Schedule.attempt worker.work depth c.system
        let batch := (worker.work.attempt? depth c.system result).map Attempt.account
        return {
          c with
          system
          seen := Function.update c.seen i (c.seen i ++ [.stepped result batch]) }

def run (depth : ℕ) (operations : List (Operation ι)) (c : Stage ι σ) : Option (Stage ι σ) :=
  operations.foldlM (fleet.perform depth) c

inductive Performs (depth : ℕ) (c : Stage ι σ) : Operation ι → Stage ι σ → Prop
  | published {bus : BusId} {events : List EventMessage} {outcome : Outcome} {s : System σ}
      (h : System.run depth (Program.publish bus events) c.system = some (outcome, s)) :
      Performs depth c (.publish bus events) { c with system := s }
  | started {i : ι} {outcome : Outcome} {s : System σ}
      (h : (fleet.processor i).start depth c.system = some (outcome, s)) :
      Performs depth c (.start i) {
        system := s
        crew := Function.update c.crew i (c.crew i ++ fleet.hired i c.system s)
        seen := Function.update c.seen i (c.seen i ++ [.started outcome]) }
  | stopped {i : ι} {outcome : Outcome} {s : System σ}
      (h : (fleet.processor i).shutDown depth c.system = some (outcome, s)) :
      Performs depth c (.shutDown i) {
        c with
        system := s
        seen := Function.update c.seen i (c.seen i ++ [.stopped outcome]) }
  | idle {i : ι} {place : ℕ}
      (h : ∀ id worker, c.worker? i place = some (id, worker) → worker.finished = true) :
      Performs depth c (.step i place) c
  | ended {i : ι} {place id : ℕ} {worker : Worker σ} {s : System σ}
      (hw : c.worker? i place = some (id, worker)) (hf : worker.finished = false)
      (he : worker.mustEnd = true)
      (h : Schedule.finish id worker.work depth c.system = some ((), s)) :
      Performs depth c (.step i place) { c with system := s }
  | stepped {i : ι} {place id : ℕ} {worker : Worker σ} {result : Except Failure Bool}
      {processed : Bool} {middle s : System σ} (hw : c.worker? i place = some (id, worker))
      (hf : worker.finished = false) (he : worker.mustEnd = false)
      (hs : worker.work.step depth c.system = some (result, middle))
      (h : Schedule.attempt worker.work depth c.system = some (processed, s)) :
      Performs depth c (.step i place) {
        c with
        system := s
        seen := Function.update c.seen i (c.seen i ++ [.stepped result
          ((worker.work.attempt? depth c.system result).map Attempt.account)]) }

variable {fleet} {depth : ℕ} {c c' : Stage ι σ} {operation : Operation ι}

lemma performs_of_perform (h : fleet.perform depth c operation = some c') :
    fleet.Performs depth c operation c' := by
  cases operation with
  | publish bus events =>
    obtain ⟨⟨outcome, s⟩, hrun, h⟩ := Option.bind_eq_some_iff.mp h
    cases h
    exact .published hrun
  | start i =>
    obtain ⟨⟨outcome, s⟩, hrun, h⟩ := Option.bind_eq_some_iff.mp h
    cases h
    exact .started hrun
  | shutDown i =>
    obtain ⟨⟨outcome, s⟩, hrun, h⟩ := Option.bind_eq_some_iff.mp h
    cases h
    exact .stopped hrun
  | step i place =>
    cases hw : c.worker? i place with
    | none =>
      simp only [perform, hw] at h
      cases h
      exact .idle fun id worker hsome => by rw [hw] at hsome; cases hsome
    | some entry =>
      obtain ⟨id, worker⟩ := entry
      simp only [perform, hw] at h
      split at h
      · next hf =>
        cases h
        refine .idle fun other found hsome => ?_
        rw [hw] at hsome
        cases hsome
        exact hf
      · next hf =>
        split at h
        · next he =>
          obtain ⟨⟨_, s⟩, hrun, h⟩ := Option.bind_eq_some_iff.mp h
          cases h
          exact .ended hw (by simpa using hf) he hrun
        · next he =>
          obtain ⟨⟨result, middle⟩, hs, h⟩ := Option.bind_eq_some_iff.mp h
          obtain ⟨⟨processed, s⟩, hrun, h⟩ := Option.bind_eq_some_iff.mp h
          cases h
          exact .stepped hw (by simpa using hf) (by simpa using he) hs hrun

lemma perform_of_performs (h : fleet.Performs depth c operation c') :
    fleet.perform depth c operation = some c' := by
  cases h with
  | published h | started h | stopped h => simp only [perform, h]; rfl
  | @idle i place h =>
    cases hw : c.worker? i place with
    | none => simp only [perform, hw]; rfl
    | some entry => simp only [perform, hw, h _ _ hw]; rfl
  | ended hw hf he h => simp only [perform, hw, hf, he, h]; rfl
  | stepped hw hf he hs h => simp only [perform, hw, hf, he, hs, h]; rfl

lemma run_cons (operations : List (Operation ι)) :
    fleet.run depth (operation :: operations) c =
      (fleet.perform depth c operation).bind (fleet.run depth operations) := List.foldlM_cons

end Fleet

end EventProcessing
