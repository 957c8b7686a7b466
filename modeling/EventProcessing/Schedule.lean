import EventProcessing.Processor.Tracking

/-!
The schedule of workers on a virtual clock. Workers that are ready stand in line and take turns in
rounds, one step each; a worker that finds nothing to read or fails idles for its poll interval, and
time passes only while all are idle. A wait that is over at once lets nobody else run, unless there
have been too many of them in a row.
-/

namespace EventProcessing

variable {σ : Type}

namespace Schedule

def updateWorker (id : Nat) (f : Worker σ → Worker σ) : Run σ Unit :=
  Run.update fun system =>
    match system.workers.get? id with
    | some worker => { system with workers := system.workers.put id (f worker) }
    | none => system

def finish (id : Nat) (work : SegmentWork σ) : Run σ Unit := do
  updateWorker id fun worker => { worker with finished := true }
  Run.trace (.event .debug "segment worker stopped" work.label)

def goIdle (id : Nat) (worker : Worker σ) : Run σ Unit := do
  if worker.abandoned then finish id worker.work
  else
    updateWorker id fun worker => { worker with idling := true }
    Run.update fun system =>
      { system with idle := system.idle ++ [(system.now + worker.work.pollInterval, id)] }

def attempt (work : SegmentWork σ) : Run σ Bool := do
  match ← work.step with
  | .ok processed => return processed
  | .error failure =>
    Run.trace (.event .warn "batch failed; retrying after poll interval"
      (work.label ++ [("error", failure.message)]))
    return false

def attempts (work : SegmentWork σ) : Nat → Run σ Bool
  | 0 => attempt work
  | waits + 1 => do
    if ← attempt work then return true
    else attempts work waits

/-- The turn of a worker that polls without an interval: it goes on in any case. A wait that was
left over from the turn before counts. -/
def restlessTurn (id : Nat) (worker : Worker σ) : Run σ Bool := do
  let waits := if worker.idling then patience - 1 else patience
  unless ← attempts worker.work waits do
    updateWorker id fun worker => { worker with idling := true }
  return true

def turn (id : Nat) : Run σ Bool := do
  match (← Run.system).workers.get? id with
  | none => return false
  | some worker =>
    unless worker.started do
      Run.trace (.event .debug "segment worker started" worker.work.label)
    updateWorker id fun worker => { worker with started := true, idling := false }
    if worker.mustEnd then
      finish id worker.work
      return false
    else if worker.work.pollInterval = 0 then restlessTurn id worker
    else if ← attempt worker.work then return true
    else
      goIdle id worker
      return false

def turnsPerRound : Nat := 61

/-- The first workers in line have one turn each. Those that go on line up behind the others, the
last of them first. -/
def round : Run σ Unit := do
  let ready := (← Run.system).ready
  Run.update fun system => { system with ready := ready.drop turnsPerRound }
  let goingOn ← (ready.take turnsPerRound).filterM turn
  Run.update fun system => { system with ready := system.ready ++ goingOn.reverse }

def endWait : Run σ Unit := Run.update fun system => { system with waitsLeft := patience - 1 }

def passWait : Run σ Unit := do
  match (← Run.system).waitsLeft with
  | 0 =>
    round
    endWait
  | waits + 1 => Run.update fun system => { system with waitsLeft := waits }

def roundsUntil (done : System σ → Bool) : Nat → Run σ Unit
  | 0 => failure
  | fuel + 1 => do
    if done (← Run.system) then return ()
    else
      round
      roundsUntil done fuel

def settle (fuel : Nat) : Run σ Unit := roundsUntil (fun system => system.ready.isEmpty) fuel

def passTo (instant : Nat) (system : System σ) : System σ :=
  let due := system.idle.filter fun entry => entry.1 ≤ instant
  { system with
    now := max system.now instant
    idle := system.idle.filter fun entry => !(entry.1 ≤ instant)
    ready := system.ready ++ due.map Prod.snd }

def nextDeadline? (system : System σ) : Option Nat := (system.idle.map Prod.fst).min?

def runUntil (instant fuel : Nat) : Nat → Run σ Unit
  | 0 => failure
  | jumps + 1 => do
    settle fuel
    match nextDeadline? (← Run.system) with
    | some deadline =>
      if deadline ≤ instant then
        Run.update (passTo deadline)
        runUntil instant fuel jumps
      else Run.update fun system => { system with now := max system.now instant }
    | none => Run.update fun system => { system with now := max system.now instant }

def runFor (milliseconds fuel : Nat) : Run σ Unit := do
  if milliseconds = 0 then passWait
  else
    runUntil ((← Run.system).now + milliseconds) fuel fuel
    endWait

def awaitWorker (fuel id : Nat) : Run σ Unit := do
  if Processor.isFinished (← Run.system) id then passWait
  else
    roundsUntil (fun system => Processor.isFinished system id) fuel
    endWait

def awaitTermination (processor : Processor σ) (fuel : Nat) : Run σ Unit := do
  (← processor.takeStopping).forM (awaitWorker fuel)

end Schedule

end EventProcessing
