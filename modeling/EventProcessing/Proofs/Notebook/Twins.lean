import EventProcessing.Proofs.Notebook.Batch
import EventProcessing.Proofs.ProgramLogic

/-! Collaborators that keep to a part of the shared state. Two systems that agree on the part look
the same to them, and so does what is noted of their batches. -/

namespace EventProcessing

variable {σ α ι : Type} {τ : ι → Type}

section Parts

variable (part : (i : ι) → σ → τ i) (i : ι)

/-- To those who see the `i`-th part and the buses, the two systems are the same. -/
structure Same (s r : System σ) : Prop where
  part : part i s.shared = part i r.shared
  buses : ∀ bus, s.bus bus = r.bus bus

structure Separate (s s' : System σ) : Prop where
  parts : ∀ j, j ≠ i → part j s'.shared = part j s.shared
  buses : ∀ bus, s'.bus bus = s.bus bus

/-- Programs that come to an end, depend on the `i`-th part only and change nothing else; they may
look at the buses. -/
def ProgramLogic.own : ProgramLogic σ where
  Holds program P := ∀ depth s r, Same part i s r → ∃ a s' r',
    System.run depth program s = some (a, s') ∧ System.run depth program r = some (a, r') ∧
    Same part i s' r' ∧ Separate part i s s' ∧ P a
  pure h _ s r hsame := ⟨_, s, r, rfl, rfl, hsame, ⟨fun _ _ => rfl, fun _ => rfl⟩, h⟩
  bind hp hn depth s r hsame := by
    obtain ⟨a, s', r', hs, hr, hsame', hseparate, ha⟩ := hp depth s r hsame
    obtain ⟨b, s'', r'', hs', hr', hsame'', hseparate', hb⟩ := hn a ha depth s' r' hsame'
    refine ⟨b, s'', r'', System.run_bind_eq_some.mpr ⟨a, s', hs, hs'⟩,
      System.run_bind_eq_some.mpr ⟨a, r', hr, hr'⟩, hsame'', ⟨fun j hj => ?_, fun bus => ?_⟩, hb⟩
    · rw [hseparate'.parts j hj, hseparate.parts j hj]
    · rw [hseparate'.buses, hseparate.buses]
  trace line _ s r hsame := ⟨(), s.addTrace line, r.addTrace line, rfl, rfl,
    ⟨hsame.part, hsame.buses⟩, ⟨fun _ _ => rfl, fun _ => rfl⟩, trivial⟩

def ProgramLogic.noting : ProgramLogic (Noted σ) where
  Holds program P := ∀ depth s r notes, Same part i s r → ∃ a s' r' notes',
    System.run depth program (s.quiet notes) = some (a, s'.quiet notes') ∧
    System.run depth program (r.quiet notes) = some (a, r'.quiet notes') ∧ Same part i s' r' ∧ P a
  pure h _ s r notes hsame := ⟨_, s, r, notes, rfl, rfl, hsame, h⟩
  bind hp hn depth s r notes hsame := by
    obtain ⟨a, s', r', notes', hs, hr, hsame', ha⟩ := hp depth s r notes hsame
    obtain ⟨b, s'', r'', notes'', hs', hr', hsame'', hb⟩ := hn a ha depth s' r' notes' hsame'
    exact ⟨b, s'', r'', notes'', System.run_bind_eq_some.mpr ⟨a, _, hs, hs'⟩,
      System.run_bind_eq_some.mpr ⟨a, _, hr, hr'⟩, hsame'', hb⟩
  trace line _ s r notes hsame := ⟨(), s.addTrace line, r.addTrace line, notes, rfl, rfl,
    ⟨hsame.part, hsame.buses⟩, trivial⟩

end Parts

section Copies

variable {part : (i : ι) → σ → τ i} {i : ι}

lemma noting_quiet {program : Program σ α} {P : α → Prop}
    (h : (ProgramLogic.own part i).Holds program P) :
    (ProgramLogic.noting part i).Holds program.quiet P := by
  intro depth s r notes hsame
  obtain ⟨a, s', r', hs, hr, hsame', -, ha⟩ := h depth s r hsame
  exact ⟨a, s', r', notes, run_quiet (faithful depth) notes hs,
    run_quiet (faithful depth) notes hr, hsame', ha⟩

lemma noting_note (entry : Note) :
    (ProgramLogic.noting part i).Runs (note true entry) :=
  fun _ s r notes hsame => ⟨(), s, r, notes ++ [entry], rfl, rfl, hsame, trivial⟩

lemma noting_get_bind (next : List Note → Program (Noted σ) α) {P : α → Prop}
    (h : ∀ notes, (ProgramLogic.noting part i).Holds (next notes) P) :
    (ProgramLogic.noting part i).Holds
      (Program.get >>= fun noted => next noted.notes) P :=
  fun depth s r notes hsame => h notes depth s r notes hsame

lemma noting_after {entry : Note} {program : Program σ α}
    (h : (ProgramLogic.own part i).Runs program) :
    (ProgramLogic.noting part i).Runs (do note true entry; program.quiet) :=
  ProgramLogic.runs_bind (noting_note entry) fun _ => noting_quiet h

lemma noting_before {entry : α → Note} {program : Program σ α}
    (h : (ProgramLogic.own part i).Runs program) :
    (ProgramLogic.noting part i).Runs (do
      let a ← program.quiet
      note true (entry a)
      return a) :=
  ProgramLogic.runs_bind (noting_quiet h) fun a =>
    ProgramLogic.runs_bind (noting_note (entry a)) fun _ => ProgramLogic.runs_pure a

lemma MonitorCallback.Obeys.copy {callback : MonitorCallback σ}
    (h : callback.Obeys (.own part i)) (ingestion : ℕ) :
    (callback.copy true ingestion).Obeys (.noting part i) :=
  ⟨noting_after h.success, fun failure => noting_after (h.failure failure),
    noting_after h.ignored⟩

lemma Interceptor.Obeys.quiet {interceptor : Interceptor σ}
    (h : interceptor.Obeys (.own part i)) :
    interceptor.quiet.Obeys (.noting part i) := by
  intro unit
  apply ProgramLogic.bind _ (noting_quiet (h unit))
  intro interception hi
  apply ProgramLogic.pure
  cases interception with
  | stop outcome => trivial
  | proceed data leave => exact fun unit outcome => noting_quiet (hi unit outcome)

lemma gatekeeper_obeys :
    (Interceptor.gatekeeper true : Interceptor (Noted σ)).Obeys (.noting part i) := by
  intro unit
  apply ProgramLogic.bind _ (noting_note _)
  intro _ _
  apply ProgramLogic.pure
  exact fun unit outcome => ProgramLogic.runs_bind (noting_note _) fun _ =>
    ProgramLogic.runs_pure outcome

lemma Transaction.Obeys.copy {transaction : Transaction σ}
    (h : transaction.Obeys (.own part i)) :
    (transaction.copy true).Obeys (.noting part i) := by
  refine ⟨noting_before h.commit, ?_⟩
  exact ProgramLogic.runs_bind (noting_quiet h.rollback) fun _ => noting_note _

lemma mem_copies {path : List ℕ} {place : ℕ} {handlers : List (EventHandler σ)}
    {copied : EventHandler (Noted σ)} (h : copied ∈ EventHandler.copies true path place handlers) :
    ∃ (n : ℕ) (handler : EventHandler σ), handlers[n]? = some handler ∧
      copied = handler.copy true path (place + n) := by
  induction handlers generalizing place with
  | nil => cases h
  | cons handler rest ih =>
    rcases List.mem_cons.mp h with rfl | h
    · exact ⟨0, handler, rfl, rfl⟩
    · obtain ⟨n, other, hn, rfl⟩ := ih h
      exact ⟨n + 1, other, hn, by rw [Nat.add_assoc, Nat.add_comm 1]⟩

lemma HandlerGroup.Obeys.copy {group : HandlerGroup σ} (h : group.Obeys (.own part i))
    (path : List ℕ) : (group.copy true path).Obeys (.noting part i) := by
  constructor
  · intro copy hm event unit
    obtain ⟨n, handler, hn, rfl⟩ := mem_copies hm
    exact noting_after (h.handle handler (List.mem_of_getElem? hn) event unit)
  · intro copy hm failure event
    obtain ⟨n, handler, hn, rfl⟩ := mem_copies hm
    rw [Nat.zero_add]
    change (ProgramLogic.noting part i).Runs ((group.errorHandler.quiet group.handlers).onError
      failure event (handler.copy true path n))
    rw [onError_quiet true group.errorHandler group.handlers path hn]
    exact noting_quiet (h.onError handler (List.mem_of_getElem? hn) failure event)

mutual

lemma Invoker.Obeys.copy : ∀ (path : List ℕ) (invoker : Invoker σ),
    invoker.Obeys (.own part i) → (invoker.copy true path).Obeys (.noting part i)
  | path, .group _, h => HandlerGroup.Obeys.copy h path
  | _, .manager _, h => fun event unit segment => noting_quiet (h event unit segment)
  | path, .all invokers, h => Invoker.AllObey.copy path 0 invokers h

lemma Invoker.AllObey.copy : ∀ (path : List ℕ) (place : ℕ) (invokers : List (Invoker σ)),
    Invoker.AllObey (.own part i) invokers →
      Invoker.AllObey (.noting part i) (Invoker.copyAll true path place invokers)
  | _, _, [], _ => trivial
  | path, place, invoker :: rest, h =>
    ⟨Invoker.Obeys.copy (path ++ [place]) invoker h.1,
      Invoker.AllObey.copy path (place + 1) rest h.2⟩

end

variable {pipeline : Pipeline σ} {chain : List (Interceptor σ)}

lemma Pipeline.Within.copy (h : pipeline.Within (.own part i)) :
    (pipeline.copy true).Within (.noting part i) where
  start := by
    apply ProgramLogic.bind _ (noting_note _)
    intro _ _
    apply ProgramLogic.bind _ (noting_quiet h.start)
    exact fun transaction ht => ProgramLogic.pure _ ht.copy
  ingest event := by
    refine noting_get_bind (fun notes => do
      note true (.ingested event)
      return (← (pipeline.monitor.ingest event).quiet).copy true (ingestions notes).length)
      fun notes => ?_
    apply ProgramLogic.bind _ (noting_note _)
    intro _ _
    apply ProgramLogic.bind _ (noting_quiet (h.ingest event))
    exact fun callback hc => ProgramLogic.pure _ (hc.copy _)
  invoker := Invoker.Obeys.copy [] _ h.invoker
  weigh failure := noting_before (h.weigh failure)
  consult batch := noting_before (h.consult batch)

theorem Pipeline.Within.watched (h : pipeline.Within (.own part i))
    (hc : ∀ interceptor ∈ chain, interceptor.Obeys (.own part i))
    (events : List EventMessage) (segment : Segment) :
    (ProgramLogic.noting part i).Runs (pipeline.watched chain events segment) := by
  refine (h.copy.obeys ?_ segment).processBatch events
  intro interceptor hm
  rcases List.mem_cons.mp hm with rfl | hm
  · exact gatekeeper_obeys
  · obtain ⟨original, ho, rfl⟩ := List.mem_map.mp hm
    exact (hc original ho).quiet

end Copies

end EventProcessing
