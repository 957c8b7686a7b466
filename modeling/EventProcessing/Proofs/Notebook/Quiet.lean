import EventProcessing.Proofs.Notebook

/-! The notebook changes nothing: a quiet program does in the system with a notebook what the
program does in the plain one, and a loud copy does the same but for its notes. -/

namespace EventProcessing

variable {σ κ α β γ δ : Type}

lemma Subscriber.isConsumer_quiet (subscriber : Subscriber σ) :
    subscriber.quiet.isConsumer = subscriber.isConsumer := by
  cases subscriber <;> rfl

namespace System

variable (notes : List Note) (s : System σ)

lemma bus_quiet (id : BusId) : (s.quiet notes).bus id = (s.bus id).quiet := by
  simp only [bus, quiet, Table.get?_mapValues]
  cases s.buses.get? id <;> rfl

lemma setBus_quiet (id : BusId) (bus : Bus (Subscriber σ)) :
    (s.setBus id bus).quiet notes = (s.quiet notes).setBus id bus.quiet := by
  simp [setBus, quiet, Table.mapValues_put]

lemma view_quiet (id : BusId) : (s.quiet notes).view id = s.view id := by
  simp [view, bus_quiet, Bus.quiet]

lemma chain_quiet (id : ℕ) :
    ((s.quiet notes).processor id).chain = (s.processor id).chain.map Interceptor.quiet := by
  simp only [processor, quiet, Table.get?_mapValues]
  cases s.processors.get? id <;> rfl

end System

def Faithful (σ : Type) (depth : ℕ) : Prop :=
  ∀ (subscriber : Subscriber σ) (events : List EventMessage) (s : System σ) (outcome : Outcome)
    (s' : System σ) (notes : List Note),
    System.deliver depth subscriber events s = some (outcome, s') →
      System.deliver depth subscriber.quiet events (s.quiet notes) =
        some (outcome, s'.quiet notes)

section Quiet

variable {depth : ℕ} (hf : Faithful σ depth) (notes : List Note) {s s' : System σ}

include hf

lemma deliverAll_quiet {events : List EventMessage} {subscribers : List (Subscriber σ)}
    {outcome : Outcome}
    (h : System.deliverAll (System.deliver depth) events subscribers s = some (outcome, s')) :
    System.deliverAll (System.deliver depth) events (subscribers.map Subscriber.quiet)
      (s.quiet notes) = some (outcome, s'.quiet notes) := by
  induction subscribers generalizing s with
  | nil =>
    cases h
    rfl
  | cons subscriber rest ih =>
    obtain ⟨⟨first, middle⟩, hfirst, hrest⟩ := Option.bind_eq_some_iff.mp h
    simp only [List.map_cons, System.deliverAll, hf _ _ _ _ _ notes hfirst]
    cases first with
    | error failure =>
      cases hrest
      rfl
    | ok _ => exact ih hrest

lemma publish_quiet {id : BusId} {events : List EventMessage} {outcome : Outcome}
    (h : s.publish (System.deliver depth) id events = some (outcome, s')) :
    (s.quiet notes).publish (System.deliver depth) id events =
      some (outcome, s'.quiet notes) := by
  unfold System.publish at h ⊢
  split at h
  · next he =>
    cases h
    rw [if_pos he]
  · next he =>
    have hb : (s.quiet notes).setBus id (((s.quiet notes).bus id).append events) =
        (s.setBus id ((s.bus id).append events)).quiet notes := by
      rw [System.setBus_quiet, System.bus_quiet]
      rfl
    have hs : ((s.quiet notes).bus id).subscribers =
        (s.bus id).subscribers.map Subscriber.quiet := by
      simp [System.bus_quiet, Bus.quiet, Bus.subscribers]
    rw [if_neg he]
    dsimp only
    rw [hb, hs]
    exact deliverAll_quiet hf notes h

lemma execute_quietly {request : Request σ} {reply : request.Reply}
    (h : s.answer (System.deliver depth) request = some (reply, s'))
    (next : request.Reply → Program (Noted σ) α) :
    System.execute (System.deliver depth) (request.quietly next) (s.quiet notes) =
      System.execute (System.deliver depth) (next reply) (s'.quiet notes) := by
  cases request with
  | get | set | fresh | trace | count =>
    cases h
    rfl
  | view id =>
    cases h
    simp only [Request.quietly, System.execute, System.answer, System.view_quiet]
    rfl
  | cancel id subscription =>
    cases h
    have hc : (s.quiet notes).withdraw id subscription =
        (s.withdraw id subscription).quiet notes := by
      simp only [System.withdraw, System.setBus_quiet, System.bus_quiet]
      simp [Bus.quiet, Bus.withdraw, List.filter_map, Function.comp_def,
        Subscriber.isConsumer_quiet]
    simp only [Request.quietly, System.execute, System.answer, hc]
    rfl
  | publish id events =>
    simp only [Request.quietly, System.execute, System.answer, publish_quiet hf notes h]
    rfl

lemma run_quiet {program : Program σ α} {value : α}
    (h : System.run depth program s = some (value, s')) :
    System.run depth program.quiet (s.quiet notes) = some (value, s'.quiet notes) := by
  unfold System.run at h ⊢
  induction program generalizing s with
  | done _ =>
    cases h
    rfl
  | ask request next ih =>
    obtain ⟨⟨reply, middle⟩, ha, hn⟩ := Option.bind_eq_some_iff.mp h
    rw [ProgramOver.quiet, execute_quietly hf notes ha]
    exact ih _ hn
  | subscribe id consumer next ih =>
    have hs : (s.quiet notes).subscribe id (.consumer consumer.quiet) =
        ((s.subscribe id (.consumer consumer)).1,
          (s.subscribe id (.consumer consumer)).2.quiet notes) := by
      simp only [System.subscribe, System.setBus_quiet, System.bus_quiet]
      simp [Bus.quiet, Bus.subscribe, Subscriber.quiet]
    simp only [ProgramOver.quiet, System.execute, hs]
    exact ih _ h

end Quiet

end EventProcessing
