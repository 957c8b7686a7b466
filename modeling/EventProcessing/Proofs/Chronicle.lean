import EventProcessing.Proofs.Execution
import EventProcessing.Proofs.Scripts

/-! What happens at the buses while programs run, moment by moment, deliveries inside deliveries
included. Every run has a chronicle, and what is kept along the way holds of all chronicles. -/

namespace EventProcessing

variable {σ α : Type}

/-- A batch on its way to one subscription. `first` events were logged before it. -/
structure Handover (σ : Type) where
  bus : BusId
  first : ℕ
  events : List EventMessage
  number : ℕ
  subscriber : Subscriber σ

/-- A publish goes by its bus and the number of events that were logged before it. -/
inductive Incident (σ : Type) where
  | aside
  | subscribed (bus : BusId) (number : ℕ)
  | cancelled (bus : BusId) (number : ℕ)
  | published (bus : BusId) (first : ℕ) (events : List EventMessage)
  | handed (handover : Handover σ)
  | called (handover : Handover σ) (call : Call)
  | answered (handover : Handover σ) (outcome : Outcome)
  | settled (bus : BusId) (first : ℕ) (outcome : Outcome)

namespace Incident

def publish? : Incident σ → Option (BusId × ℕ)
  | .aside | .subscribed _ _ | .cancelled _ _ => none
  | .published bus first _ | .settled bus first _ => some (bus, first)
  | .handed h | .called h _ | .answered h _ => some (h.bus, h.first)

end Incident

structure Moment (σ : Type) where
  incident : Incident σ
  system : System σ

namespace System

def logged (s : System σ) (bus : BusId) (events : List EventMessage) : System σ :=
  s.setBus bus ((s.bus bus).append events)

def script (s : System σ) (h : Handover σ) : Script σ Outcome :=
  match h.subscriber with
  | .consumer consumer => .ofProgram (consumer.react h.events)
  | .processor id pipeline => pipeline.script (s.processor id).chain .root h.first h.events

lemma erase_script (s : System σ) (h : Handover σ) :
    (s.script h).erase = s.reaction h.events h.subscriber := by
  obtain ⟨bus, first, events, number, subscriber⟩ := h
  cases subscriber with
  | consumer consumer => exact Script.erase_ofProgram _
  | processor id pipeline => exact Pipeline.erase_script _ _ _ _ _

end System

namespace Request

def Plain : Request σ → Prop
  | .publish _ events => events = []
  | _ => True

def incident : Request σ → Incident σ
  | .cancel bus subscription => .cancelled bus subscription
  | _ => .aside

lemma publish?_incident (request : Request σ) : request.incident.publish? = none := by
  cases request <;> rfl

end Request

abbrev Delivering (σ : Type) :=
  Handover σ → System σ → Outcome → System σ → List (Moment σ) → Prop

def Handover.moments (h : Handover σ) (s : System σ) (outcome : Outcome) (s' : System σ)
    (during : List (Moment σ)) : List (Moment σ) :=
  ⟨.handed h, s⟩ :: (during ++ [⟨.answered h outcome, s'⟩])

inductive Hands (D : Delivering σ) (bus : BusId) (first : ℕ) (events : List EventMessage) :
    List (ℕ × Subscriber σ) → System σ → Outcome → System σ → List (Moment σ) → Prop
  | done {s : System σ} : Hands D bus first events [] s (.ok ()) s []
  | failed {number : ℕ} {subscriber : Subscriber σ} {rest : List (ℕ × Subscriber σ)}
      {s s' : System σ} {failure : Failure} {during : List (Moment σ)}
      (h : D ⟨bus, first, events, number, subscriber⟩ s (.error failure) s' during) :
      Hands D bus first events ((number, subscriber) :: rest) s (.error failure) s'
        (Handover.moments ⟨bus, first, events, number, subscriber⟩ s (.error failure) s' during)
  | next {number : ℕ} {subscriber : Subscriber σ} {rest : List (ℕ × Subscriber σ)}
      {s s₁ s' : System σ} {outcome : Outcome} {during after : List (Moment σ)}
      (h : D ⟨bus, first, events, number, subscriber⟩ s (.ok ()) s₁ during)
      (hr : Hands D bus first events rest s₁ outcome s' after) :
      Hands D bus first events ((number, subscriber) :: rest) s outcome s'
        (Handover.moments ⟨bus, first, events, number, subscriber⟩ s (.ok ()) s₁ during ++ after)

def publishing (bus : BusId) (first : ℕ) (events : List EventMessage) (s : System σ)
    (body : List (Moment σ)) (outcome : Outcome) (s' : System σ) : List (Moment σ) :=
  ⟨.published bus first events, s⟩ :: (body ++ [⟨.settled bus first outcome, s'⟩])

inductive Answers (D : Delivering σ) :
    (request : Request σ) → System σ → request.Reply → System σ → List (Moment σ) → Prop
  | plain {request : Request σ} {reply : request.Reply} {s s' : System σ} (hp : request.Plain)
      (h : s.answer (fun _ _ _ => none) request = some (reply, s')) :
      Answers D request s reply s' [⟨request.incident, s'⟩]
  | publish {bus : BusId} {events : List EventMessage} {s s' : System σ} {outcome : Outcome}
      {body : List (Moment σ)} (hne : events ≠ [])
      (h : Hands D bus (s.bus bus).log.length events (s.bus bus).subscriptions
        (s.logged bus events) outcome s' body) :
      Answers D (.publish bus events) s outcome s'
        (publishing bus (s.bus bus).log.length events (s.logged bus events) body outcome s')

/-- A script runs, with all its moments. Marks are those of the hand-over `own`. -/
inductive Executes (D : Delivering σ) (own : Option (Handover σ)) :
    Script σ α → System σ → α → System σ → List (Moment σ) → Prop
  | done {value : α} {s : System σ} : Executes D own (.done value) s value s []
  | ask {request : Request σ} {next : request.Reply → Script σ α} {reply : request.Reply}
      {s s₁ s' : System σ} {value : α} {xs ys : List (Moment σ)}
      (h : Answers D request s reply s₁ xs) (hn : Executes D own (next reply) s₁ value s' ys) :
      Executes D own (.ask request next) s value s' (xs ++ ys)
  | subscribe {bus : BusId} {consumer : Consumer σ} {next : ℕ → Script σ α} {s s' : System σ}
      {value : α} {ys : List (Moment σ)}
      (hn : Executes D own (next (s.bus bus).nextSubscription)
        (s.subscribe bus (.consumer consumer)).2 value s' ys) :
      Executes D own (.subscribe bus consumer next) s value s'
        ([⟨.subscribed bus (s.bus bus).nextSubscription,
          (s.subscribe bus (.consumer consumer)).2⟩] ++ ys)
  | mark {call : Call} {next : Script σ α} {s s' : System σ} {value : α} {ys : List (Moment σ)}
      (hn : Executes D own next s value s' ys) :
      Executes D own (.mark call next) s value s' ([⟨own.elim .aside (.called · call), s⟩] ++ ys)

def Delivers : ℕ → Delivering σ
  | 0 => fun _ _ _ _ _ => False
  | depth + 1 => fun h s outcome s' moments =>
    Executes (Delivers depth) (some h) (s.script h) s outcome s' moments

def Chronicled (D : Delivering σ) (deliver : System.Delivery σ) : Prop :=
  ∀ (h : Handover σ) (s : System σ) (outcome : Outcome) (s' : System σ),
    deliver h.subscriber h.events s = some (outcome, s') ↔ ∃ during, D h s outcome s' during

namespace Chronicled

variable {D : Delivering σ} {deliver : System.Delivery σ} (hd : Chronicled D deliver)
  {s s' : System σ}

include hd

lemma deliverAll_iff {bus : BusId} {first : ℕ} {events : List EventMessage}
    {subscriptions : List (ℕ × Subscriber σ)} {outcome : Outcome} :
    System.deliverAll deliver events (subscriptions.map Prod.snd) s = some (outcome, s') ↔
      ∃ body, Hands D bus first events subscriptions s outcome s' body := by
  induction subscriptions generalizing s with
  | nil =>
    constructor
    · intro h
      cases h
      exact ⟨[], .done⟩
    · rintro ⟨_, h⟩
      cases h
      rfl
  | cons entry rest ih =>
    obtain ⟨number, subscriber⟩ := entry
    have hone := fun outcome s₁ => hd ⟨bus, first, events, number, subscriber⟩ s outcome s₁
    constructor
    · intro h
      obtain ⟨⟨answer, s₁⟩, ha, hr⟩ := Option.bind_eq_some_iff.mp h
      obtain ⟨during, hduring⟩ := (hone answer s₁).mp ha
      cases answer with
      | error failure =>
        cases hr
        exact ⟨_, .failed hduring⟩
      | ok _ =>
        obtain ⟨after, hafter⟩ := ih.mp hr
        exact ⟨_, .next hduring hafter⟩
    · rintro ⟨_, h⟩
      cases h with
      | failed h => exact Option.bind_eq_some_iff.mpr ⟨_, (hone _ _).mpr ⟨_, h⟩, rfl⟩
      | next h hr =>
        exact Option.bind_eq_some_iff.mpr ⟨_, (hone _ _).mpr ⟨_, h⟩, ih.mpr ⟨_, hr⟩⟩

omit hd in
lemma answer_of_plain {request : Request σ} (hp : request.Plain) :
    s.answer deliver request = s.answer (fun _ _ _ => none) request := by
  cases request with
  | publish bus events =>
    obtain rfl : events = [] := hp
    rfl
  | get | set | fresh | trace | count | view | cancel => rfl

lemma publish_iff {bus : BusId} {events : List EventMessage} (hne : events ≠ [])
    {outcome : Outcome} : s.publish deliver bus events = some (outcome, s') ↔
      ∃ body, Hands D bus (s.bus bus).log.length events (s.bus bus).subscriptions
        (s.logged bus events) outcome s' body := by
  unfold System.publish
  rw [if_neg (by simpa using hne)]
  exact hd.deliverAll_iff

lemma answer_iff {request : Request σ} {reply : request.Reply} :
    s.answer deliver request = some (reply, s') ↔ ∃ xs, Answers D request s reply s' xs := by
  constructor
  · intro h
    by_cases hp : request.Plain
    · exact ⟨_, .plain hp (by rwa [← answer_of_plain hp])⟩
    · cases request with
      | publish bus events =>
        obtain ⟨body, hbody⟩ := (hd.publish_iff hp).mp h
        exact ⟨_, .publish hp hbody⟩
      | get | set | fresh | trace | count | view | cancel => exact absurd trivial hp
  · rintro ⟨_, h⟩
    cases h with
    | plain hp h => rwa [answer_of_plain hp]
    | publish hne h => exact (hd.publish_iff hne).mpr ⟨_, h⟩

lemma execute_iff (own : Option (Handover σ)) {script : Script σ α} {value : α} :
    System.execute deliver script.erase s = some (value, s') ↔
      ∃ moments, Executes D own script s value s' moments := by
  induction script generalizing s with
  | done a =>
    constructor
    · intro h
      cases h
      exact ⟨[], .done⟩
    · rintro ⟨_, h⟩
      cases h
      rfl
  | ask request next ih =>
    constructor
    · intro h
      obtain ⟨⟨reply, s₁⟩, ha, hn⟩ := Option.bind_eq_some_iff.mp h
      obtain ⟨xs, hxs⟩ := hd.answer_iff.mp ha
      obtain ⟨ys, hys⟩ := (ih reply).mp hn
      exact ⟨_, .ask hxs hys⟩
    · rintro ⟨_, h⟩
      cases h with
      | ask h hn =>
        exact Option.bind_eq_some_iff.mpr ⟨_, hd.answer_iff.mpr ⟨_, h⟩, (ih _).mpr ⟨_, hn⟩⟩
  | subscribe bus consumer next ih =>
    constructor
    · intro h
      obtain ⟨ys, hys⟩ := (ih _).mp h
      exact ⟨_, .subscribe hys⟩
    · rintro ⟨_, h⟩
      cases h with
      | subscribe hn => exact (ih _).mpr ⟨_, hn⟩
  | mark call next ih =>
    constructor
    · intro h
      obtain ⟨ys, hys⟩ := ih.mp h
      exact ⟨_, .mark hys⟩
    · rintro ⟨_, h⟩
      cases h with
      | mark hn => exact ih.mpr ⟨_, hn⟩

end Chronicled

lemma chronicled_delivers (depth : ℕ) :
    Chronicled (Delivers (σ := σ) depth) (System.deliver depth) := by
  induction depth with
  | zero =>
    intro h s outcome s'
    exact ⟨fun hn => (nomatch hn), fun ⟨_, hn⟩ => hn.elim⟩
  | succ depth ih =>
    intro h s outcome s'
    rw [System.deliver, ← System.erase_script]
    exact ih.execute_iff (some h)

theorem run_iff_executes {depth : ℕ} {program : Program σ α} {s s' : System σ} {value : α} :
    System.run depth program s = some (value, s') ↔
      ∃ moments, Executes (Delivers depth) none (.ofProgram program) s value s' moments := by
  rw [← (chronicled_delivers depth).execute_iff none, Script.erase_ofProgram]
  rfl

/-- The moments of a system in use: programs run in it one after the other, and processors subscribe
and cancel. What else is done to it leaves the buses alone. -/
inductive History (s₀ : System σ) : List (Moment σ) → System σ → Prop
  | start : History s₀ [] s₀
  | program {moments more : List (Moment σ)} {s s' : System σ} {α : Type} {depth : ℕ}
      {program : Program σ α} {value : α} (h : History s₀ moments s)
      (hp : Executes (Delivers depth) none (.ofProgram program) s value s' more) :
      History s₀ (moments ++ more) s'
  | subscribe {moments : List (Moment σ)} {s : System σ} (h : History s₀ moments s) (bus : BusId)
      (subscriber : Subscriber σ) :
      History s₀ (moments ++ [⟨.subscribed bus (s.bus bus).nextSubscription,
        (s.subscribe bus subscriber).2⟩]) (s.subscribe bus subscriber).2
  | cancel {moments : List (Moment σ)} {s : System σ} (h : History s₀ moments s) (bus : BusId)
      (number : ℕ) :
      History s₀ (moments ++ [⟨.cancelled bus number, s.cancel bus number⟩]) (s.cancel bus number)
  | aside {moments : List (Moment σ)} {s s' : System σ} (h : History s₀ moments s)
      (hb : s'.buses = s.buses) : History s₀ (moments ++ [⟨.aside, s'⟩]) s'

inductive Turns (s : System σ) : Incident σ → System σ → Prop
  | aside {s' : System σ} (hb : s'.buses = s.buses) : Turns s .aside s'
  | subscribed (bus : BusId) (subscriber : Subscriber σ) :
      Turns s (.subscribed bus (s.bus bus).nextSubscription) (s.subscribe bus subscriber).2
  | withdrawn (bus : BusId) (number : ℕ) :
      Turns s (.cancelled bus number) (s.withdraw bus number)
  | cancelled (bus : BusId) (number : ℕ) : Turns s (.cancelled bus number) (s.cancel bus number)
  | published (bus : BusId) {events : List EventMessage} (hne : events ≠ []) :
      Turns s (.published bus (s.bus bus).log.length events) (s.logged bus events)
  | handed (h : Handover σ) : Turns s (.handed h) s
  | called (h : Handover σ) (call : Call) : Turns s (.called h call) s
  | answered (h : Handover σ) (outcome : Outcome) : Turns s (.answered h outcome) s
  | settled (bus : BusId) (first : ℕ) (outcome : Outcome) : Turns s (.settled bus first outcome) s

lemma turns_of_answer {request : Request σ} {reply : request.Reply} {s s' : System σ}
    (hp : request.Plain) (h : s.answer (fun _ _ _ => none) request = some (reply, s')) :
    Turns s request.incident s' := by
  cases request with
  | cancel bus subscription =>
    cases h
    exact .withdrawn bus subscription
  | publish bus events =>
    obtain rfl : events = [] := hp
    cases h
    exact .aside rfl
  | get | set | fresh | trace | count | view =>
    cases h
    exact .aside rfl

def Incident.batch (bus : BusId) : Incident σ → List EventMessage
  | .published other _ events => if other = bus then events else []
  | _ => []

lemma Turns.log_eq {s s' : System σ} {incident : Incident σ} (h : Turns s incident s')
    (bus : BusId) : (s'.bus bus).log = (s.bus bus).log ++
      Bus.entriesFrom (s.bus bus).log.length (incident.batch bus) := by
  have hsame : ∀ (other : BusId) (changed : Bus (Subscriber σ)),
      changed.log = (s.bus other).log →
        ((s.setBus other changed).bus bus).log = (s.bus bus).log ++ [] := by
    intro other changed hc
    rw [List.append_nil]
    by_cases ho : bus = other
    · rw [ho, System.bus_setBus_self, hc]
    · rw [System.bus_setBus_of_ne _ _ ho]
  cases h with
  | aside hb =>
    have hbus : s'.bus bus = s.bus bus := by rw [System.bus, hb, System.bus]
    exact (congrArg Bus.log hbus).trans (List.append_nil _).symm
  | subscribed other subscriber => exact hsame other _ rfl
  | withdrawn other number => exact hsame other _ rfl
  | cancelled other number => exact hsame other _ rfl
  | published other hne =>
    rw [Incident.batch, System.logged]
    split
    · next ho => rw [← ho, System.bus_setBus_self, Bus.append]
    · next ho =>
      rw [System.bus_setBus_of_ne _ _ (Ne.symm ho)]
      exact (List.append_nil _).symm
  | handed | called | answered | settled => exact (List.append_nil _).symm

structure Chronicles (P : Option (Handover σ) → System σ → List (Moment σ) → System σ → Prop) :
    Prop where
  nil : ∀ own s, P own s [] s
  append : ∀ own a xs b ys c, P own a xs b → P own b ys c → P own a (xs ++ ys) c
  turn : ∀ own s incident s', Turns s incident s' → incident.publish? = none →
    P own s [⟨incident, s'⟩] s'
  called : ∀ h s call, P (some h) s [⟨.called h call, s⟩] s
  publish : ∀ own depth s bus events outcome s' body, events ≠ [] →
    Hands (fun h a answer b during => Delivers depth h a answer b during ∧ P (some h) a during b)
      bus (s.bus bus).log.length events (s.bus bus).subscriptions (s.logged bus events) outcome
      s' body →
    P own s (publishing bus (s.bus bus).log.length events (s.logged bus events) body outcome s') s'

lemma Hands.mono {D D' : Delivering σ} {bus : BusId} {first : ℕ} {events : List EventMessage}
    {subscriptions : List (ℕ × Subscriber σ)} {s s' : System σ} {outcome : Outcome}
    {body : List (Moment σ)} (h : Hands D bus first events subscriptions s outcome s' body)
    (hd : ∀ h s outcome s' during, D h s outcome s' during → D' h s outcome s' during) :
    Hands D' bus first events subscriptions s outcome s' body := by
  induction h with
  | done => exact .done
  | failed h => exact .failed (hd _ _ _ _ _ h)
  | next h _ ih => exact .next (hd _ _ _ _ _ h) ih

namespace Chronicles

variable {P : Option (Handover σ) → System σ → List (Moment σ) → System σ → Prop}
  (hP : Chronicles P)

include hP

section Stretches

variable {depth : ℕ}
  (hd : ∀ h s outcome s' during, Delivers depth h s outcome s' during → P (some h) s during s')
  {own : Option (Handover σ)} {s s' : System σ}

include hd

lemma of_answers {request : Request σ} {reply : request.Reply} {moments : List (Moment σ)}
    (h : Answers (Delivers depth) request s reply s' moments) : P own s moments s' := by
  cases h with
  | plain hp h => exact hP.turn _ _ _ _ (turns_of_answer hp h) (Request.publish?_incident _)
  | publish hne h =>
    exact hP.publish _ depth _ _ _ _ _ _ hne
      (h.mono fun h s outcome s' during hh => ⟨hh, hd h s outcome s' during hh⟩)

lemma of_executes {script : Script σ α} {value : α} {moments : List (Moment σ)}
    (h : Executes (Delivers depth) own script s value s' moments) : P own s moments s' := by
  induction h with
  | done => exact hP.nil _ _
  | ask h _ ih => exact hP.append _ _ _ _ _ _ (hP.of_answers hd h) ih
  | @subscribe bus consumer next s _ _ _ _ ih =>
    exact hP.append _ _ _ _ _ _ (hP.turn _ _ _ _ (.subscribed bus _) rfl) ih
  | mark _ ih =>
    refine hP.append _ _ _ _ _ _ ?_ ih
    cases own with
    | none => exact hP.turn _ _ _ _ (.aside rfl) rfl
    | some h => exact hP.called h _ _

end Stretches

lemma of_delivers {depth : ℕ} {h : Handover σ} {s s' : System σ} {outcome : Outcome}
    {during : List (Moment σ)} (hd : Delivers depth h s outcome s' during) :
    P (some h) s during s' := by
  induction depth generalizing h s outcome s' during with
  | zero => exact hd.elim
  | succ depth ih => exact hP.of_executes (fun _ _ _ _ _ h => ih h) hd

theorem of_history {s₀ s : System σ} {moments : List (Moment σ)} (h : History s₀ moments s) :
    P none s₀ moments s := by
  induction h with
  | start => exact hP.nil _ _
  | program _ hp ih =>
    exact hP.append _ _ _ _ _ _ ih (hP.of_executes (fun _ _ _ _ _ h => hP.of_delivers h) hp)
  | subscribe _ bus subscriber ih =>
    exact hP.append _ _ _ _ _ _ ih (hP.turn _ _ _ _ (.subscribed bus subscriber) rfl)
  | cancel _ bus number ih =>
    exact hP.append _ _ _ _ _ _ ih (hP.turn _ _ _ _ (.cancelled bus number) rfl)
  | aside _ hb ih => exact hP.append _ _ _ _ _ _ ih (hP.turn _ _ _ _ (.aside hb) rfl)

end Chronicles

def System.after (s : System σ) : List (Moment σ) → System σ
  | [] => s
  | m :: rest => m.system.after rest

inductive Path : System σ → List (Moment σ) → System σ → Prop
  | nil (s : System σ) : Path s [] s
  | cons {s s' : System σ} {m : Moment σ} {rest : List (Moment σ)}
      (h : Turns s m.incident m.system) (hr : Path m.system rest s') : Path s (m :: rest) s'

namespace Path

variable {a b c s s' : System σ} {xs ys : List (Moment σ)}

lemma one {incident : Incident σ} (h : Turns s incident s') : Path s [⟨incident, s'⟩] s' :=
  .cons h (.nil s')

lemma append (h : Path a xs b) (h' : Path b ys c) : Path a (xs ++ ys) c := by
  induction h with
  | nil s => exact h'
  | cons h _ ih => exact .cons h (ih h')

lemma split (h : Path s (xs ++ ys) s') : Path s xs (s.after xs) ∧ Path (s.after xs) ys s' := by
  induction xs generalizing s with
  | nil => exact ⟨.nil s, h⟩
  | cons m rest ih =>
    cases h with
    | cons hm hr => exact ⟨.cons hm (ih hr).1, (ih hr).2⟩

lemma upTo (h : Path s xs s') (n : ℕ) : Path s (xs.take n) (s.after (xs.take n)) := by
  rw [← List.take_append_drop n xs] at h
  exact h.split.1

lemma between (h : Path s xs s') {m n : ℕ} (hmn : m ≤ n) :
    Path (s.after (xs.take m)) ((xs.take n).drop m) (s.after (xs.take n)) := by
  have heq : xs.take m ++ (xs.take n).drop m = xs.take n := by
    rw [← min_eq_left hmn, ← List.take_take, min_eq_left hmn, List.take_append_drop]
  have hn : Path s (xs.take m ++ (xs.take n).drop m) (s.after (xs.take n)) := by
    rw [heq]
    exact h.upTo n
  exact hn.split.2

lemma turn_at (h : Path s xs s') {k : ℕ} {m : Moment σ} (hk : xs[k]? = some m) :
    Turns (s.after (xs.take k)) m.incident m.system ∧ s.after (xs.take (k + 1)) = m.system := by
  induction h generalizing k with
  | nil s => cases hk
  | cons hm _ ih =>
    cases k with
    | zero =>
      cases hk
      exact ⟨hm, rfl⟩
    | succ k => exact ih hk

lemma log_eq (h : Path s xs s') (bus : BusId) : (s'.bus bus).log = (s.bus bus).log ++
    Bus.entriesFrom (s.bus bus).log.length (xs.flatMap (·.incident.batch bus)) := by
  induction h with
  | nil s => rw [List.flatMap_nil, Bus.entriesFrom, List.append_nil]
  | cons h _ ih =>
    rw [ih, h.log_eq bus, List.flatMap_cons, Bus.entriesFrom_append, List.append_assoc,
      List.length_append, Bus.length_entriesFrom]

lemma log_grows (h : Path s xs s') (bus : BusId) :
    (s.bus bus).log <+: (s'.bus bus).log := ⟨_, (h.log_eq bus).symm⟩

lemma of_hands {D : Delivering σ}
    (hd : ∀ h s outcome s' during, D h s outcome s' during → Path s during s') {bus : BusId}
    {first : ℕ} {events : List EventMessage} {subscriptions : List (ℕ × Subscriber σ)}
    {outcome : Outcome} {body : List (Moment σ)}
    (h : Hands D bus first events subscriptions s outcome s' body) : Path s body s' := by
  have hone : ∀ h s outcome s' during, D h s outcome s' during →
      Path s (h.moments s outcome s' during) s' := fun h s outcome s' during hh =>
    .cons (.handed h) ((hd _ _ _ _ _ hh).append (one (.answered h outcome)))
  induction h with
  | done => exact .nil _
  | failed h => exact hone _ _ _ _ _ h
  | next h _ ih => exact (hone _ _ _ _ _ h).append ih

end Path

lemma chronicles_path : Chronicles fun (_ : Option (Handover σ)) s moments s' =>
    Path s moments s' where
  nil _ s := .nil s
  append _ _ _ _ _ _ h h' := h.append h'
  turn _ _ _ _ h _ := .one h
  called h _ call := .one (.called h call)
  publish _ _ _ bus _ outcome _ _ hne h :=
    .cons (.published bus hne) ((Path.of_hands (fun _ _ _ _ _ h => h.2) h).append
      (.one (.settled bus _ outcome)))

lemma History.path {s₀ s : System σ} {moments : List (Moment σ)} (h : History s₀ moments s) :
    Path s₀ moments s := chronicles_path.of_history h

end EventProcessing
