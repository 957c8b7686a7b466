import EventProcessing.System
import Mathlib.Tactic

namespace EventProcessing

variable {σ α β : Type}

def firstFailure : List Outcome → Outcome
  | [] => .ok ()
  | .ok () :: rest => firstFailure rest
  | .error failure :: _ => .error failure

namespace Bus

lemma entriesFrom_append (n : ℕ) (xs ys : List EventMessage) :
    entriesFrom n (xs ++ ys) = entriesFrom n xs ++ entriesFrom (n + xs.length) ys := by
  induction xs generalizing n with
  | nil => rfl
  | cons x xs ih =>
    have hn : n + 1 + xs.length = n + (x :: xs).length := by simp; omega
    simp only [List.cons_append, entriesFrom, ih, hn]

def Extends (earlier later : List TrackedEvent) : Prop :=
  ∃ events, later = earlier ++ entriesFrom earlier.length events

lemma Extends.refl (log : List TrackedEvent) : Extends log log := ⟨[], by simp [entriesFrom]⟩

lemma Extends.trans {a b c : List TrackedEvent} (hab : Extends a b) (hbc : Extends b c) :
    Extends a c := by
  obtain ⟨xs, rfl⟩ := hab
  obtain ⟨ys, rfl⟩ := hbc
  refine ⟨xs ++ ys, ?_⟩
  rw [entriesFrom_append, List.append_assoc, List.length_append, length_entriesFrom]

inductive Revises (bus : Bus (Subscriber σ)) : Bus (Subscriber σ) → Prop
  | append (events : List EventMessage) : Revises bus (bus.append events)
  | subscribe (consumer : Consumer σ) : Revises bus (bus.subscribe (.consumer consumer)).2
  | withdraw (subscription : ℕ) : Revises bus (bus.withdraw subscription)

lemma Revises.extends {bus bus' : Bus (Subscriber σ)} (h : Revises bus bus') :
    Extends bus.log bus'.log := by
  cases h with
  | append events => exact ⟨events, rfl⟩
  | subscribe | withdraw => exact .refl _

end Bus

namespace System

/-- What programs leave as it is: all but the shared state, the buses and what is told of a run; and
the logs of the buses only grow. -/
structure Frame (s s' : System σ) : Prop where
  tokens : s'.tokens = s.tokens
  sagas : s'.sagas = s.sagas
  processors : s'.processors = s.processors
  workers : s'.workers = s.workers
  ready : s'.ready = s.ready
  idle : s'.idle = s.idle
  now : s'.now = s.now
  waitsLeft : s'.waitsLeft = s.waitsLeft
  hasRuntime : s'.hasRuntime = s.hasRuntime
  logs : ∀ bus, Bus.Extends (s.bus bus).log (s'.bus bus).log

lemma Frame.refl (s : System σ) : Frame s s :=
  ⟨rfl, rfl, rfl, rfl, rfl, rfl, rfl, rfl, rfl, fun _ => .refl _⟩

lemma Frame.trans {a b c : System σ} (hab : Frame a b) (hbc : Frame b c) : Frame a c where
  tokens := hbc.tokens.trans hab.tokens
  sagas := hbc.sagas.trans hab.sagas
  processors := hbc.processors.trans hab.processors
  workers := hbc.workers.trans hab.workers
  ready := hbc.ready.trans hab.ready
  idle := hbc.idle.trans hab.idle
  now := hbc.now.trans hab.now
  waitsLeft := hbc.waitsLeft.trans hab.waitsLeft
  hasRuntime := hbc.hasRuntime.trans hab.hasRuntime
  logs bus := (hab.logs bus).trans (hbc.logs bus)

lemma bus_setBus_self (s : System σ) (id : BusId) (bus : Bus (Subscriber σ)) :
    (s.setBus id bus).bus id = bus := by
  simp [System.bus, setBus]

lemma bus_setBus_of_ne (s : System σ) {id other : BusId} (bus : Bus (Subscriber σ))
    (h : other ≠ id) : (s.setBus id bus).bus other = s.bus other := by
  simp [System.bus, setBus, Table.get?_put_of_ne _ _ h]

lemma frame_setBus (s : System σ) (id : BusId) (bus : Bus (Subscriber σ))
    (h : Bus.Extends (s.bus id).log bus.log) : Frame s (s.setBus id bus) := by
  refine ⟨rfl, rfl, rfl, rfl, rfl, rfl, rfl, rfl, rfl, fun other => ?_⟩
  by_cases hi : other = id
  · subst hi
    rwa [bus_setBus_self]
  · rw [bus_setBus_of_ne _ _ hi]
    exact .refl _

/-- What a relation between systems has to allow for to hold between the ends of every program. -/
structure Admits (R : System σ → System σ → Prop) : Prop where
  set : ∀ s state, R s { s with shared := state }
  fresh : ∀ s, R s s.takeId.2
  trace : ∀ s line, R s (s.addTrace line)
  count : ∀ s metric, R s (s.addMetric metric)
  setBus : ∀ s id bus, Bus.Revises (s.bus id) bus → R s (s.setBus id bus)

namespace Admits

variable {R : System σ → System σ → Prop} [IsPreorder (System σ) R]
  {deliver : Delivery σ} {s s' : System σ}

lemma of_deliverAll {events : List EventMessage}
    (hd : ∀ subscriber s outcome s', deliver subscriber events s = some (outcome, s') → R s s')
    {subscribers : List (Subscriber σ)} {outcome : Outcome}
    (h : deliverAll deliver events subscribers s = some (outcome, s')) : R s s' := by
  induction subscribers generalizing s with
  | nil =>
    cases h
    exact refl _
  | cons subscriber rest ih =>
    obtain ⟨⟨first, middle⟩, hfirst, hrest⟩ := Option.bind_eq_some_iff.mp h
    have hm := hd _ _ _ _ hfirst
    cases first with
    | error failure =>
      cases hrest
      exact hm
    | ok _ => exact trans_of R hm (ih hrest)

variable (hR : Admits R) (hd : ∀ subscriber events s outcome s',
  deliver subscriber events s = some (outcome, s') → R s s')

include hR hd

lemma of_answer {request : Request σ} {reply : request.Reply}
    (h : s.answer deliver request = some (reply, s')) : R s s' := by
  cases request with
  | publish id events =>
    simp only [answer, publish] at h
    split at h
    · cases h
      exact refl _
    · exact trans_of R (hR.setBus s id _ (.append events))
        (of_deliverAll (fun subscriber => hd subscriber events) h)
  | cancel id subscription =>
    cases h
    exact hR.setBus s id _ (.withdraw subscription)
  | set state =>
    cases h
    exact hR.set s state
  | fresh =>
    cases h
    exact hR.fresh s
  | trace line =>
    cases h
    exact hR.trace s line
  | count metric =>
    cases h
    exact hR.count s metric
  | get | view =>
    cases h
    exact refl _

lemma of_execute {program : Program σ α} {value : α}
    (h : execute deliver program s = some (value, s')) : R s s' := by
  induction program generalizing s with
  | done a =>
    cases h
    exact refl _
  | ask request next ih =>
    obtain ⟨⟨reply, middle⟩, ha, hn⟩ := Option.bind_eq_some_iff.mp h
    exact trans_of R (hR.of_answer hd ha) (ih _ hn)
  | subscribe id consumer next ih =>
    exact trans_of R (hR.setBus s id _ (.subscribe consumer)) (ih _ h)

omit hd

lemma of_deliver (depth : ℕ) (subscriber : Subscriber σ) (events : List EventMessage)
    (s : System σ) (outcome : Outcome) (s' : System σ)
    (h : System.deliver depth subscriber events s = some (outcome, s')) : R s s' := by
  -- A delivery at one depth is a program at the depth below.
  induction depth generalizing subscriber events s outcome s' with
  | zero => cases h
  | succ depth ih => exact hR.of_execute ih h

theorem of_run {depth : ℕ} {program : Program σ α} {value : α}
    (h : System.run depth program s = some (value, s')) : R s s' :=
  hR.of_execute (hR.of_deliver depth) h

end Admits

instance : IsPreorder (System σ) Frame where
  refl := .refl
  trans _ _ _ := .trans

lemma admits_frame : Admits (Frame (σ := σ)) where
  set _ _ := ⟨rfl, rfl, rfl, rfl, rfl, rfl, rfl, rfl, rfl, fun _ => .refl _⟩
  fresh _ := ⟨rfl, rfl, rfl, rfl, rfl, rfl, rfl, rfl, rfl, fun _ => .refl _⟩
  trace _ _ := ⟨rfl, rfl, rfl, rfl, rfl, rfl, rfl, rfl, rfl, fun _ => .refl _⟩
  count _ _ := ⟨rfl, rfl, rfl, rfl, rfl, rfl, rfl, rfl, rfl, fun _ => .refl _⟩
  setBus s id bus h := frame_setBus s id bus h.extends

theorem frame_run {depth : ℕ} {program : Program σ α} {s s' : System σ} {value : α}
    (h : System.run depth program s = some (value, s')) : Frame s s' :=
  admits_frame.of_run h

lemma execute_bind (deliver : Delivery σ) (p : Program σ α) (f : α → Program σ β) (s : System σ) :
    execute deliver (p >>= f) s =
      (execute deliver p s).bind fun r => execute deliver (f r.1) r.2 := by
  induction p generalizing s with
  | done value => rfl
  | ask request next ih =>
    change execute deliver (.ask request fun reply => next reply >>= f) s = _
    simp only [execute]
    cases s.answer deliver request with
    | none => rfl
    | some r => exact ih r.1 r.2
  | subscribe bus consumer next ih =>
    change execute deliver (ProgramOver.subscribe bus consumer fun id => next id >>= f) s = _
    exact ih _ _

lemma execute_bind_eq_some {deliver : Delivery σ} {p : Program σ α} {f : α → Program σ β}
    {s s' : System σ} {value : β} :
    execute deliver (p >>= f) s = some (value, s') ↔
      ∃ a middle, execute deliver p s = some (a, middle) ∧
        execute deliver (f a) middle = some (value, s') := by
  rw [execute_bind, Option.bind_eq_some_iff]
  constructor
  · rintro ⟨⟨a, middle⟩, hp, hf⟩
    exact ⟨a, middle, hp, hf⟩
  · rintro ⟨a, middle, hp, hf⟩
    exact ⟨(a, middle), hp, hf⟩

lemma run_bind (depth : ℕ) (p : Program σ α) (f : α → Program σ β) (s : System σ) :
    System.run depth (p >>= f) s =
      (System.run depth p s).bind fun result => System.run depth (f result.1) result.2 :=
  execute_bind _ p f s

lemma run_bind_eq_some {depth : ℕ} {p : Program σ α} {f : α → Program σ β} {s s' : System σ}
    {value : β} :
    System.run depth (p >>= f) s = some (value, s') ↔
      ∃ a middle, System.run depth p s = some (a, middle) ∧
        System.run depth (f a) middle = some (value, s') :=
  execute_bind_eq_some

end System

def ProgramOver.Ends (program : Program σ α) (P : α → Prop) : Prop :=
  ∀ depth s value s', System.run depth program s = some (value, s') → P value

namespace ProgramOver.Ends

variable {program : Program σ α} {P : α → Prop} {Q : β → Prop}

lemma any (program : Program σ α) : program.Ends fun _ => True := fun _ _ _ _ _ => trivial

lemma pure {value : α} (h : P value) : (Pure.pure value : Program σ α).Ends P := by
  intro depth s value' s' hr
  cases hr
  exact h

lemma bind {next : α → Program σ β} (hp : program.Ends P) (hn : ∀ a, P a → (next a).Ends Q) :
    (program >>= next).Ends Q := by
  intro depth s value s' hr
  obtain ⟨a, middle, ha, hr⟩ := System.run_bind_eq_some.mp hr
  exact hn a (hp depth s a middle ha) depth middle value s' hr

end ProgramOver.Ends

namespace Run

lemma bind_eq_some {m : Run σ α} {f : α → Run σ β} {depth : ℕ} {s s' : System σ} {value : β} :
    (m >>= f) depth s = some (value, s') ↔
      ∃ a middle, m depth s = some (a, middle) ∧ f a depth middle = some (value, s') := by
  change ((m depth s).bind fun r => f r.1 depth r.2) = _ ↔ _
  rw [Option.bind_eq_some_iff]
  constructor
  · rintro ⟨⟨a, middle⟩, hp, hf⟩
    exact ⟨a, middle, hp, hf⟩
  · rintro ⟨a, middle, hp, hf⟩
    exact ⟨(a, middle), hp, hf⟩

lemma pure_eq_some {a value : α} {depth : ℕ} {s s' : System σ} :
    (pure a : Run σ α) depth s = some (value, s') ↔ a = value ∧ s = s' := by
  change some (a, s) = some (value, s') ↔ _
  simp

def Keeps (R : System σ → System σ → Prop) (m : Run σ α) : Prop :=
  ∀ depth s value s', m depth s = some (value, s') → R s s'

namespace Keeps

variable {R : System σ → System σ → Prop}

lemma update {f : System σ → System σ} (hf : ∀ s, R s (f s)) : (Run.update f).Keeps R := by
  intro depth s value s' h
  cases h
  exact hf s

variable [IsPreorder (System σ) R]

lemma pure (value : α) : (Pure.pure value : Run σ α).Keeps R := by
  intro depth s value s' h
  cases h
  exact refl s

lemma bind {m : Run σ α} {next : α → Run σ β} (hm : m.Keeps R) (hn : ∀ a, (next a).Keeps R) :
    (m >>= next).Keeps R := by
  intro depth s value s' h
  obtain ⟨a, middle, ha, h⟩ := Run.bind_eq_some.mp h
  exact trans_of R (hm _ _ _ _ ha) (hn a _ _ _ _ h)

lemma system : (Run.system : Run σ (System σ)).Keeps R := by
  intro depth s value s' h
  cases h
  exact refl s

end Keeps

end Run

end EventProcessing
