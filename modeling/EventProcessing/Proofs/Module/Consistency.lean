import EventProcessing.Proofs.Module.Lifecycle

namespace EventProcessing

variable {σ α : Type} {depth : ℕ} {s₀ s s' : System σ} {m m' : Module σ}
  {history : List (Query σ)}

structure System.Untouched (s : System σ) : Prop where
  vacant : s.Vacant
  fresh : ∀ id, s.nextId ≤ id → s.activity id = {}
  deserted : ∀ id, s.nextId ≤ id → s.Deserted id
  distinct : ∀ bus, (s.bus bus).Distinct

/-- What goes on in a system besides the calls on a module: programs run, workers have their turns,
time passes. -/
inductive System.Proceeds (s : System σ) : System σ → Prop
  | program {α : Type} {program : Program σ α} {value : α} {depth : ℕ} {s' : System σ}
      (h : System.run depth program s = some (value, s')) : Proceeds s s'
  | turn {id depth : ℕ} {goesOn : Bool} {s' : System σ}
      (h : Schedule.turn id depth s = some (goesOn, s')) : Proceeds s s'
  | wait {milliseconds fuel depth : ℕ} {s' : System σ}
      (h : Schedule.runFor milliseconds fuel depth s = some ((), s')) : Proceeds s s'
  | await {p : Processor σ} {fuel depth : ℕ} {s' : System σ}
      (h : Schedule.awaitTermination p fuel depth s = some ((), s')) : Proceeds s s'

lemma System.Proceeds.spares (h : s.Proceeds s') : s.Spares s' := by
  cases h with
  | program h => exact System.spares_of_run h
  | turn h => exact Schedule.keeps_turn Schedule.allows_spares _ _ _ _ _ h
  | wait h => exact Schedule.spares_runFor _ _ _ _ _ _ h
  | @await p fuel _ _ h => exact p.spares_awaitTermination fuel _ _ _ _ h

lemma System.Proceeds.passes (h : s.Proceeds s') : s.Passes s' := by
  cases h with
  | program h => exact System.passes_of_run h
  | turn h => exact Schedule.keeps_turn Schedule.allows_passes _ _ _ _ _ h
  | wait h => exact Schedule.passes_runFor _ _ _ _ _ _ h
  | @await p fuel _ _ h => exact Schedule.passes_awaitTermination p fuel _ _ _ _ h

namespace Module

/-- What a new module and its system can come to by these queries, in this order. It is set up only
while it rests. -/
inductive Operates (s₀ : System σ) : List (Query σ) → Module σ → System σ → Prop
  | init : Operates s₀ [] {} s₀
  | register {history : List (Query σ)} {m m' : Module σ} {s s' : System σ}
      {registration : Registration σ} {depth : ℕ} (h : Operates s₀ history m s)
      (hr : registration.perform m depth s = some (((), m'), s')) : Operates s₀ history m' s'
  | setUp {history : List (Query σ)} {m m' : Module σ} {s s' : System σ} {c : Configuration σ}
      {depth : ℕ} (h : Operates s₀ history m s) (hr : m.Rests s)
      (hc : Module.setUp c m depth s = some (((), m'), s')) : Operates s₀ history m' s'
  | query {history : List (Query σ)} {m m' : Module σ} {s s' : System σ} {query : Query σ}
      {depth : ℕ} (h : Operates s₀ history m s)
      (hq : query.perform m depth s = some (((), m'), s')) :
      Operates s₀ (history ++ [query]) m' s'
  | beside {history : List (Query σ)} {m : Module σ} {s s' : System σ}
      (h : Operates s₀ history m s) (hp : s.Proceeds s') : Operates s₀ history m s'

structure Consistent (n₀ : ℕ) (m : Module σ) (s : System σ) : Prop where
  numbered : ∀ {name p}, m.Built name p → n₀ ≤ p.self.id
  apart : ∀ {name other p q}, m.Built name p → m.Built other q → p.self.id = q.self.id →
    name = other
  subscribed : ∀ {name p pipeline bus}, m.Built name p → p.kind = .subscribing pipeline bus →
    p.Runs s → ∃ number, (s.processor p.self.id).subscription = some number ∧
      (s.bus bus).owned p.self.id = [(number, .processor p.self.id pipeline)]
  unsubscribed : ∀ bus id, n₀ ≤ id →
    (∀ name p pipeline, m.Built name p → p.kind = .subscribing pipeline bus → p.self.id = id →
      ¬ p.Runs s) → (s.bus bus).owned id = []
  staffed : ∀ {name p}, m.Built name p → ∀ id worker, s.workers.get? id = some worker →
    worker.work.processor = p.self.id → worker.stopRequested = true ∨
      ∃ workers, (s.processor p.self.id).workers = some workers ∧ id ∈ workers

structure AtRest (n₀ : ℕ) (m : Module σ) (s : System σ) : Prop where
  processors : m.Rests s
  subscriptions : ∀ bus id, n₀ ≤ id → (s.bus bus).owned id = []
  workers : ∀ id worker, s.workers.get? id = some worker → n₀ ≤ worker.work.processor →
    ∀ depth, ∃ workers lines, Schedule.turn id depth s =
      some (false, { s with workers := workers, trace := s.trace ++ lines })

lemma kept_init (h₀ : s₀.Untouched) : ({} : Module σ).Kept s₀.nextId s₀ where
  toSound := .init h₀.vacant
  nodup := List.nodup_nil
  floor := le_rfl
  distinct := h₀.distinct
  fresh := h₀.fresh
  own := by rintro _ _ ⟨⟩
  lost id hid _ := h₀.deserted id hid

section Kept

variable {n₀ : ℕ}

lemma Kept.query {query : Query σ} (h : m.Kept n₀ s)
    (hq : query.perform m depth s = some (((), m'), s')) :
    m'.Kept n₀ s' ∧ (query = .shutDown → m'.Rests s') ∧
      (query ≠ .start → m.Rests s → m'.Rests s') := by
  by_cases hstart : query = .start
  · subst hstart
    obtain ⟨outcome, _, _, hs, hq⟩ := StateT.bind_eq_some.mp hq
    cases hq
    refine ⟨?_, (fun he => by cases he), fun hne => absurd rfl hne⟩
    by_cases hc : m.configuration = none
    · obtain ⟨-, rfl, rfl⟩ := start_of_unconfigured hc hs
      exact h
    · exact (h.start hc hs).1
  by_cases hdown : query = .shutDown
  · subst hdown
    obtain ⟨outcome, _, _, hs, hq⟩ := StateT.bind_eq_some.mp hq
    cases hq
    obtain ⟨rfl, h', hrests⟩ := h.shutDown hs
    exact ⟨h', fun _ => hrests, fun _ _ => hrests⟩
  · obtain ⟨h', hgrows⟩ := (answers_kept n₀ m s).of_query ⟨h, grows_refl m s⟩
      (fun _ he => absurd he hstart) (fun _ he => absurd he hdown) hq
    exact ⟨h', fun he => absurd he hdown, fun _ => hgrows.rests⟩

lemma Kept.consistent (h : m.Kept n₀ s) : m.Consistent n₀ s where
  numbered := h.above
  apart := h.apart
  subscribed hb hk hr := (h.inOrder hb).owned_of_runs hk hr
  unsubscribed bus id hid hnone := by
    by_cases hbuilt : ∃ name p, m.Built name p ∧ p.self.id = id
    · obtain ⟨name, p, hb, rfl⟩ := hbuilt
      exact (h.inOrder hb).owned_eq_nil fun pipeline hk => hnone name p pipeline hb hk rfl
    · exact (h.lost id hid fun name p hb hp => hbuilt ⟨name, p, hb, hp⟩).owned bus
  staffed hb _ _ hw hp := (h.inOrder hb).staffed hw hp

lemma Kept.atRest (h : m.Kept n₀ s) (hr : m.Rests s) : m.AtRest n₀ s where
  processors := hr
  subscriptions bus _ hid := (h.deserted hr hid).owned bus
  workers id worker hw hid depth := by
    have hstopped := (h.deserted hr hid).workers id worker hw rfl
    exact Schedule.turn_of_mustEnd hw (by rw [Worker.mustEnd, hstopped, Bool.true_or]) depth

end Kept

namespace Operates

lemma kept (h : Operates s₀ history m s) (h₀ : s₀.Untouched) : m.Kept s₀.nextId s := by
  induction h with
  | init => exact kept_init h₀
  | register _ hr ih => exact (ih.register hr).1
  | setUp _ hr hc ih => exact (ih.setUp hr hc).1
  | query _ hq ih => exact (ih.query hq).1
  | beside _ hp ih => exact ih.spares hp.spares hp.passes

lemma rests (h : Operates s₀ history m s) (h₀ : s₀.Untouched) {earlier later : List (Query σ)}
    (he : history = earlier ++ .shutDown :: later) (hn : .start ∉ later) : m.Rests s := by
  induction h generalizing later with
  | init => exact absurd he (by simp)
  | register hm hr ih => exact ((hm.kept h₀).register hr).2.rests (ih he hn)
  | setUp hm hr hc ih => exact fun name p hb => absurd hb (((hm.kept h₀).setUp hr hc).2 name p)
  | @query _ _ _ _ _ query _ hm hq ih =>
    obtain ⟨-, hdown, hothers⟩ := (hm.kept h₀).query hq
    -- The query is the shutdown itself, or one of those behind it.
    induction later using List.reverseRecOn with
    | nil =>
      obtain ⟨-, hquery⟩ := List.append_inj' he rfl
      exact hdown (List.singleton_inj.mp hquery)
    | append_singleton later last =>
      rw [← List.cons_append, ← List.append_assoc] at he
      obtain ⟨hearlier, hquery⟩ := List.append_inj' he rfl
      obtain rfl := List.singleton_inj.mp hquery
      simp only [List.mem_append, List.mem_singleton, not_or] at hn
      exact hothers (Ne.symm hn.2) (ih hearlier hn.1)
  | beside hm hp ih => exact (grows_of_eq rfl rfl hp.spares).rests (ih he hn)

end Operates

/-- However a module is used, its buses and its workers agree with its processors. A start runs its
names in order up to the first that fails and does not touch what runs already; a shutdown cannot
fail; and after a shutdown nothing goes on until the next start. -/
theorem starts_and_shutdowns_stay_consistent (h₀ : s₀.Untouched) (h : Operates s₀ history m s) :
    m.Consistent s₀.nextId s ∧
    (∀ depth outcome m' s', m.configuration ≠ none →
      start m depth s = some ((outcome, m'), s') →
        Launches m.processors.keys depth m s outcome m' s' ∧ m.Undisturbed s m' s') ∧
    ((∀ name p, m.Built name p → p.IsBuiltIn) → ∀ depth, ∃ s',
      shutDown m depth s = some ((.ok (), m), s')) ∧
    ∀ earlier later, history = earlier ++ .shutDown :: later → .start ∉ later →
      m.AtRest s₀.nextId s := by
  have hkept := h.kept h₀
  refine ⟨hkept.consistent, fun depth outcome m' s' hc hs => (hkept.start hc hs).2,
    fun hb depth => hkept.exists_shutDown hb depth, fun earlier later he hn => ?_⟩
  exact hkept.atRest (h.rests h₀ he hn)

lemma running_of_any {name : String} (h : ((m.processors.get? name).bind Component.built).any
    (fun p => p.isRunning (s.processor p.self.id)) = true) : m.Running s name := by
  cases hb : (m.processors.get? name).bind Component.built with
  | none =>
    rw [hb] at h
    cases h
  | some p =>
    rw [hb] at h
    exact ⟨p, hb, h⟩

lemma exists_outcome (h : Query.start.perform m depth s = some (((), m'), s')) :
    ∃ outcome, start m depth s = some ((outcome, m'), s') := by
  obtain ⟨outcome, _, _, hstart, h⟩ := StateT.bind_eq_some.mp h
  cases h
  exact ⟨outcome, hstart⟩

lemma following?_singleton {call : Change σ ⊕ Query σ} {after : Module σ × System σ}
    (h : following? depth [call] m s = some after) :
    call.elim Change.perform Query.perform m depth s = some (((), after.1), after.2) := by
  obtain ⟨⟨⟨_, m'⟩, s'⟩, hcall, hdone⟩ := Option.bind_eq_some_iff.mp h
  cases hdone
  exact hcall

lemma Operates.follows {query : Query σ} {after : Module σ × System σ}
    (h : Operates s₀ history m s) (hf : following? depth [.inr query] m s = some after) :
    Operates s₀ (history ++ [query]) after.1 after.2 :=
  .query h (following?_singleton hf)

lemma Operates.registers {registrations : List (Registration σ)} {after : Module σ × System σ}
    (h : Operates s₀ history m s)
    (hf : following? depth (registrations.map fun registration => .inl (.register registration))
      m s = some after) : Operates s₀ history after.1 after.2 := by
  induction registrations generalizing m s with
  | nil =>
    cases hf
    exact h
  | cons registration rest ih =>
    obtain ⟨⟨⟨_, m'⟩, s'⟩, hfirst, hrest⟩ := Option.bind_eq_some_iff.mp hf
    exact ih (.register h hfirst) hrest

end Module

namespace Sample

def orders : Saga Unit := .simple "Orders" (some "orders") (.all [])

def mail : Saga Unit := .simple "Mail" (some "mail") (.all [])

def mixed : List (Registration Unit) :=
  [.saga fun _ => return ledger, .saga fun _ => return orders, .saga fun _ => return mail,
    .builder "ledger" (.subscribing none),
    .builder "mail" fun _ _ => return .error (.report "no mail")]

def registered : Module Unit × System Unit :=
  (Module.following? 1 (mixed.map fun registration => .inl (.register registration)) {} blank).get
    (by decide +kernel)

def prepared : Module Unit × System Unit :=
  (Module.following? 1 [.inl (.setUp (configuration 0))] registered.1 registered.2).get
    (by decide +kernel)

def launched : Module Unit × System Unit :=
  (Module.following? 1 [.inr .start] prepared.1 prepared.2).get (by decide +kernel)

def retired : Module Unit × System Unit :=
  (Module.following? 1 [.inr .shutDown] launched.1 launched.2).get (by decide +kernel)

lemma untouched_blank : blank.Untouched where
  vacant := vacant_blank
  fresh _ _ := rfl
  deserted _ _ := ⟨fun _ => rfl, by rintro _ _ ⟨⟩⟩
  distinct _ := ⟨List.nodup_nil, by rintro _ ⟨⟩⟩

lemma following_mixed : Module.following? 1
    (mixed.map fun registration => .inl (.register registration)) {} blank = some registered :=
  (Option.some_get _).symm

lemma following_registered : Module.following? 1 [.inl (.setUp (configuration 0))] registered.1
    registered.2 = some prepared :=
  (Option.some_get _).symm

lemma operates_prepared : Module.Operates blank [] prepared.1 prepared.2 := by
  have hempty : registered.1.processors.isEmpty = true := by decide +kernel
  have hrests : registered.1.Rests registered.2 := by
    intro name p hb
    rw [Module.Built, List.isEmpty_iff.mp hempty] at hb
    cases hb
  exact .setUp (.registers .init following_mixed) hrests
    (Module.following?_singleton following_registered)

lemma following_prepared :
    Module.following? 1 [.inr .start] prepared.1 prepared.2 = some launched :=
  (Option.some_get _).symm

lemma following_launched :
    Module.following? 1 [.inr .shutDown] launched.1 launched.2 = some retired :=
  (Option.some_get _).symm

lemma operates_retired : Module.Operates blank [.start, .shutDown] retired.1 retired.2 :=
  (operates_prepared.follows following_prepared).follows following_launched

end Sample

theorem Module.sample_start_fails_and_shutdown_rests :
    Module.Operates Sample.blank [] Sample.prepared.1 Sample.prepared.2 ∧
    Sample.launched.1.Running Sample.launched.2 "orders" ∧
    (∃ failure, failure.fullText = "failed to build event processor [mail]: no mail" ∧
      Module.Launches ["ledger", "orders", "mail"] 1 Sample.prepared.1 Sample.prepared.2
        (.error failure) Sample.launched.1 Sample.launched.2) ∧
    Module.Operates Sample.blank [.start, .shutDown] Sample.retired.1 Sample.retired.2 ∧
    Sample.retired.1.AtRest 0 Sample.retired.2 := by
  have hkeys : Sample.prepared.1.processors.keys = ["ledger", "orders", "mail"] := by
    decide +kernel
  have hconfigured : Sample.prepared.1.configuration.isSome = true := by decide +kernel
  have hruns : ((Sample.launched.1.processors.get? "orders").bind Component.built).any
      (fun p => p.isRunning (Sample.launched.2.processor p.self.id)) = true := by decide +kernel
  have htext : (start Sample.prepared.1 1 Sample.prepared.2).bind (fun answer =>
      match answer.1.1 with
      | .ok _ => none
      | .error failure => some failure.fullText) =
        some "failed to build event processor [mail]: no mail" := by decide +kernel
  obtain ⟨outcome, hstart⟩ := exists_outcome (following?_singleton Sample.following_prepared)
  have hlaunches := ((starts_and_shutdowns_stay_consistent Sample.untouched_blank
    Sample.operates_prepared).2.1 1 _ _ _
      (Option.isSome_iff_ne_none.mp hconfigured) hstart).1
  have hrest := (starts_and_shutdowns_stay_consistent Sample.untouched_blank
    Sample.operates_retired).2.2.2 [.start] [] rfl List.not_mem_nil
  rw [hkeys] at hlaunches
  rw [hstart] at htext
  refine ⟨Sample.operates_prepared, running_of_any hruns, ?_, Sample.operates_retired, hrest⟩
  cases outcome with
  | ok _ => cases htext
  | error failure => exact ⟨failure, Option.some.inj htext, hlaunches⟩

end EventProcessing
