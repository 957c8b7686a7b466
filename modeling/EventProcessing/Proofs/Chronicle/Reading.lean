import EventProcessing.Proofs.Accounting
import EventProcessing.Proofs.Chronicle
import EventProcessing.Proofs.Log

namespace EventProcessing

variable {σ : Type}

structure Reader where
  token : Option Token := none
  read : List TrackedEvent := []

namespace Reader

def turn (reader : Reader) (log : List TrackedEvent) (size : ℕ) : Reader :=
  let page := readLog log reader.token size
  ⟨(headToken? page).or reader.token, reader.read ++ page⟩

def visit (logAt : ℕ → List TrackedEvent) (visits : List (ℕ × ℕ)) : Reader :=
  visits.foldl (fun reader visit => reader.turn (logAt visit.1) visit.2) {}

structure Follows (reader : Reader) (log : List TrackedEvent) : Prop where
  begins : reader.read <+: log
  covered_eq : covered reader.token = reader.read.length

namespace Follows

variable {reader : Reader} {log longer : List TrackedEvent}

lemma later (h : reader.Follows log) (hl : log <+: longer) : reader.Follows longer :=
  ⟨h.begins.trans hl, h.covered_eq⟩

lemma page_eq (h : reader.Follows log) (size : ℕ) :
    readLog log reader.token size = (log.drop reader.read.length).take size := by
  rw [readLog, ← h.covered_eq]

lemma turn (h : reader.Follows log) (hn : Bus.Numbered log) (size : ℕ) :
    (reader.turn log size).Follows log := by
  constructor
  case begins =>
    obtain ⟨rest, hrest⟩ := h.begins
    have hdrop : log.drop reader.read.length = rest := by rw [← hrest, List.drop_left]
    have hpage : reader.read ++ rest.take size <+: reader.read ++ rest :=
      (List.prefix_append_right_inj _).mpr (List.take_prefix _ _)
    rw [hrest, ← hdrop, ← h.page_eq] at hpage
    exact hpage
  case covered_eq =>
    change covered ((headToken? (readLog log reader.token size)).or reader.token) =
      (reader.read ++ readLog log reader.token size).length
    rw [List.length_append, ← h.covered_eq]
    cases ht : headToken? (readLog log reader.token size) with
    | none =>
      have hpage : readLog log reader.token size = [] :=
        List.getLast?_eq_none_iff.mp (Option.map_eq_none_iff.mp ht)
      rw [hpage]
      rfl
    | some last => exact (readFrom_readLog hn reader.token size).covered_last ht

lemma page_eq_nil_iff (h : reader.Follows log) {size : ℕ} (hs : 1 ≤ size) :
    readLog log reader.token size = [] ↔ reader.read = log := by
  rw [h.page_eq, List.take_eq_nil_iff, List.drop_eq_nil_iff]
  constructor
  · rintro (hzero | hle)
    · omega
    · exact h.begins.eq_of_length_le hle
  · intro heq
    exact .inr (congrArg List.length heq).ge

end Follows

lemma follows_visit {logAt : ℕ → List TrackedEvent} (hn : ∀ n, Bus.Numbered (logAt n))
    (hgrows : ∀ m n, m ≤ n → logAt m <+: logAt n) (visits : List (ℕ × ℕ)) (n : ℕ)
    (hsorted : visits.Pairwise (·.1 ≤ ·.1)) (hlast : ∀ visit ∈ visits, visit.1 ≤ n) :
    (visit logAt visits).Follows (logAt n) := by
  induction visits using List.reverseRecOn generalizing n with
  | nil => exact ⟨List.nil_prefix, rfl⟩
  | append_singleton earlier last ih =>
    obtain ⟨hearlier, -, hbefore⟩ := List.pairwise_append.mp hsorted
    have hfollows := ih last.1 hearlier fun visit hv => hbefore visit hv last (by simp)
    have hturn := hfollows.turn (hn last.1) last.2
    rw [visit, List.foldl_append]
    exact hturn.later (hgrows _ _ (hlast last (by simp)))

end Reader

lemma Path.contiguous {s s' r : System σ} {moments : List (Moment σ)} (h : Path s moments s')
    {bus : BusId} {k n first : ℕ} {events : List EventMessage}
    (hk : moments[k]? = some ⟨.published bus first events, r⟩) (hkn : k < n) :
    ((((s.after (moments.take n)).bus bus).log).drop first).take events.length =
      Bus.entriesFrom first events := by
  obtain ⟨hturn, hr⟩ := h.turn_at hk
  have hlog := hturn.log_eq bus
  obtain ⟨rest, hrest⟩ := (h.between hkn).log_grows bus
  cases hturn with
  | published _ hne =>
    rw [← hrest, hr, hlog, Incident.batch, if_pos rfl, List.append_assoc, List.drop_left,
      List.take_left' (Bus.length_entriesFrom _ _)]

structure Legible (bus : BusId) (moments : List (Moment σ)) (logAt : ℕ → List TrackedEvent) :
    Prop where
  numbered : ∀ n, Bus.Numbered (logAt n)
  head : ∀ n, covered (headToken? (logAt n)) = (logAt n).length
  grows : ∀ m n, m ≤ n → logAt m <+: logAt n
  batches : ∀ n, logAt n = Bus.entriesFrom 0 ((moments.take n).flatMap (·.incident.batch bus))
  contiguous : ∀ k n first events r, moments[k]? = some ⟨.published bus first events, r⟩ → k < n →
    ((logAt n).drop first).take events.length = Bus.entriesFrom first events
  pages : ∀ n token size, (readLog (logAt n) token size).map TrackedEvent.token =
    List.range' (covered token) (min size ((logAt n).length - covered token))
  begins : ∀ (visits : List (ℕ × ℕ)) n, visits.Pairwise (·.1 ≤ ·.1) →
    (∀ visit ∈ visits, visit.1 ≤ n) → (Reader.visit logAt visits).read <+: logAt n
  page_empty_iff : ∀ (visits : List (ℕ × ℕ)) n size, visits.Pairwise (·.1 ≤ ·.1) →
    (∀ visit ∈ visits, visit.1 ≤ n) → 1 ≤ size →
    (readLog (logAt n) (Reader.visit logAt visits).token size = [] ↔
      (Reader.visit logAt visits).read = logAt n)

/-- Nothing that happens at a bus, deliveries inside deliveries and failures included, disturbs its
log or those who read it. -/
theorem History.log_legible {s₀ s : System σ} {moments : List (Moment σ)}
    (h : History s₀ moments s) (bus : BusId) (hnew : (s₀.bus bus).log = []) :
    Legible bus moments fun n => ((s₀.after (moments.take n)).bus bus).log := by
  have hbatches : ∀ n, ((s₀.after (moments.take n)).bus bus).log =
      Bus.entriesFrom 0 ((moments.take n).flatMap (·.incident.batch bus)) := by
    intro n
    rw [(h.path.upTo n).log_eq bus, hnew]
    rfl
  have hnumbered : ∀ n, Bus.Numbered ((s₀.after (moments.take n)).bus bus).log :=
    fun n => Bus.Extends.numbered ⟨_, hbatches n⟩
  have hgrows : ∀ m n, m ≤ n → ((s₀.after (moments.take m)).bus bus).log <+:
      ((s₀.after (moments.take n)).bus bus).log :=
    fun m n hmn => (h.path.between hmn).log_grows bus
  have hfollows := Reader.follows_visit hnumbered hgrows
  exact {
    numbered := hnumbered
    head := fun n => covered_headToken? (hnumbered n)
    grows := hgrows
    batches := hbatches
    contiguous := fun _ _ _ _ _ hk hkn => h.path.contiguous hk hkn
    pages := fun n token size => by
      rw [(readFrom_readLog (hnumbered n) token size).tokens_eq, readLog, List.length_take,
        List.length_drop]
    begins := fun visits n hs hl => (hfollows visits n hs hl).begins
    page_empty_iff := fun visits n size hs hl h => (hfollows visits n hs hl).page_eq_nil_iff h }

namespace Sample

def rejected : Outcome := .error (.report "rejected")

def rejecting : Program Unit Outcome := do
  let _ ← Program.subscribe 0 fun events => do
    if events.length = 2 then
      let _ ← Program.publish 0 [event "third"]
      return rejected
    else return .ok ()
  Program.publish 0 [event "first", event "second"]

end Sample

theorem sample_log_legible : ∃ s moments,
    System.run 3 Sample.rejecting { shared := () } = some (Sample.rejected, s) ∧
      (s.bus 0).log = Bus.entriesFrom 0
        [Sample.event "first", Sample.event "second", Sample.event "third"] ∧
      History { shared := () } moments s ∧
      Legible 0 moments fun n =>
        ((System.after { shared := () } (moments.take n)).bus 0).log := by
  have hrun : ∃ s, System.run 3 Sample.rejecting { shared := () } = some (Sample.rejected, s) ∧
      (s.bus 0).log = Bus.entriesFrom 0
        [Sample.event "first", Sample.event "second", Sample.event "third"] := ⟨_, rfl, rfl⟩
  obtain ⟨s, hs, hlog⟩ := hrun
  obtain ⟨moments, hm⟩ := run_iff_executes.mp hs
  have h : History { shared := () } moments s := History.program .start hm
  exact ⟨s, moments, hs, hlog, h, h.log_legible 0 rfl⟩

end EventProcessing
