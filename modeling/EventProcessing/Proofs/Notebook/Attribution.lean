import EventProcessing.Proofs.Notebook.Batch

/-! Which event of a batch each note is about. Notes on the dispatch of an event stand between its
ingestion and the next. -/

namespace EventProcessing

variable {σ : Type}

/-- Notes with the numbers of the events they are about; the first event has the number `n`. -/
def attributed : ℕ → List Note → List (ℕ × Note)
  | _, [] => []
  | n, entry :: rest =>
    (n + (ingestions [entry]).length - 1, entry) ::
      attributed (n + (ingestions [entry]).length) rest

structure Call where
  handler : List ℕ
  index : ℕ
  event : EventMessage

def departure? : ℕ × Note → Option (ℕ × Outcome)
  | (n, .left _ outcome) => some (n, outcome)
  | _ => none

def entrance? : ℕ × Note → Option ℕ
  | (n, .entered _) => some n
  | _ => none

def call? : ℕ × Note → Option Call
  | (n, .called handler event) => some ⟨handler, n, event⟩
  | _ => none

def Note.onDispatch : Note → Bool
  | .entered _ => true
  | .called _ _ => true
  | .left _ _ => true
  | _ => false

def departures (n : ℕ) (notes : List Note) : List (ℕ × Outcome) :=
  (attributed n notes).filterMap departure?

def entrances (n : ℕ) (notes : List Note) : List ℕ := (attributed n notes).filterMap entrance?

def callsFrom (n : ℕ) (notes : List Note) : List Call := (attributed n notes).filterMap call?

lemma attributed_append (n : ℕ) (xs ys : List Note) :
    attributed n (xs ++ ys) = attributed n xs ++ attributed (n + (ingestions xs).length) ys := by
  induction xs generalizing n with
  | nil => rfl
  | cons entry rest ih =>
    have hl : (ingestions (entry :: rest)).length =
        (ingestions [entry]).length + (ingestions rest).length := by
      rw [← List.length_append, ← ingestions_append]
      rfl
    rw [List.cons_append, attributed, ih, hl, attributed, List.cons_append, Nat.add_assoc]

lemma departures_append (n : ℕ) (xs ys : List Note) :
    departures n (xs ++ ys) = departures n xs ++ departures (n + (ingestions xs).length) ys := by
  rw [departures, attributed_append, List.filterMap_append]
  rfl

lemma entrances_append (n : ℕ) (xs ys : List Note) :
    entrances n (xs ++ ys) = entrances n xs ++ entrances (n + (ingestions xs).length) ys := by
  rw [entrances, attributed_append, List.filterMap_append]
  rfl

lemma callsFrom_append (n : ℕ) (xs ys : List Note) :
    callsFrom n (xs ++ ys) = callsFrom n xs ++ callsFrom (n + (ingestions xs).length) ys := by
  rw [callsFrom, attributed_append, List.filterMap_append]
  rfl

section Calls

variable (n : ℕ) (places : List (List ℕ)) (event : EventMessage)

lemma attributed_calls : attributed n (places.map (Note.called · event)) =
    places.map fun place => (n - 1, .called place event) := by
  induction places with
  | nil => rfl
  | cons place rest ih => exact congrArg _ ih

lemma departures_calls : departures n (places.map (Note.called · event)) = [] := by
  rw [departures, attributed_calls, List.filterMap_map, List.filterMap_eq_nil_iff]
  exact fun _ _ => rfl

lemma entrances_calls : entrances n (places.map (Note.called · event)) = [] := by
  rw [entrances, attributed_calls, List.filterMap_map, List.filterMap_eq_nil_iff]
  exact fun _ _ => rfl

lemma callsFrom_calls : callsFrom (n + 1) (places.map (Note.called · event)) =
    places.map (⟨·, n, event⟩) := by
  rw [callsFrom, attributed_calls, List.filterMap_map, ← List.filterMap_eq_map]
  rfl

end Calls

namespace Dispatched

variable {pipeline : Pipeline σ} {chain : List (Interceptor σ)} {segment : Segment}
  {event : EventMessage} {outcome : Outcome} {notes : List Note}

lemma departures_eq (h : Dispatched pipeline chain segment event outcome notes) (n : ℕ) :
    departures (n + 1) notes = [(n, outcome)] := by
  obtain ⟨places, rfl⟩ := h.places
  change departures (n + 1) (_ ++ _) = _
  rw [departures_append, departures_calls, ingestions_map_called]
  rfl

lemma entrances_eq (h : Dispatched pipeline chain segment event outcome notes) (n : ℕ) :
    entrances (n + 1) notes = [n] := by
  obtain ⟨places, rfl⟩ := h.places
  change n :: entrances (n + 1) (_ ++ _) = _
  rw [entrances_append, entrances_calls, ingestions_map_called]
  rfl

lemma outcome_eq (h : Dispatched pipeline chain segment event outcome notes)
    (hc : ∀ interceptor ∈ chain, interceptor.Passes) (hs : pipeline.invoker.Swallows) :
    outcome = .ok () := by
  obtain ⟨_, -, -, hp⟩ := h
  exact (hp hc).2 hs

lemma callsFrom_eq (h : Dispatched pipeline chain segment event outcome notes)
    (hc : ∀ interceptor ∈ chain, interceptor.Passes) (hs : pipeline.invoker.Swallows) (n : ℕ) :
    callsFrom (n + 1) notes =
      (pipeline.invoker.takers event segment []).map (⟨·, n, event⟩) := by
  obtain rfl := h.outcome_eq hc hs
  obtain ⟨_, rfl, -, hp⟩ := h
  obtain ⟨places, rfl, -, hall⟩ := (hp hc).1
  rw [← hall rfl]
  change callsFrom (n + 1) (_ ++ _) = _
  rw [callsFrom_append, callsFrom_calls, ingestions_map_called]
  exact List.append_nil _

end Dispatched

lemma filterMap_attributed_eq_nil {β : Type} {f : ℕ × Note → Option β} {notes : List Note}
    (hf : ∀ n entry, entry.onDispatch = false → f (n, entry) = none)
    (h : ∀ entry ∈ notes, entry.onDispatch = false) (m : ℕ) :
    (attributed m notes).filterMap f = [] := by
  induction notes generalizing m with
  | nil => rfl
  | cons entry rest ih =>
    rw [attributed, List.filterMap_cons_none (hf _ _ (h entry List.mem_cons_self))]
    exact ih (fun other ho => h other (List.mem_cons_of_mem _ ho)) _

lemma onDispatch_of_closes {pending : List ℕ} {failure answer : Option Failure}
    {closing : List Note} (h : Closes pending failure answer closing) :
    ∀ entry ∈ closing, entry.onDispatch = false := by
  cases h <;> simp [reports, Note.onDispatch]

lemma onDispatch_of_decides {pipeline : Pipeline σ} {events : List EventMessage}
    {answer : Option Failure} {outcome : Outcome} {verdict : List Note}
    (h : Decides pipeline events answer outcome verdict) :
    ∀ entry ∈ verdict, entry.onDispatch = false := by
  cases h <;> simp [Note.onDispatch]

lemma ingestions_of_closes {pending : List ℕ} {failure answer : Option Failure}
    {closing : List Note} (h : Closes pending failure answer closing) :
    ingestions closing = [] := by
  cases h <;> exact ingestions_reports _ _

namespace Ingests

variable {pipeline : Pipeline σ} {chain : List (Interceptor σ)} {segment : Segment} {n : ℕ}
  {events : List EventMessage} {notes : List Note} {pending : List ℕ} {failure : Option Failure}

lemma ingestions_handled {event : EventMessage} {outcome : Outcome} {inner : List Note}
    (hd : Dispatched pipeline chain segment event outcome inner) (more : List Note) :
    ingestions (.ingested event :: (inner ++ more)) = event :: ingestions more := by
  rw [ingestions_cons, ingestions_append, hd.ingestions_eq]
  rfl

lemma entrances_eq (h : Ingests pipeline chain segment n events notes pending failure) (m : ℕ) :
    entrances m notes = (((ingestions notes).zipIdx m).filter fun entry =>
      pipeline.invoker.canHandle entry.1 segment).map Prod.snd := by
  induction h generalizing m with
  | done n => rfl
  | @ignored n event _ notes _ _ hc hr ih =>
    change entrances (m + 1) notes = (((event :: ingestions notes).zipIdx m).filter _).map _
    rw [List.zipIdx_cons, List.filter_cons_of_neg (by simp [hc])]
    exact ih (m + 1)
  | handled hc hd hr ih =>
    rw [ingestions_handled hd, List.zipIdx_cons, List.filter_cons_of_pos (by simp [hc])]
    change entrances (m + 1) (_ ++ _) = _
    rw [entrances_append, hd.entrances_eq, hd.ingestions_eq]
    exact congrArg _ (ih (m + 1))
  | failed hc hd =>
    rw [ingestions_handled hd, List.zipIdx_cons, List.filter_cons_of_pos (by simp [hc])]
    change entrances (m + 1) (_ ++ _) = _
    rw [entrances_append, hd.entrances_eq]
    rfl

lemma failure_eq_none (h : Ingests pipeline chain segment n events notes pending failure)
    (hc : ∀ interceptor ∈ chain, interceptor.Passes) (hs : pipeline.invoker.Swallows) :
    failure = none := by
  induction h with
  | done n => rfl
  | ignored _ hr ih => exact ih
  | handled _ hd hr ih => exact ih
  | failed _ hd => cases hd.outcome_eq hc hs

lemma callsFrom_eq (h : Ingests pipeline chain segment n events notes pending failure)
    (hc : ∀ interceptor ∈ chain, interceptor.Passes) (hs : pipeline.invoker.Swallows) (m : ℕ) :
    callsFrom m notes = (events.zipIdx m).flatMap fun entry =>
      (pipeline.invoker.takers entry.1 segment []).map (⟨·, entry.2, entry.1⟩) := by
  induction h generalizing m with
  | done n => rfl
  | @ignored n event events notes _ _ hcan hr ih =>
    rw [List.zipIdx_cons, List.flatMap_cons,
      Invoker.takers_of_canHandle_eq_false event segment [] _ hcan]
    exact ih (m + 1)
  | handled hcan hd hr ih =>
    rw [List.zipIdx_cons, List.flatMap_cons]
    change callsFrom (m + 1) (_ ++ _) = _
    rw [callsFrom_append, hd.callsFrom_eq hc hs, hd.ingestions_eq]
    exact congrArg _ (ih (m + 1))
  | failed _ hd => cases hd.outcome_eq hc hs

section Whole

variable {outcome : Outcome} {answer : Option Failure} {body closing verdict : List Note}
  (hc : Closes pending failure answer closing) (hd : Decides pipeline events answer outcome verdict)

include hc hd

lemma ingestions_whole :
    ingestions (.began :: (body ++ (closing ++ verdict))) = ingestions body := by
  have hv : ingestions verdict = [] := by cases hd <;> rfl
  change ingestions (body ++ (closing ++ verdict)) = _
  rw [ingestions_append, ingestions_append, ingestions_of_closes hc, hv]
  exact List.append_nil _

lemma filterMap_attributed_whole {β : Type} {f : ℕ × Note → Option β}
    (hf : ∀ n entry, entry.onDispatch = false → f (n, entry) = none) (m : ℕ) :
    (attributed m (.began :: (body ++ (closing ++ verdict)))).filterMap f =
      (attributed m body).filterMap f := by
  have hclosing := filterMap_attributed_eq_nil hf (onDispatch_of_closes hc)
  have hverdict := filterMap_attributed_eq_nil hf (onDispatch_of_decides hd)
  have hbegan : f (m - 1, .began) = none := hf _ _ rfl
  change ((m - 1, .began) :: attributed m (body ++ (closing ++ verdict))).filterMap f = _
  rw [List.filterMap_cons_none hbegan, attributed_append, attributed_append,
    List.filterMap_append, List.filterMap_append, hclosing, hverdict]
  exact List.append_nil _

lemma departures_whole (m : ℕ) :
    departures m (.began :: (body ++ (closing ++ verdict))) = departures m body := by
  apply filterMap_attributed_whole hc hd
  intro n entry h
  cases entry <;> simp_all [departure?, Note.onDispatch]

lemma entrances_whole (m : ℕ) :
    entrances m (.began :: (body ++ (closing ++ verdict))) = entrances m body := by
  apply filterMap_attributed_whole hc hd
  intro n entry h
  cases entry <;> simp_all [entrance?, Note.onDispatch]

lemma callsFrom_whole (m : ℕ) :
    callsFrom m (.began :: (body ++ (closing ++ verdict))) = callsFrom m body := by
  apply filterMap_attributed_whole hc hd
  intro n entry h
  cases entry <;> simp_all [call?, Note.onDispatch]

end Whole

end Ingests

end EventProcessing
