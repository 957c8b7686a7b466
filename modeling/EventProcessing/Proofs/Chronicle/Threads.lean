import EventProcessing.Proofs.Chronicle.Publishes

/-! The moments of one publish, with all others left out: its batch goes from subscription to
subscription, and while one has it, nothing happens but calls for its events, in their order. -/

namespace EventProcessing

variable {σ α : Type}

def thread (bus : BusId) (first : ℕ) (moments : List (Moment σ)) : List (Moment σ) :=
  moments.filter fun m => decide (m.incident.publish? = some (bus, first))

section

variable {bus : BusId} {first : ℕ} {xs ys : List (Moment σ)} {m : Moment σ}

@[simp] lemma thread_nil : thread bus first ([] : List (Moment σ)) = [] := rfl

@[simp] lemma thread_append : thread bus first (xs ++ ys) =
    thread bus first xs ++ thread bus first ys := List.filter_append _ _

lemma thread_cons_of_eq (h : m.incident.publish? = some (bus, first)) :
    thread bus first (m :: xs) = m :: thread bus first xs :=
  List.filter_cons_of_pos (decide_eq_true h)

lemma thread_eq_nil (h : ∀ m ∈ xs, m.incident.publish? ≠ some (bus, first)) :
    thread bus first xs = [] :=
  List.filter_eq_nil_iff.mpr fun m hm => by simpa using h m hm

end

def Handover.Calls (h : Handover σ) (lo hi : ℕ) (moments : List (Moment σ)) : Prop :=
  ∃ calls : List Call, moments.map Moment.incident = calls.map (.called h ·) ∧
    calls.Pairwise (·.index ≤ ·.index) ∧ ∀ call ∈ calls, lo ≤ call.index ∧ call.index ≤ hi

namespace Handover.Calls

variable {h : Handover σ} {lo hi : ℕ} {moments : List (Moment σ)}

lemma nil : h.Calls lo hi [] := ⟨[], rfl, .nil, fun _ hc => by cases hc⟩

lemma cons {call : Call} {s : System σ} (hl : lo ≤ call.index) (hh : call.index ≤ hi)
    (hr : h.Calls call.index hi moments) : h.Calls lo hi (⟨.called h call, s⟩ :: moments) := by
  obtain ⟨calls, heq, hsorted, hin⟩ := hr
  refine ⟨call :: calls, by rw [List.map_cons, List.map_cons, heq], ?_, ?_⟩
  · exact List.pairwise_cons.mpr ⟨fun later hm => (hin later hm).1, hsorted⟩
  · intro later hm
    rcases List.mem_cons.mp hm with rfl | hm
    · exact ⟨hl, hh⟩
    · exact ⟨hl.trans (hin later hm).1, (hin later hm).2⟩

end Handover.Calls

section Executes

variable {depth : ℕ} {h : Handover σ} {s s' : System σ}

section Answers

variable {request : Request σ} {reply : request.Reply} {moments : List (Moment σ)}
  (ha : Answers (Delivers depth) request s reply s' moments)

include ha

lemma Answers.nested : Nested (Incident.OwnCall none) s moments s' :=
  chronicles_nested.of_answers (fun _ _ _ _ _ hd => chronicles_nested.of_delivers hd) ha

lemma Answers.thread_eq_nil {bus : BusId} {first : ℕ} (hf : first < s.extent bus) :
    thread bus first moments = [] := by
  refine EventProcessing.thread_eq_nil (ha.nested.dated.apart ?_ (.inl hf))
  rintro incident ⟨h, call, hown, -⟩
  cases hown

end Answers

lemma Executes.calls {script : Script σ α} {value : α} {moments : List (Moment σ)}
    (he : Executes (Delivers depth) (some h) script s value s' moments) {lo hi : ℕ}
    (hw : script.Within lo hi) (ho : h.first < s.extent h.bus) :
    h.Calls lo hi (thread h.bus h.first moments) := by
  induction he generalizing lo with
  | done => exact .nil
  | ask ha _ ih =>
    -- What a request brings about is all of publishes that begin later.
    rw [thread_append, ha.thread_eq_nil ho]
    exact ih (hw _) (ho.trans_le (ha.nested.dated.grows h.bus))
  | @subscribe bus consumer next s _ _ _ _ ih =>
    rw [thread_append, EventProcessing.thread_eq_nil (by simp [Incident.publish?])]
    exact ih (hw _) (ho.trans_le ((Turns.subscribed bus (.consumer consumer)).extent_le h.bus))
  | @mark call next _ _ _ _ _ ih =>
    obtain ⟨hl, hh, hn⟩ := hw
    rw [thread_append, thread_cons_of_eq rfl]
    exact .cons hl hh (ih hn ho)

lemma System.within_script (s : System σ) (h : Handover σ) (hne : h.events ≠ []) :
    (s.script h).Within h.first (h.first + h.events.length - 1) := by
  have hpos : 0 < h.events.length := List.length_pos_iff.mpr hne
  obtain ⟨bus, first, events, number, subscriber⟩ := h
  cases subscriber with
  | consumer consumer => exact .ofProgram (by simp only at hpos ⊢; omega) _
  | processor id pipeline => exact pipeline.within_script .root _ first events hne

end Executes

def Voices : Delivering σ := fun h _ _ _ during =>
  h.Calls h.first (h.first + h.events.length - 1) during

lemma Delivers.voices {depth : ℕ} {h : Handover σ} {s s' : System σ} {outcome : Outcome}
    {during : List (Moment σ)} (hd : Delivers depth h s outcome s' during) (hne : h.events ≠ [])
    (ho : h.first < s.extent h.bus) :
    Voices h s outcome s' (thread h.bus h.first during) := by
  cases depth with
  | zero => exact hd.elim
  | succ depth => exact hd.calls (s.within_script h hne) ho

lemma Hands.thread {depth : ℕ} {bus : BusId} {first : ℕ} {events : List EventMessage}
    {subscriptions : List (ℕ × Subscriber σ)} {s s' : System σ} {outcome : Outcome}
    {body : List (Moment σ)}
    (h : Hands (Delivers depth) bus first events subscriptions s outcome s' body)
    (hne : events ≠ []) (hf : first < s.extent bus) :
    Hands Voices bus first events subscriptions s outcome s' (thread bus first body) := by
  have hone : ∀ number (subscriber : Subscriber σ) a answer b during,
      Delivers depth ⟨bus, first, events, number, subscriber⟩ a answer b during →
      EventProcessing.thread bus first
          (Handover.moments ⟨bus, first, events, number, subscriber⟩ a answer b during) =
        Handover.moments ⟨bus, first, events, number, subscriber⟩ a answer b
          (EventProcessing.thread bus first during) := by
    intro number subscriber a answer b during hd
    rw [Handover.moments, thread_cons_of_eq rfl, thread_append, thread_cons_of_eq rfl, thread_nil]
    rfl
  induction h with
  | done => exact .done
  | failed h =>
    rw [hone _ _ _ _ _ _ h]
    exact .failed (h.voices hne hf)
  | next h _ ih =>
    rw [thread_append, hone _ _ _ _ _ _ h]
    have hgrows := (chronicles_nested.of_delivers h).dated.grows bus
    exact .next (h.voices hne hf) (ih (hf.trans_le hgrows))

lemma Path.published {s s' r : System σ} {moments : List (Moment σ)} (h : Path s moments s')
    {bus : BusId} {first : ℕ} {events : List EventMessage}
    (hp : ⟨.published bus first events, r⟩ ∈ moments) :
    events ≠ [] ∧ r.extent bus = first + events.length := by
  obtain ⟨k, hk⟩ := List.mem_iff_getElem?.mp hp
  obtain ⟨hturn, -⟩ := h.turn_at hk
  cases hturn with
  | published _ hne => exact ⟨hne, extent_logged _ _ _⟩

theorem History.thread_eq {s₀ s r : System σ} {moments : List (Moment σ)}
    (h : History s₀ moments s) {bus : BusId} {first : ℕ} {events : List EventMessage}
    (hp : ⟨.published bus first events, r⟩ ∈ moments) :
    ∃ body outcome r', thread bus first moments = publishing bus first events r body outcome r' ∧
      Hands Voices bus first events (r.bus bus).subscriptions r outcome r' body := by
  obtain ⟨depth, pre, body, outcome, r', post, hb⟩ := h.located bus first events r hp
  obtain ⟨hne, hextent⟩ := h.path.published hp
  have hpos := List.length_pos_iff.mpr hne
  refine ⟨thread bus first body, outcome, r', ?_, hb.hands.thread hne (by omega)⟩
  rw [hb.eq, thread_append, thread_append, thread_eq_nil hb.before, thread_eq_nil hb.after,
    List.nil_append, List.append_nil, publishing, thread_cons_of_eq rfl, thread_append,
    thread_cons_of_eq rfl, thread_nil]
  rfl

end EventProcessing
