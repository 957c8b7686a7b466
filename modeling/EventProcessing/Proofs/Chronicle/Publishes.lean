import EventProcessing.Proofs.Chronicle

/-! Where a publish stands among the moments: what it does is one block, and no moment outside of
the block is of this publish. -/

namespace EventProcessing

variable {σ α : Type}

namespace System

abbrev extent (s : System σ) (bus : BusId) : ℕ := (s.bus bus).log.length

end System

lemma Turns.extent_le {s s' : System σ} {incident : Incident σ} (h : Turns s incident s')
    (bus : BusId) : s.extent bus ≤ s'.extent bus := by
  rw [System.extent, System.extent, h.log_eq bus, List.length_append]
  exact Nat.le_add_right _ _

namespace Incident

def handover? : Incident σ → Option (Handover σ)
  | .handed h | .called h _ | .answered h _ => some h
  | _ => none

def OwnCall (own : Option (Handover σ)) (incident : Incident σ) : Prop :=
  ∃ h call, own = some h ∧ incident = .called h call

def OfPublish (bus : BusId) (first : ℕ) (incident : Incident σ) : Prop :=
  ∃ h, incident.handover? = some h ∧ h.bus = bus ∧ h.first = first

lemma publish?_of_handover {incident : Incident σ} {h : Handover σ}
    (hh : incident.handover? = some h) : incident.publish? = some (h.bus, h.first) := by
  cases incident <;> cases hh <;> rfl

end Incident

structure Begun (bus : BusId) (first : ℕ) (s : System σ) (moments : List (Moment σ))
    (s' : System σ) (i : ℕ) : Prop where
  le : s.extent bus ≤ first
  lt : first < s'.extent bus
  published : ∃ k ≤ i, ∃ events r, moments[k]? = some ⟨.published bus first events, r⟩

structure Dated (own : Incident σ → Prop) (s : System σ) (moments : List (Moment σ))
    (s' : System σ) : Prop where
  grows : ∀ bus, s.extent bus ≤ s'.extent bus
  own_or_begun : ∀ i m bus first, moments[i]? = some m →
    m.incident.publish? = some (bus, first) →
      own m.incident ∨ Begun bus first s moments s' i

structure Block (moments : List (Moment σ)) (bus : BusId) (first : ℕ) (events : List EventMessage)
    (r : System σ) (depth : ℕ) (pre body : List (Moment σ)) (outcome : Outcome) (r' : System σ)
    (post : List (Moment σ)) : Prop where
  eq : moments = pre ++ (publishing bus first events r body outcome r' ++ post)
  hands : Hands (Delivers depth) bus first events (r.bus bus).subscriptions r outcome r' body
  before : ∀ m ∈ pre, m.incident.publish? ≠ some (bus, first)
  after : ∀ m ∈ post, m.incident.publish? ≠ some (bus, first)

def Located (moments : List (Moment σ)) : Prop :=
  ∀ bus first events r, ⟨.published bus first events, r⟩ ∈ moments →
    ∃ depth pre body outcome r' post,
      Block moments bus first events r depth pre body outcome r' post

def Old (own : Incident σ → Prop) (s : System σ) : Prop :=
  ∀ incident, own incident →
    ∃ h, incident.handover? = some h ∧ h.first < s.extent h.bus

structure Nested (own : Incident σ → Prop) (s : System σ) (moments : List (Moment σ))
    (s' : System σ) : Prop where
  dated : Dated own s moments s'
  located : Old own s → Located moments

lemma getElem?_append_cases {xs ys : List α} {i : ℕ} {x : α} (h : (xs ++ ys)[i]? = some x) :
    xs[i]? = some x ∨ ∃ j, i = xs.length + j ∧ ys[j]? = some x := by
  rcases Nat.lt_or_ge i xs.length with hi | hi
  · rw [List.getElem?_append_left hi] at h
    exact .inl h
  · rw [List.getElem?_append_right hi] at h
    exact .inr ⟨i - xs.length, by omega, h⟩

section Stretches

variable {own own' : Incident σ → Prop} {a b c s s' : System σ} {xs ys moments : List (Moment σ)}
  {bus : BusId} {first : ℕ}

namespace Begun

variable {i : ℕ}

lemma append_left (h : Begun bus first a xs b i) (hb : b.extent bus ≤ c.extent bus) :
    Begun bus first a (xs ++ ys) c i := by
  obtain ⟨k, hk, events, r, hp⟩ := h.published
  have hlen := (List.getElem?_eq_some_iff.mp hp).1
  exact ⟨h.le, h.lt.trans_le hb, k, hk, events, r, by rwa [List.getElem?_append_left hlen]⟩

lemma append_right (h : Begun bus first b ys c i) (ha : a.extent bus ≤ b.extent bus) :
    Begun bus first a (xs ++ ys) c (xs.length + i) := by
  obtain ⟨k, hk, events, r, hp⟩ := h.published
  refine ⟨ha.trans h.le, h.lt, xs.length + k, by omega, events, r, ?_⟩
  rwa [List.getElem?_append_right (by omega), Nat.add_sub_cancel_left]

end Begun

namespace Old

lemma later (ho : Old own s) (hg : ∀ bus, s.extent bus ≤ s'.extent bus) : Old own s' := by
  intro incident hi
  obtain ⟨h, hh, hlt⟩ := ho incident hi
  exact ⟨h, hh, hlt.trans_le (hg h.bus)⟩

lemma not_published (ho : Old own s) {events : List EventMessage} :
    ¬ own (.published bus first events) := by
  intro hi
  obtain ⟨h, hh, -⟩ := ho _ hi
  cases hh

lemma apart (ho : Old own s) (hf : s.extent bus ≤ first) (incident : Incident σ)
    (hi : own incident) : incident.publish? ≠ some (bus, first) := by
  obtain ⟨h, hh, hlt⟩ := ho incident hi
  rw [Incident.publish?_of_handover hh]
  rintro heq
  cases heq
  exact absurd hf hlt.not_ge

end Old

namespace Dated

lemma append (h : Dated own a xs b) (h' : Dated own b ys c) : Dated own a (xs ++ ys) c := by
  refine ⟨fun bus => (h.grows bus).trans (h'.grows bus), fun i m bus first hm hp => ?_⟩
  rcases getElem?_append_cases hm with hx | ⟨j, rfl, hy⟩
  · exact (h.own_or_begun i m bus first hx hp).imp_right fun hb => hb.append_left (h'.grows bus)
  · exact (h'.own_or_begun j m bus first hy hp).imp_right fun hb => hb.append_right (h.grows bus)

lemma mono (h : Dated own s moments s') (ho : ∀ incident, own incident → own' incident) :
    Dated own' s moments s' :=
  ⟨h.grows, fun i m bus first hm hp =>
    (h.own_or_begun i m bus first hm hp).imp_left (ho m.incident)⟩

lemma own_moment {incident : Incident σ} (hi : own incident) :
    Dated own s [⟨incident, s⟩] s := by
  refine ⟨fun _ => le_rfl, fun i m bus first hm _ => ?_⟩
  rw [List.mem_singleton.mp (List.mem_of_getElem? hm)]
  exact .inl hi

lemma range (h : Dated own s moments s') (ho : Old own s) {events : List EventMessage}
    {r : System σ} (hp : ⟨.published bus first events, r⟩ ∈ moments) :
    s.extent bus ≤ first ∧ first < s'.extent bus := by
  obtain ⟨i, hi⟩ := List.mem_iff_getElem?.mp hp
  rcases h.own_or_begun i _ bus first hi rfl with hown | hbegun
  · exact absurd hown ho.not_published
  · exact ⟨hbegun.le, hbegun.lt⟩

lemma apart (h : Dated own s moments s')
    (ho : ∀ incident, own incident → incident.publish? ≠ some (bus, first))
    (hout : first < s.extent bus ∨ s'.extent bus ≤ first) :
    ∀ m ∈ moments, m.incident.publish? ≠ some (bus, first) := by
  intro m hm hp
  obtain ⟨i, hi⟩ := List.mem_iff_getElem?.mp hm
  rcases h.own_or_begun i m bus first hi hp with hown | hbegun
  · exact ho _ hown hp
  · have hle := hbegun.le
    have hlt := hbegun.lt
    omega

end Dated

namespace Block

variable {events : List EventMessage} {r r' : System σ} {depth : ℕ} {outcome : Outcome}
  {pre body post : List (Moment σ)}

lemma append_left (h : Block xs bus first events r depth pre body outcome r' post)
    (hy : ∀ m ∈ ys, m.incident.publish? ≠ some (bus, first)) :
    Block (xs ++ ys) bus first events r depth pre body outcome r' (post ++ ys) := by
  refine ⟨by rw [h.eq]; simp only [List.append_assoc], h.hands, h.before, fun m hm => ?_⟩
  exact (List.mem_append.mp hm).elim (h.after m) (hy m)

lemma append_right (h : Block ys bus first events r depth pre body outcome r' post)
    (hx : ∀ m ∈ xs, m.incident.publish? ≠ some (bus, first)) :
    Block (xs ++ ys) bus first events r depth (xs ++ pre) body outcome r' post := by
  refine ⟨by rw [h.eq]; simp only [List.append_assoc], h.hands, fun m hm => ?_, h.after⟩
  exact (List.mem_append.mp hm).elim (hx m) (h.before m)

end Block

namespace Nested

lemma append (h : Nested own a xs b) (h' : Nested own b ys c) : Nested own a (xs ++ ys) c := by
  refine ⟨h.dated.append h'.dated, fun ho bus first events r hp => ?_⟩
  -- What begins in one of the two stretches has no moments in the other.
  rcases List.mem_append.mp hp with hp | hp
  · obtain ⟨depth, pre, body, outcome, r', post, hb⟩ := h.located ho bus first events r hp
    obtain ⟨hle, hlt⟩ := h.dated.range ho hp
    exact ⟨depth, pre, body, outcome, r', post ++ ys,
      hb.append_left (h'.dated.apart (ho.apart hle) (.inl hlt))⟩
  · have hob := ho.later h.dated.grows
    obtain ⟨depth, pre, body, outcome, r', post, hb⟩ := h'.located hob bus first events r hp
    obtain ⟨hle, hlt⟩ := h'.dated.range hob hp
    exact ⟨depth, xs ++ pre, body, outcome, r', post,
      hb.append_right (h.dated.apart (ho.apart ((h.dated.grows bus).trans hle)) (.inr hle))⟩

lemma mono (h : Nested own s moments s') (ho : ∀ incident, own incident → own' incident) :
    Nested own' s moments s' :=
  ⟨h.dated.mono ho, fun hold => h.located fun incident hi => hold incident (ho incident hi)⟩

lemma nil : Nested own s [] s :=
  ⟨⟨fun _ => le_rfl, fun i m bus first hm => by cases hm⟩,
    fun _ bus first events r hp => by cases hp⟩

lemma own_moment {incident : Incident σ} (hi : own incident) :
    Nested own s [⟨incident, s⟩] s := by
  refine ⟨.own_moment hi, fun ho bus first events r hp => ?_⟩
  cases List.mem_singleton.mp hp
  exact absurd hi ho.not_published

lemma turn {incident : Incident σ} (h : Turns s incident s') (hi : incident.publish? = none) :
    Nested own s [⟨incident, s'⟩] s' := by
  refine ⟨⟨h.extent_le, fun i m bus first hm hp => ?_⟩, fun ho bus first events r hp => ?_⟩
  · rw [List.mem_singleton.mp (List.mem_of_getElem? hm), hi] at hp
    cases hp
  · cases List.mem_singleton.mp hp
    cases hi

lemma of_hands {D : Delivering σ} (hd : ∀ h s outcome s' during, D h s outcome s' during →
      Nested (Incident.OwnCall (some h)) s during s') {events : List EventMessage}
    {subscriptions : List (ℕ × Subscriber σ)} {outcome : Outcome} {body : List (Moment σ)}
    (h : Hands D bus first events subscriptions s outcome s' body) :
    Nested (Incident.OfPublish bus first) s body s' := by
  have hone : ∀ number subscriber a outcome b during,
      D ⟨bus, first, events, number, subscriber⟩ a outcome b during →
        Nested (Incident.OfPublish bus first) a
          (Handover.moments ⟨bus, first, events, number, subscriber⟩ a outcome b during) b := by
    intro number subscriber a outcome b during hh
    refine (own_moment ⟨_, rfl, rfl, rfl⟩).append
      (((hd _ _ _ _ _ hh).mono ?_).append (own_moment ⟨_, rfl, rfl, rfl⟩))
    rintro _ ⟨h, call, hown, rfl⟩
    cases hown
    exact ⟨_, rfl, rfl, rfl⟩
  induction h with
  | done => exact nil
  | failed h => exact hone _ _ _ _ _ _ h
  | next h _ ih => exact (hone _ _ _ _ _ _ h).append ih

end Nested

end Stretches

lemma extent_logged (s : System σ) (bus : BusId) (events : List EventMessage) :
    (s.logged bus events).extent bus = s.extent bus + events.length := by
  rw [System.extent, System.logged, System.bus_setBus_self]
  change ((s.bus bus).log ++ _).length = _
  rw [List.length_append, Bus.length_entriesFrom]

lemma subscriptions_logged (s : System σ) (bus : BusId) (events : List EventMessage) :
    ((s.logged bus events).bus bus).subscriptions = (s.bus bus).subscriptions := by
  rw [System.logged, System.bus_setBus_self]
  rfl

section Publishing

variable {own : Incident σ → Prop} {s s' : System σ} {bus : BusId} {events : List EventMessage}
  {outcome : Outcome} {body : List (Moment σ)} (hne : events ≠ [])
  (hbody : Nested (Incident.OfPublish bus (s.extent bus)) (s.logged bus events) body s')

include hne

lemma extent_lt_logged : s.extent bus < (s.logged bus events).extent bus := by
  rw [extent_logged]
  exact Nat.lt_add_of_pos_right (List.length_pos_iff.mpr hne)

include hbody

lemma dated_publishing :
    Dated own s (publishing bus (s.extent bus) events (s.logged bus events) body outcome s')
      s' := by
  have hpublished : Dated (fun incident => incident.publish? = some (bus, s.extent bus)) s
      [⟨.published bus (s.extent bus) events, s.logged bus events⟩] (s.logged bus events) := by
    refine ⟨(Turns.published bus hne).extent_le, fun i m other first hm _ => ?_⟩
    rw [List.mem_singleton.mp (List.mem_of_getElem? hm)]
    exact .inl rfl
  have hsettled : Dated (fun incident => incident.publish? = some (bus, s.extent bus)) s'
      [⟨.settled bus (s.extent bus) outcome, s'⟩] s' := Dated.own_moment rfl
  have hall := hpublished.append ((hbody.dated.mono fun incident => ?_).append hsettled)
  · -- For the stretch as a whole the publish has begun, with its first moment.
    refine ⟨hall.grows, fun i m other first hm hp => .inr ?_⟩
    rcases hall.own_or_begun i m other first hm hp with hown | hbegun
    · cases hown.symm.trans hp
      exact ⟨le_rfl, (extent_lt_logged hne).trans_le (hbody.dated.grows bus), 0, Nat.zero_le i,
        events, _, rfl⟩
    · exact hbegun
  · rintro ⟨h, hh, rfl, hf⟩
    rw [Incident.publish?_of_handover hh, hf]

lemma located_publishing {depth : ℕ}
    (hhands : Hands (Delivers depth) bus (s.extent bus) events (s.bus bus).subscriptions
      (s.logged bus events) outcome s' body) :
    Located (publishing bus (s.extent bus) events (s.logged bus events) body outcome s') := by
  intro other first batch r hp
  rcases List.mem_cons.mp hp with hp | hp
  · cases hp
    refine ⟨depth, [], body, outcome, s', [], (List.append_nil _).symm, ?_, ?_, ?_⟩
    · rwa [subscriptions_logged]
    · exact fun m hm => nomatch hm
    · exact fun m hm => nomatch hm
  · rcases List.mem_append.mp hp with hp | hp
    · have hold : Old (Incident.OfPublish bus (s.extent bus)) (s.logged bus events) := by
        rintro incident ⟨h, hh, rfl, hf⟩
        exact ⟨h, hh, hf ▸ extent_lt_logged hne⟩
      obtain ⟨depth, pre, inner, answer, r', post, hb⟩ := hbody.located hold other first batch r hp
      have hrange := hbody.dated.range hold hp
      -- The publish at work is older than the one in its body.
      have hother : some (bus, s.extent bus) ≠ some (other, first) := by
        intro heq
        cases heq
        exact absurd hrange.1 (extent_lt_logged hne).not_ge
      have hpublished : ∀ m ∈ [(⟨.published bus (s.extent bus) events, s.logged bus events⟩ :
          Moment σ)], m.incident.publish? ≠ some (other, first) := by
        intro m hm
        rwa [List.mem_singleton.mp hm]
      have hsettled : ∀ m ∈ [(⟨.settled bus (s.extent bus) outcome, s'⟩ : Moment σ)],
          m.incident.publish? ≠ some (other, first) := by
        intro m hm
        rwa [List.mem_singleton.mp hm]
      exact ⟨depth, _, inner, answer, r', _, (hb.append_left hsettled).append_right hpublished⟩
    · cases List.mem_singleton.mp hp

end Publishing

lemma chronicles_nested : Chronicles fun (own : Option (Handover σ)) s moments s' =>
    Nested (Incident.OwnCall own) s moments s' where
  nil _ _ := .nil
  append _ _ _ _ _ _ h h' := h.append h'
  turn _ _ _ _ h hi := .turn h hi
  called h _ call := .own_moment ⟨h, call, rfl, rfl⟩
  publish _ _ _ _ _ _ _ _ hne h :=
    have hbody := Nested.of_hands (fun _ _ _ _ _ hd => hd.2) h
    ⟨dated_publishing hne hbody, fun _ => located_publishing hne hbody
      (h.mono fun _ _ _ _ _ hd => hd.1)⟩

theorem History.located {s₀ s : System σ} {moments : List (Moment σ)}
    (h : History s₀ moments s) : Located moments := by
  refine (chronicles_nested.of_history h).located ?_
  rintro incident ⟨h, call, hown, -⟩
  cases hown

lemma History.begun {s₀ s : System σ} {moments : List (Moment σ)} (h : History s₀ moments s)
    {i first : ℕ} {bus : BusId} {m : Moment σ} (hi : moments[i]? = some m)
    (hp : m.incident.publish? = some (bus, first)) : Begun bus first s₀ moments s i := by
  rcases (chronicles_nested.of_history h).dated.own_or_begun i m _ _ hi hp with hown | hbegun
  · obtain ⟨_, _, hown, -⟩ := hown
    cases hown
  · exact hbegun

end EventProcessing
