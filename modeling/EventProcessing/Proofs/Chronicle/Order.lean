import EventProcessing.Proofs.Chronicle.Deliveries

namespace EventProcessing

variable {σ : Type}

namespace Incident

def received (bus : BusId) (number : ℕ) : Incident σ → List ℕ
  | .handed h =>
    if h.bus = bus ∧ h.number = number then List.range' h.first h.events.length else []
  | _ => []

def handled (bus : BusId) (number : ℕ) (keep : Call → Bool) : Incident σ → List ℕ
  | .called h call =>
    if h.bus = bus ∧ h.number = number ∧ keep call = true then [call.index] else []
  | _ => []

end Incident

/-- The moment at `i` falls into the time in which a subscription has the batch of the publish
`first`, and the publish `first'` falls into that time, too. -/
def Inside (bus : BusId) (first first' : ℕ) (incidents : List (Incident σ)) (i : ℕ) : Prop :=
  ∃ h outcome events a k b, h.bus = bus ∧ h.first = first ∧ a < k ∧ k ≤ i ∧ i < b ∧
    incidents[a]? = some (.handed h) ∧ incidents[k]? = some (.published bus first' events) ∧
    incidents[b]? = some (.answered h outcome)

/-- Something of a batch is seen while an earlier one is with a subscription, and then something of
that earlier one. -/
def Overtaken (bus : BusId) (seen : Incident σ → List ℕ) (incidents : List (Incident σ)) :
    Prop :=
  ∃ first first' i j later earlier, i < j ∧ Inside bus first first' incidents i ∧
    incidents[i]? = some later ∧ later.publish? = some (bus, first') ∧ seen later ≠ [] ∧
    incidents[j]? = some earlier ∧ earlier.publish? = some (bus, first) ∧ seen earlier ≠ []

def UpTo (seen : Incident σ → List ℕ) (incident incident' : Incident σ) : Prop :=
  ∀ x ∈ seen incident, ∀ y ∈ seen incident', x ≤ y

structure Sighting (bus : BusId) (number : ℕ) (seen : Incident σ → List ℕ) : Prop where
  receipt : ∀ incident x, x ∈ seen incident →
    ∃ h, incident.handover? = some h ∧ h.bus = bus ∧ h.number = number
  sorted : ∀ incident, (seen incident).Pairwise (· ≤ ·)
  handover : ∀ h s outcome s' during, Voices h s outcome s' during → h.events ≠ [] →
    (∀ m ∈ h.moments s outcome s' during, ∀ x ∈ seen m.incident,
      h.first ≤ x ∧ x < h.first + h.events.length) ∧
    (h.moments s outcome s' during).Pairwise fun m m' => UpTo seen m.incident m'.incident

section Voices

variable {h : Handover σ} {s s' : System σ} {outcome : Outcome} {during : List (Moment σ)}

lemma Voices.called (hv : Voices h s outcome s' during) {m : Moment σ} (hm : m ∈ during) :
    ∃ call, m.incident = .called h call ∧ h.first ≤ call.index ∧
      call.index ≤ h.first + h.events.length - 1 := by
  obtain ⟨calls, heq, -, hin⟩ := hv
  have hi : m.incident ∈ calls.map (Incident.called h ·) := heq ▸ List.mem_map_of_mem hm
  obtain ⟨call, hc, hcall⟩ := List.mem_map.mp hi
  exact ⟨call, hcall.symm, hin call hc⟩

lemma Voices.handover?_eq (hv : Voices h s outcome s' during) {m : Moment σ}
    (hm : m ∈ h.moments s outcome s' during) : m.incident.handover? = some h := by
  rcases List.mem_cons.mp hm with rfl | hm
  · rfl
  rcases List.mem_append.mp hm with hm | hm
  · obtain ⟨call, hcall, -⟩ := hv.called hm
    rw [hcall]
    rfl
  · rw [List.mem_singleton.mp hm]
    rfl

end Voices

section Sightings

variable {bus : BusId} {number : ℕ}

lemma sighting_received :
    Sighting bus number (Incident.received bus number : Incident σ → List ℕ) where
  receipt incident x hx := by
    cases incident with
    | handed h =>
      rw [Incident.received] at hx
      split at hx
      · next hh => exact ⟨h, rfl, hh⟩
      · cases hx
    | _ => cases hx
  sorted incident := by
    cases incident with
    | handed h =>
      rw [Incident.received]
      split
      · exact List.pairwise_le_range'
      · exact .nil
    | _ => exact .nil
  handover h s outcome s' during hv hne := by
    have hrest : ∀ m ∈ during ++ [⟨.answered h outcome, s'⟩],
        m.incident.received bus number = [] := by
      intro m hm
      rcases List.mem_append.mp hm with hm | hm
      · obtain ⟨call, hcall, -⟩ := hv.called hm
        rw [hcall]
        rfl
      · rw [List.mem_singleton.mp hm]
        rfl
    constructor
    · intro m hm x hx
      rcases List.mem_cons.mp hm with rfl | hm
      · rw [Incident.received] at hx
        split at hx
        · exact List.mem_range'_1.mp hx
        · cases hx
      · rw [hrest m hm] at hx
        cases hx
    · refine List.pairwise_cons.mpr ⟨fun m hm x _ y hy => ?_, List.pairwise_of_forall_mem_list ?_⟩
      · rw [hrest m hm] at hy
        cases hy
      · intro m hm m' _ x hx
        rw [hrest m hm] at hx
        cases hx

lemma sighting_handled (keep : Call → Bool) :
    Sighting bus number (Incident.handled bus number keep : Incident σ → List ℕ) where
  receipt incident x hx := by
    cases incident with
    | called h call =>
      rw [Incident.handled] at hx
      split at hx
      · next hh => exact ⟨h, rfl, hh.1, hh.2.1⟩
      · cases hx
    | _ => cases hx
  sorted incident := by
    cases incident with
    | called h call =>
      rw [Incident.handled]
      split
      · exact List.pairwise_singleton _ _
      · exact .nil
    | _ => exact .nil
  handover h s outcome s' during hv hne := by
    have hpos := List.length_pos_iff.mpr hne
    have hcalled : ∀ call x, x ∈ Incident.handled bus number keep (.called h call) →
        x = call.index := by
      intro call x hx
      rw [Incident.handled] at hx
      split at hx
      · exact List.mem_singleton.mp hx
      · cases hx
    constructor
    · intro m hm x hx
      rcases List.mem_cons.mp hm with rfl | hm
      · cases hx
      rcases List.mem_append.mp hm with hm | hm
      · obtain ⟨call, hcall, hlo, hhi⟩ := hv.called hm
        rw [hcall] at hx
        rw [hcalled call x hx]
        omega
      · rw [List.mem_singleton.mp hm] at hx
        cases hx
    · obtain ⟨calls, heq, hsorted, -⟩ := hv
      have hduring : during.Pairwise fun m m' =>
          UpTo (Incident.handled bus number keep) m.incident m'.incident := by
        rw [← List.pairwise_map, heq, List.pairwise_map]
        refine hsorted.imp fun hle x hx y hy => ?_
        rwa [hcalled _ x hx, hcalled _ y hy]
      refine List.pairwise_cons.mpr ⟨fun m _ x hx => ?_, List.pairwise_append.mpr
        ⟨hduring, List.pairwise_singleton _ _, fun m _ m' hm x _ y hy => ?_⟩⟩
      · cases hx
      · rw [List.mem_singleton.mp hm] at hy
        cases hy

end Sightings

section Hands

variable {bus : BusId} {number first : ℕ} {events : List EventMessage}
  {subscriptions : List (ℕ × Subscriber σ)} {s s' : System σ} {outcome : Outcome}
  {body : List (Moment σ)} {seen : Incident σ → List ℕ}

lemma Hands.sighting (h : Hands Voices bus first events subscriptions s outcome s' body)
    (hseen : Sighting bus number seen) (hne : events ≠ [])
    (hn : (subscriptions.map Prod.fst).Nodup) :
    (∀ m ∈ body, ∀ x ∈ seen m.incident, number ∈ subscriptions.map Prod.fst ∧
      first ≤ x ∧ x < first + events.length) ∧
    body.Pairwise fun m m' => UpTo seen m.incident m'.incident := by
  have hnumber : ∀ (h : Handover σ) s outcome s' during, Voices h s outcome s' during →
      ∀ m ∈ h.moments s outcome s' during, ∀ x ∈ seen m.incident, h.number = number := by
    intro h s outcome s' during hv m hm x hx
    obtain ⟨h', hh, -, heq⟩ := hseen.receipt _ x hx
    cases (hv.handover?_eq hm).symm.trans hh
    exact heq
  induction h with
  | done => exact ⟨fun m hm => (by cases hm), .nil⟩
  | failed hv =>
    obtain ⟨hin, hsorted⟩ := hseen.handover _ _ _ _ _ hv hne
    refine ⟨fun m hm x hx => ⟨?_, hin m hm x hx⟩, hsorted⟩
    rw [← hnumber _ _ _ _ _ hv m hm x hx]
    exact List.mem_cons_self
  | next hv _ ih =>
    obtain ⟨hin, hsorted⟩ := hseen.handover _ _ _ _ _ hv hne
    obtain ⟨hfresh, hrest⟩ := List.nodup_cons.mp hn
    obtain ⟨hinner, hafter⟩ := ih hrest
    constructor
    · intro m hm x hx
      rcases List.mem_append.mp hm with hm | hm
      · rw [← hnumber _ _ _ _ _ hv m hm x hx]
        exact ⟨List.mem_cons_self, hin m hm x hx⟩
      · obtain ⟨hmem, hrange⟩ := hinner m hm x hx
        exact ⟨List.mem_cons_of_mem _ hmem, hrange⟩
    · refine List.pairwise_append.mpr ⟨hsorted, hafter, fun m hm m' hm' x hx y hy => ?_⟩
      have hmem := (hinner m' hm' y hy).1
      rw [← hnumber _ _ _ _ _ hv m hm x hx] at hmem
      exact absurd hmem hfresh

end Hands

namespace Inside

variable {bus : BusId} {first first' i : ℕ} {xs ys : List (Incident σ)}

lemma append_left (h : Inside bus first first' xs i) : Inside bus first first' (xs ++ ys) i := by
  obtain ⟨h, outcome, events, a, k, b, hbus, hfirst, hak, hki, hib, ha, hk, hb⟩ := h
  have hlen := (List.getElem?_eq_some_iff.mp hb).1
  refine ⟨h, outcome, events, a, k, b, hbus, hfirst, hak, hki, hib, ?_, ?_, ?_⟩
  · rwa [List.getElem?_append_left (by omega)]
  · rwa [List.getElem?_append_left (by omega)]
  · rwa [List.getElem?_append_left hlen]

lemma append_right (h : Inside bus first first' ys i) :
    Inside bus first first' (xs ++ ys) (xs.length + i) := by
  obtain ⟨h, outcome, events, a, k, b, hbus, hfirst, hak, hki, hib, ha, hk, hb⟩ := h
  refine ⟨h, outcome, events, xs.length + a, xs.length + k, xs.length + b, hbus, hfirst,
    by omega, by omega, by omega, ?_, ?_, ?_⟩
  · rwa [List.getElem?_append_right (by omega), Nat.add_sub_cancel_left]
  · rwa [List.getElem?_append_right (by omega), Nat.add_sub_cancel_left]
  · rwa [List.getElem?_append_right (by omega), Nat.add_sub_cancel_left]

lemma of_delivers {depth : ℕ} {h : Handover σ} {s s' : System σ} {outcome : Outcome}
    {during : List (Moment σ)} (hd : Delivers depth h s outcome s' during) {m : Moment σ}
    (hi : (h.moments s outcome s' during)[i]? = some m)
    (hp : m.incident.publish? = some (h.bus, first')) (hne : first' ≠ h.first) :
    Inside h.bus h.first first' ((h.moments s outcome s' during).map Moment.incident) i := by
  cases i with
  | zero =>
    cases hi
    cases hp
    exact absurd rfl hne
  | succ i =>
    rcases getElem?_append_cases hi with hduring | ⟨j, -, hlast⟩
    · have hnested := chronicles_nested.of_delivers hd
      rcases hnested.dated.own_or_begun i m h.bus first' hduring hp with hown | hbegun
      · obtain ⟨h, call, hown, hcall⟩ := hown
        cases hown
        rw [hcall] at hp
        cases hp
        exact absurd rfl hne
      · -- The other publish has begun since the batch was handed over.
        obtain ⟨k, hk, batch, r, hpublished⟩ := hbegun.published
        have hlen := (List.getElem?_eq_some_iff.mp hduring).1
        have hklen := (List.getElem?_eq_some_iff.mp hpublished).1
        refine ⟨h, outcome, batch, 0, k + 1, during.length + 1, rfl, rfl, by omega, by omega,
          by omega, rfl, ?_, ?_⟩
        · rw [Handover.moments, List.map_cons, List.getElem?_cons_succ, List.getElem?_map,
            List.getElem?_append_left hklen, hpublished]
          rfl
        · rw [Handover.moments, List.map_cons, List.getElem?_cons_succ, List.getElem?_map,
            List.getElem?_append_right le_rfl, Nat.sub_self]
          rfl
    · rw [List.mem_singleton.mp (List.mem_of_getElem? hlast)] at hp
      cases hp
      exact absurd rfl hne

lemma of_hands {depth : ℕ} {events : List EventMessage}
    {subscriptions : List (ℕ × Subscriber σ)} {s s' : System σ} {outcome : Outcome}
    {body : List (Moment σ)}
    (h : Hands (Delivers depth) bus first events subscriptions s outcome s' body)
    {m : Moment σ} (hi : body[i]? = some m) (hp : m.incident.publish? = some (bus, first'))
    (hne : first' ≠ first) : Inside bus first first' (body.map Moment.incident) i := by
  induction h generalizing i with
  | done => cases hi
  | failed h => exact of_delivers h hi hp hne
  | next h _ ih =>
    rw [List.map_append]
    rcases getElem?_append_cases hi with hx | ⟨j, rfl, hy⟩
    · exact (of_delivers h hx hp hne).append_left
    · rw [← List.length_map (f := Moment.incident)]
      exact (ih hy).append_right

end Inside

lemma Path.published_le {s s' r r' : System σ} {moments : List (Moment σ)}
    (h : Path s moments s') {bus : BusId} {k k' first first' : ℕ}
    {events events' : List EventMessage}
    (hk : moments[k]? = some ⟨.published bus first events, r⟩)
    (hk' : moments[k']? = some ⟨.published bus first' events', r'⟩) (hlt : k < k') :
    first + events.length ≤ first' := by
  have hextent := (h.published (List.mem_of_getElem? hk)).2
  obtain ⟨hturn, -⟩ := h.turn_at hk'
  have hgrows := ((h.between hlt).log_grows bus).length_le
  rw [Nat.succ_eq_add_one, (h.turn_at hk).2] at hgrows
  cases hturn with
  | published _ hne => exact hextent ▸ hgrows

lemma Path.published_lt {s s' r r' : System σ} {moments : List (Moment σ)}
    (h : Path s moments s') {bus : BusId} {k k' first first' : ℕ}
    {events events' : List EventMessage}
    (hk : moments[k]? = some ⟨.published bus first events, r⟩)
    (hk' : moments[k']? = some ⟨.published bus first' events', r'⟩) (hlt : first < first') :
    k < k' := by
  rcases Nat.lt_trichotomy k k' with hkk | rfl | hkk
  · exact hkk
  · cases hk.symm.trans hk'
    exact absurd hlt (Nat.lt_irrefl _)
  · exact absurd (h.published_le hk' hk hkk) (by omega)

lemma Path.published_unique {s s' r r' : System σ} {moments : List (Moment σ)}
    (h : Path s moments s') {bus : BusId} {k k' first : ℕ} {events events' : List EventMessage}
    (hk : moments[k]? = some ⟨.published bus first events, r⟩)
    (hk' : moments[k']? = some ⟨.published bus first events', r'⟩) : k = k' := by
  have hpos := List.length_pos_iff.mpr (h.published (List.mem_of_getElem? hk)).1
  have hpos' := List.length_pos_iff.mpr (h.published (List.mem_of_getElem? hk')).1
  rcases Nat.lt_trichotomy k k' with hkk | heq | hkk
  · exact absurd (h.published_le hk hk' hkk) (by omega)
  · exact heq
  · exact absurd (h.published_le hk' hk hkk) (by omega)

section History

variable {s₀ s : System σ} {moments : List (Moment σ)} (h : History s₀ moments s)

include h

lemma History.inside {bus : BusId} {first first' i j k : ℕ} {events events' : List EventMessage}
    {r r' : System σ} {m m' : Moment σ} (hp : ⟨.published bus first events, r⟩ ∈ moments)
    (hk : moments[k]? = some ⟨.published bus first' events', r'⟩) (hki : k ≤ i) (hij : i < j)
    (hlt : first < first') (hi : moments[i]? = some m)
    (hm : m.incident.publish? = some (bus, first')) (hj : moments[j]? = some m')
    (hm' : m'.incident.publish? = some (bus, first)) :
    Inside bus first first' (moments.map Moment.incident) i := by
  obtain ⟨depth, pre, body, outcome, r₁, post, hb⟩ := h.located bus first events r hp
  have hstart : moments[pre.length]? = some ⟨.published bus first events, r⟩ := by
    rw [hb.eq, List.getElem?_append_right le_rfl, Nat.sub_self]
    rfl
  have hafter := h.path.published_lt hstart hk hlt
  have hend : j < pre.length + (body.length + 2) := by
    rw [hb.eq] at hj
    rcases getElem?_append_cases hj with hpre | ⟨_, rfl, hrest⟩
    · exact absurd hm' (hb.before m' (List.mem_of_getElem? hpre))
    · rcases getElem?_append_cases hrest with hinner | ⟨_, rfl, hpost⟩
      · have hlen := (List.getElem?_eq_some_iff.mp hinner).1
        simp only [publishing, List.length_cons, List.length_append, List.length_nil] at hlen
        omega
      · exact absurd hm' (hb.after m' (List.mem_of_getElem? hpost))
  obtain ⟨i, rfl⟩ : ∃ i₁, i = pre.length + (1 + i₁) := ⟨i - pre.length - 1, by omega⟩
  have hbody : body[i]? = some m := by
    rw [hb.eq, List.getElem?_append_right (by omega), Nat.add_sub_cancel_left, publishing,
      List.cons_append, Nat.add_comm, List.getElem?_cons_succ, List.append_assoc,
      List.getElem?_append_left (by omega)] at hi
    exact hi
  have hinner := Inside.of_hands hb.hands hbody hm hlt.ne'
  have hmap : moments.map Moment.incident = pre.map Moment.incident ++
      ([.published bus first events] ++ ((body.map Moment.incident ++
        [.settled bus first outcome]) ++ post.map Moment.incident)) := by
    rw [hb.eq]
    simp [publishing]
  rw [hmap, ← List.length_map (f := Moment.incident)]
  exact hinner.append_left.append_left.append_right.append_right

lemma History.le_of_inside {bus : BusId} {first first' i k : ℕ} {events : List EventMessage}
    {r : System σ} (hinside : Inside bus first first' (moments.map Moment.incident) i)
    (hk : moments[k]? = some ⟨.published bus first events, r⟩) :
    first + events.length ≤ first' := by
  obtain ⟨handover, -, batch, a, k', -, rfl, rfl, hak, -, -, ha, hk', -⟩ := hinside
  rw [List.getElem?_map, Option.map_eq_some_iff] at ha hk'
  obtain ⟨given, ha, hgiven⟩ := ha
  obtain ⟨⟨_, r'⟩, hk', rfl⟩ := hk'
  have hp : given.incident.publish? = some (handover.bus, handover.first) := by
    rw [hgiven]
    rfl
  obtain ⟨k₁, hk₁, _, _, hpublished⟩ := (h.begun ha hp).published
  obtain rfl := h.path.published_unique hk hpublished
  exact h.path.published_le hk hk' (by omega)

variable (hd : ∀ bus, (s₀.bus bus).Distinct) {bus : BusId} {number : ℕ}
  {seen : Incident σ → List ℕ} (hseen : Sighting bus number seen)

include hd hseen

lemma History.receipt {i x : ℕ} {m : Moment σ} (hi : moments[i]? = some m)
    (hx : x ∈ seen m.incident) :
    ∃ k first events r, k ≤ i ∧ moments[k]? = some ⟨.published bus first events, r⟩ ∧
      m.incident.publish? = some (bus, first) ∧ first ≤ x ∧ x < first + events.length ∧
      (thread bus first moments).Pairwise fun m m' => UpTo seen m.incident m'.incident := by
  have hnil : ∀ incident : Incident σ, incident.handover? = none → seen incident = [] := by
    intro incident hnone
    refine List.eq_nil_iff_forall_not_mem.mpr fun x hx => ?_
    obtain ⟨h, hh, -⟩ := hseen.receipt incident x hx
    cases hnone.symm.trans hh
  obtain ⟨handover, hh, rfl, -⟩ := hseen.receipt _ x hx
  have hp := Incident.publish?_of_handover hh
  obtain ⟨k, hk, events, r, hpublished⟩ := (h.begun hi hp).published
  have hmem := List.mem_of_getElem? hpublished
  obtain ⟨body, outcome, r', hthread, hhands⟩ := h.thread_eq hmem
  obtain ⟨hin, hsorted⟩ := hhands.sighting hseen (h.path.published hmem).1
    (h.path.distinct hd hmem _).nodup
  have hbody : m ∈ body := by
    have hm : m ∈ thread handover.bus handover.first moments :=
      List.mem_filter.mpr ⟨List.mem_of_getElem? hi, decide_eq_true hp⟩
    rw [hthread, publishing] at hm
    rcases List.mem_cons.mp hm with rfl | hm
    · cases hh
    rcases List.mem_append.mp hm with hm | hm
    · exact hm
    · cases List.mem_singleton.mp hm
      cases hh
  refine ⟨k, handover.first, events, r, hk, hpublished, hp, (hin m hbody x hx).2.1,
    (hin m hbody x hx).2.2, ?_⟩
  rw [hthread, publishing]
  refine List.pairwise_cons.mpr ⟨fun m _ x hx => ?_, List.pairwise_append.mpr
    ⟨hsorted, List.pairwise_singleton _ _, fun m _ m' hm' x _ y hy => ?_⟩⟩
  · rw [hnil _ rfl] at hx
    cases hx
  · rw [List.mem_singleton.mp hm', hnil _ rfl] at hy
    cases hy

theorem History.sorted_iff : (moments.flatMap (seen ·.incident)).Pairwise (· ≤ ·) ↔
    ¬ Overtaken bus seen (moments.map Moment.incident) := by
  have hself : ∀ m ∈ moments, (seen m.incident).Pairwise (· ≤ ·) :=
    fun m _ => hseen.sorted m.incident
  rw [List.pairwise_flatMap, and_iff_right hself, List.pairwise_iff_getElem]
  constructor
  · rintro hsorted ⟨first, first', i, j, later, earlier, hij, hinside, hi, hp', hlater, hj, hp,
      hearlier⟩
    rw [List.getElem?_map, Option.map_eq_some_iff] at hi hj
    obtain ⟨m, hi, rfl⟩ := hi
    obtain ⟨m', hj, rfl⟩ := hj
    obtain ⟨x, hx⟩ := List.exists_mem_of_ne_nil _ hlater
    obtain ⟨y, hy⟩ := List.exists_mem_of_ne_nil _ hearlier
    obtain ⟨-, _, -, -, -, -, hx', hle, -⟩ := h.receipt hd hseen hi hx
    cases hp'.symm.trans hx'
    obtain ⟨k, _, events, r, -, hk, hy', -, hlt, -⟩ := h.receipt hd hseen hj hy
    cases hp.symm.trans hy'
    have hapart := h.le_of_inside hinside hk
    obtain ⟨hilt, rfl⟩ := List.getElem?_eq_some_iff.mp hi
    obtain ⟨hjlt, rfl⟩ := List.getElem?_eq_some_iff.mp hj
    have hxy := hsorted i j hilt hjlt hij x hx y hy
    omega
  · intro hfree i j hi hj hij x hx y hy
    have hi' := List.getElem?_eq_getElem hi
    have hj' := List.getElem?_eq_getElem hj
    obtain ⟨k, first, events, r, hki, hk, hp, hle, hlt, hsorted⟩ := h.receipt hd hseen hi' hx
    obtain ⟨k', first', events', r', hkj, hk', hp', hle', hlt', -⟩ := h.receipt hd hseen hj' hy
    -- Batches that were logged in turn, the same batch, or a later batch that is seen first.
    rcases Nat.lt_trichotomy first first' with hff | rfl | hff
    · have hkk := h.path.published_lt hk hk' hff
      have hapart := h.path.published_le hk hk' hkk
      omega
    · rw [thread, List.pairwise_filter, List.pairwise_iff_getElem] at hsorted
      exact hsorted i j hi hj hij (decide_eq_true hp) (decide_eq_true hp') x hx y hy
    · refine absurd ⟨first', first, i, j, _, _, hij, ?_, ?_, hp, List.ne_nil_of_mem hx, ?_, hp',
        List.ne_nil_of_mem hy⟩ hfree
      · exact h.inside (List.mem_of_getElem? hk') hk hki hij hff hi' hp hj' hp'
      · rw [List.getElem?_map, hi']
        rfl
      · rw [List.getElem?_map, hj']
        rfl

end History

/-- A subscription is given the events, and the handlers behind it are called for them, in the order
of the log, unless a batch overtakes another: it is published while that other one is with a
subscription, and gets here first. -/
theorem History.log_order_iff {s₀ s : System σ} {moments : List (Moment σ)}
    (h : History s₀ moments s) (hd : ∀ bus, (s₀.bus bus).Distinct) (bus : BusId) (number : ℕ) :
    ((moments.flatMap (·.incident.received bus number)).Pairwise (· ≤ ·) ↔
      ¬ Overtaken bus (Incident.received bus number) (moments.map Moment.incident)) ∧
    ∀ keep, (moments.flatMap (·.incident.handled bus number keep)).Pairwise (· ≤ ·) ↔
      ¬ Overtaken bus (Incident.handled bus number keep) (moments.map Moment.incident) :=
  ⟨h.sorted_iff hd sighting_received, fun keep => h.sorted_iff hd (sighting_handled keep)⟩

namespace Sample

def relay : Consumer σ := .mk fun events =>
  if events.length = 2 then Program.publish 0 [event "third"] else return .ok ()

def listener : Consumer σ := .mk fun _ => return .ok ()

def relayed : System Unit where
  shared := ()
  buses := [(0, {
    subscriptions := [(0, .consumer relay), (1, .consumer listener)]
    nextSubscription := 2 })]

lemma relayed_history : ∃ moments s, History relayed moments s ∧
    moments.flatMap (·.incident.received 0 1) = [2, 0, 1] := by
  let first := relayed.logged 0 batch
  let second := first.logged 0 [event "third"]
  have hrelay' : Delivers 1 ⟨0, 2, [event "third"], 0, .consumer relay⟩ second (.ok ()) second [] :=
    Executes.done
  have hlistener' : Delivers 1 ⟨0, 2, [event "third"], 1, .consumer listener⟩ second (.ok ())
      second [] := Executes.done
  have hinner : Hands (Delivers 1) 0 2 [event "third"] (first.bus 0).subscriptions second (.ok ())
      second _ := .next hrelay' (.next hlistener' .done)
  have hrelay : Delivers 2 ⟨0, 0, batch, 0, .consumer relay⟩ first (.ok ()) second _ :=
    Executes.ask (.publish (by simp) hinner) .done
  have hlistener : Delivers 2 ⟨0, 0, batch, 1, .consumer listener⟩ second (.ok ()) second [] :=
    Executes.done
  have hanswers : Answers (Delivers 2) (.publish 0 batch) relayed (.ok ()) second _ :=
    .publish (by simp [batch]) (.next hrelay (.next hlistener .done))
  have hexecutes : Executes (Delivers 2) none (.ofProgram (Program.publish 0 batch)) relayed
      (.ok ()) second _ := .ask hanswers .done
  exact ⟨_, _, .program .start hexecutes, rfl⟩

def noting : Pipeline (List String) where
  name := "sample"
  invoker := .group {
    handlers := [{
      label := "handler"
      typeName := "Handler"
      package := ""
      declaredGroup := none
      tag := .null
      canHandle := fun _ => true
      handle := fun event _ => do
        Program.modify (· ++ [event.identifier])
        return .ok () }]
    errorHandler := .propagating 0
    policy := .sequential 0 }
  errorHandler := .propagating 0
  rollback := .never 0
  transactions := .none 0
  monitor := .silent

def noted : System (List String) where
  shared := []
  buses := [(0, {
    subscriptions := [(0, .consumer relay), (1, .processor 0 noting)]
    nextSubscription := 2 })]
  processors := [(0, { subscription := some 1 })]

end Sample

theorem relayed_overtaken : ∃ moments s, History Sample.relayed moments s ∧
    moments.flatMap (·.incident.received 0 1) = [2, 0, 1] ∧
    Overtaken 0 (Incident.received 0 1) (moments.map Moment.incident) := by
  obtain ⟨moments, s, h, hreceived⟩ := Sample.relayed_history
  refine ⟨moments, s, h, hreceived, ?_⟩
  by_contra hfree
  have hsorted := (h.log_order_iff (Sample.distinct_of_two rfl) 0 1).1.mpr hfree
  rw [hreceived] at hsorted
  exact absurd hsorted (by decide)

theorem third_event_handled_first : ∃ s,
    System.run 4 (Program.publish 0 Sample.batch) Sample.noted = some (.ok (), s) ∧
      (s.bus 0).log = Bus.entriesFrom 0
        [Sample.event "first", Sample.event "second", Sample.event "third"] ∧
      s.shared = ["third", "first", "second"] :=
  ⟨_, rfl, rfl, rfl⟩

end EventProcessing
