import EventProcessing.Proofs.Notebook.Mirror

namespace EventProcessing

variable {σ : Type}

def Interceptor.Passes (interceptor : Interceptor σ) : Prop :=
  ∀ unit, (interceptor.enter unit).Ends fun interception =>
    ∃ data leave, interception = .proceed data leave ∧
      ∀ unit outcome, (leave unit outcome).Ends (· = outcome)

def takersFrom (path : List ℕ) (event : EventMessage) : ℕ → List (EventHandler σ) → List (List ℕ)
  | _, [] => []
  | place, handler :: rest =>
    if handler.canHandle event then (path ++ [place]) :: takersFrom path event (place + 1) rest
    else takersFrom path event (place + 1) rest

namespace Invoker

mutual

def takers (event : EventMessage) (segment : Segment) : List ℕ → Invoker σ → List (List ℕ)
  | path, .group g => if g.owns event segment then takersFrom path event 0 g.handlers else []
  | _, .manager _ => []
  | path, .all invokers => takersAmong event segment path 0 invokers

def takersAmong (event : EventMessage) (segment : Segment) :
    List ℕ → ℕ → List (Invoker σ) → List (List ℕ)
  | _, _, [] => []
  | path, place, invoker :: rest =>
    invoker.takers event segment (path ++ [place]) ++
      takersAmong event segment path (place + 1) rest

end

mutual

def Swallows : Invoker σ → Prop
  | .group g => ∀ failure event handler,
      (g.errorHandler.onError failure event handler).Ends (· = .ok ())
  | .manager m => ∀ event unit segment, (m.handle event unit segment).Ends (· = .ok ())
  | .all invokers => SwallowAll invokers

def SwallowAll : List (Invoker σ) → Prop
  | [] => True
  | invoker :: rest => invoker.Swallows ∧ SwallowAll rest

end

lemma ends_callEach {errorHandler : ListenerErrorHandler σ}
    (h : ∀ failure event handler, (errorHandler.onError failure event handler).Ends (· = .ok ()))
    (event : EventMessage) (unit : UnitOfWork) (handlers : List (EventHandler σ)) :
    (HandlerGroup.callEach errorHandler event unit handlers).Ends (· = .ok ()) := by
  induction handlers with
  | nil => exact .pure rfl
  | cons handler rest ih =>
    unfold HandlerGroup.callEach
    split
    · refine ProgramOver.Ends.bind (.any _) fun outcome _ => ?_
      cases outcome with
      | ok _ => exact ih
      | error failure =>
        refine (h failure event handler).bind fun verdict hv => ?_
        subst hv
        exact ih
    · exact ih

mutual

lemma ends_handle (event : EventMessage) (unit : UnitOfWork) (segment : Segment) :
    ∀ invoker : Invoker σ, invoker.Swallows →
      (invoker.handle event unit segment).Ends (· = .ok ())
  | .group g, h => by
    unfold handle HandlerGroup.handle
    split
    · exact ends_callEach h event unit g.handlers
    · exact .pure rfl
  | .manager m, h => h event unit segment
  | .all invokers, h => ends_handleAll event unit segment invokers h

lemma ends_handleAll (event : EventMessage) (unit : UnitOfWork) (segment : Segment) :
    ∀ invokers : List (Invoker σ), SwallowAll invokers →
      (handleAll invokers event unit segment).Ends (· = .ok ())
  | [], _ => .pure rfl
  | invoker :: rest, h => by
    unfold handleAll
    split
    · refine (ends_handle event unit segment invoker h.1).bind fun outcome ho => ?_
      subst ho
      exact ends_handleAll event unit segment rest h.2
    · exact ends_handleAll event unit segment rest h.2

end

end Invoker

lemma Interceptor.ends_chain {target : UnitOfWork → Program σ Outcome}
    (ht : ∀ unit, (target unit).Ends (· = .ok ())) {chain : List (Interceptor σ)}
    (hc : ∀ interceptor ∈ chain, interceptor.Passes) (unit : UnitOfWork) :
    (Interceptor.chain target chain unit).Ends fun result => result.1 = .ok () := by
  induction chain generalizing unit with
  | nil => exact (ht unit).bind fun outcome ho => .pure ho
  | cons interceptor rest ih =>
    unfold Interceptor.chain
    refine (hc interceptor List.mem_cons_self unit).bind fun interception hi => ?_
    obtain ⟨data, leave, rfl, hl⟩ := hi
    have hrest := ih (fun i hi => hc i (List.mem_cons_of_mem _ hi)) (unit.register data)
    refine hrest.bind fun ⟨outcome, last⟩ ho => ?_
    exact (hl last outcome).bind fun left he => .pure (he.trans ho)

section

variable {depth : ℕ} (loud : Bool) (before : List Note)

lemma any_copies (path : List ℕ) (event : EventMessage) (place : ℕ)
    (handlers : List (EventHandler σ)) :
    ((EventHandler.copies loud path place handlers).any fun handler => handler.canHandle event) =
      handlers.any fun handler => handler.canHandle event := by
  induction handlers generalizing place with
  | nil => rfl
  | cons handler rest ih =>
    simp only [EventHandler.copies, List.any_cons, ih]
    rfl

mutual

lemma Invoker.canHandle_copy (event : EventMessage) (segment : Segment) :
    ∀ (path : List ℕ) (invoker : Invoker σ),
      (invoker.copy loud path).canHandle event segment = invoker.canHandle event segment
  | path, .group g => by
    simp only [Invoker.copy, Invoker.canHandle, HandlerGroup.canHandle, HandlerGroup.copy,
      any_copies]
    rfl
  | _, .manager _ => rfl
  | path, .all invokers => by
    simp only [Invoker.copy, Invoker.canHandle]
    exact Invoker.canHandleAny_copyAll event segment path 0 invokers

lemma Invoker.canHandleAny_copyAll (event : EventMessage) (segment : Segment) :
    ∀ (path : List ℕ) (place : ℕ) (invokers : List (Invoker σ)),
      Invoker.canHandleAny (Invoker.copyAll loud path place invokers) event segment =
        Invoker.canHandleAny invokers event segment
  | _, _, [] => rfl
  | path, place, invoker :: rest => by
    simp only [Invoker.copyAll, Invoker.canHandleAny,
      Invoker.canHandle_copy event segment (path ++ [place]) invoker,
      Invoker.canHandleAny_copyAll event segment path (place + 1) rest]

end

lemma takersFrom_of_any_eq_false (path : List ℕ) (event : EventMessage) (place : ℕ)
    (handlers : List (EventHandler σ))
    (h : (handlers.any fun handler => handler.canHandle event) = false) :
    takersFrom path event place handlers = [] := by
  induction handlers generalizing place with
  | nil => rfl
  | cons handler rest ih =>
    simp only [List.any_cons, Bool.or_eq_false_iff] at h
    simp [takersFrom, h.1, ih (place + 1) h.2]

mutual

lemma Invoker.takers_of_canHandle_eq_false (event : EventMessage) (segment : Segment) :
    ∀ (path : List ℕ) (invoker : Invoker σ), invoker.canHandle event segment = false →
      invoker.takers event segment path = []
  | path, .group g, h => by
    simp only [Invoker.canHandle, HandlerGroup.canHandle, Bool.and_eq_false_iff] at h
    simp only [Invoker.takers]
    split
    · next ho =>
      rcases h with h | h
      · rw [h] at ho
        cases ho
      · exact takersFrom_of_any_eq_false path event 0 g.handlers h
    · rfl
  | _, .manager _, _ => rfl
  | path, .all invokers, h => by
    simp only [Invoker.takers]
    exact Invoker.takersAmong_of_canHandleAny_eq_false event segment path 0 invokers h

lemma Invoker.takersAmong_of_canHandleAny_eq_false (event : EventMessage) (segment : Segment) :
    ∀ (path : List ℕ) (place : ℕ) (invokers : List (Invoker σ)),
      Invoker.canHandleAny invokers event segment = false →
        Invoker.takersAmong event segment path place invokers = []
  | _, _, [], _ => rfl
  | path, place, invoker :: rest, h => by
    simp only [Invoker.canHandleAny, Bool.or_eq_false_iff] at h
    simp [Invoker.takersAmong,
      Invoker.takers_of_canHandle_eq_false event segment (path ++ [place]) invoker h.1,
      Invoker.takersAmong_of_canHandleAny_eq_false event segment path (place + 1) rest h.2]

end

end

def Calls (event : EventMessage) (takers : List (List ℕ)) (outcome : Outcome)
    (notes : List Note) : Prop :=
  ∃ places, notes = places.map (Note.called · event) ∧ places <+: takers ∧
    (outcome = .ok () → places = takers)

namespace Calls

variable {event : EventMessage} {takers more : List (List ℕ)} {outcome : Outcome}
  {notes later : List Note}

lemma nil : Calls event [] outcome [] := ⟨[], rfl, List.prefix_rfl, fun _ => rfl⟩

lemma stop (failure : Failure) : Calls event takers (.error failure) [] :=
  ⟨[], rfl, List.nil_prefix, fun h => by cases h⟩

lemma append (hn : Calls event takers (.ok ()) notes) (hl : Calls event more outcome later) :
    Calls event (takers ++ more) outcome (notes ++ later) := by
  obtain ⟨places, rfl, -, hp⟩ := hn
  obtain ⟨places', rfl, hl, hp'⟩ := hl
  obtain rfl := hp rfl
  exact ⟨places ++ places', by simp, List.prefix_append_right_inj _ |>.mpr hl,
    fun h => by rw [hp' h]⟩

lemma cons (place : List ℕ) (h : Calls event takers outcome notes) :
    Calls event (place :: takers) outcome (.called place event :: notes) := by
  have hone : Calls event [place] (.ok ()) [.called place event] :=
    ⟨[place], rfl, List.prefix_rfl, fun _ => rfl⟩
  exact hone.append h

lemma left {failure : Failure} (h : Calls event takers (.error failure) notes) :
    Calls event (takers ++ more) (.error failure) notes := by
  obtain ⟨places, rfl, hp, -⟩ := h
  exact ⟨places, rfl, hp.trans (List.prefix_append _ _), fun h => by cases h⟩

end Calls

abbrev MirrorsCalls (depth : ℕ) (loud : Bool) (before : List Note) (event : EventMessage)
    (takers : List (List ℕ)) (q : Program (Noted σ) Outcome) (p : Program σ Outcome) : Prop :=
  Mirrors depth before (fun b a added => b = a ∧ ∃ notes, added = said loud notes ∧
    Calls event takers a notes) q p

section

variable {depth : ℕ} (hf : Faithful σ depth) (loud : Bool)

include hf

lemma mirrors_handler (before : List Note) (path : List ℕ) (place : ℕ) (handler : EventHandler σ)
    (event : EventMessage) (unit : UnitOfWork) :
    Mirrors depth before
      (fun b a added => b = a ∧ added = said loud [.called (path ++ [place]) event])
      ((handler.copy loud path place).handle event unit) (handler.handle event unit) := by
  refine .note_bind ((Mirrors.quiet hf _).mono ?_)
  rintro b a added ⟨rfl, rfl⟩
  exact ⟨rfl, List.append_nil _⟩

omit hf in
lemma onError_quiet (errorHandler : ListenerErrorHandler σ) (handlers : List (EventHandler σ))
    (path : List ℕ) {place : ℕ} {handler : EventHandler σ} (h : handlers[place]? = some handler)
    (failure : Failure) (event : EventMessage) :
    (errorHandler.quiet handlers).onError failure event (handler.copy loud path place) =
      (errorHandler.onError failure event handler).quiet := by
  have ho : original? handlers (handler.copy loud path place) = some handler := by
    simpa [original?, EventHandler.copy, Json.integer?] using h
  simp only [ListenerErrorHandler.quiet, ho]

lemma mirrors_callEach (errorHandler : ListenerErrorHandler σ) (all : List (EventHandler σ))
    (path : List ℕ) (event : EventMessage) (unit : UnitOfWork) (handlers : List (EventHandler σ))
    (place : ℕ) (hall : ∀ i : ℕ, handlers[i]? = all[place + i]?) (before : List Note) :
    MirrorsCalls depth loud before event (takersFrom path event place handlers)
      (HandlerGroup.callEach (errorHandler.quiet all) event unit
        (EventHandler.copies loud path place handlers))
      (HandlerGroup.callEach errorHandler event unit handlers) := by
  induction handlers generalizing place before with
  | nil => exact .pure ⟨rfl, [], by simp, .nil⟩
  | cons handler rest ih =>
    have hrest : ∀ i : ℕ, rest[i]? = all[place + 1 + i]? := by
      intro i
      have hi := hall (i + 1)
      rwa [List.getElem?_cons_succ, ← Nat.add_assoc, Nat.add_right_comm] at hi
    have hplace : all[place]? = some handler := (hall 0).symm
    have hc : (handler.copy loud path place).canHandle event = handler.canHandle event := rfl
    simp only [EventHandler.copies, HandlerGroup.callEach, takersFrom, hc]
    split
    · apply (mirrors_handler hf loud before path place handler event unit).bind
      rintro outcome _ _ ⟨rfl, rfl⟩
      cases outcome with
      | ok _ =>
        apply (ih (place + 1) hrest _).mono
        rintro b a _ ⟨rfl, notes, rfl, hn⟩
        exact ⟨rfl, _, said_append loud _ notes, hn.cons _⟩
      | error failure =>
        simp only [onError_quiet loud errorHandler all path hplace]
        apply (Mirrors.quiet hf _).bind
        rintro verdict _ _ ⟨rfl, rfl⟩
        cases verdict with
        | ok _ =>
          apply (ih (place + 1) hrest _).mono
          rintro b a _ ⟨rfl, notes, rfl, hn⟩
          exact ⟨rfl, _, said_append loud _ notes, hn.cons _⟩
        | error failure =>
          exact .pure ⟨rfl, _, List.append_nil _, (Calls.stop failure).cons _⟩
    · exact ih (place + 1) hrest before

end

section

variable {depth : ℕ} (loud : Bool)

mutual

lemma mirrors_handle (hf : Faithful σ depth) (event : EventMessage) (unit : UnitOfWork)
    (segment : Segment) :
    ∀ (path : List ℕ) (invoker : Invoker σ) (before : List Note),
      MirrorsCalls depth loud before event (invoker.takers event segment path)
        ((invoker.copy loud path).handle event unit segment) (invoker.handle event unit segment)
  | path, .group g, before => by
    have ho : (g.copy loud path).owns event segment = g.owns event segment := rfl
    simp only [Invoker.copy, Invoker.handle, Invoker.takers, HandlerGroup.handle, ho]
    split
    · exact mirrors_callEach hf loud g.errorHandler g.handlers path event unit g.handlers 0
        (fun i => by rw [Nat.zero_add]) before
    · exact .pure ⟨rfl, [], (said_nil loud).symm, .nil⟩
  | _, .manager m, before => by
    apply (Mirrors.quiet hf _).mono
    rintro b a _ ⟨rfl, rfl⟩
    exact ⟨rfl, [], (said_nil loud).symm, .nil⟩
  | path, .all invokers, before => mirrors_handleAll hf event unit segment path 0 invokers before

lemma mirrors_handleAll (hf : Faithful σ depth) (event : EventMessage) (unit : UnitOfWork)
    (segment : Segment) :
    ∀ (path : List ℕ) (place : ℕ) (invokers : List (Invoker σ)) (before : List Note),
      MirrorsCalls depth loud before event
        (Invoker.takersAmong event segment path place invokers)
        (Invoker.handleAll (Invoker.copyAll loud path place invokers) event unit segment)
        (Invoker.handleAll invokers event unit segment)
  | _, _, [], _ => .pure ⟨rfl, [], (said_nil loud).symm, .nil⟩
  | path, place, invoker :: rest, before => by
    simp only [Invoker.copyAll, Invoker.handleAll, Invoker.takersAmong, Invoker.canHandle_copy]
    split
    · apply (mirrors_handle hf event unit segment (path ++ [place]) invoker before).bind
      rintro outcome _ _ ⟨rfl, notes, rfl, hn⟩
      cases outcome with
      | ok _ =>
        apply (mirrors_handleAll hf event unit segment path (place + 1) rest _).mono
        rintro b a _ ⟨rfl, later, rfl, hl⟩
        exact ⟨rfl, _, said_append loud notes later, hn.append hl⟩
      | error failure => exact .pure ⟨rfl, _, List.append_nil _, hn.left⟩
    · next hc =>
      rw [Invoker.takers_of_canHandle_eq_false event segment _ _ (by simpa using hc)]
      exact mirrors_handleAll hf event unit segment path (place + 1) rest before

end

lemma mirrors_chain (hf : Faithful σ depth) {event : EventMessage} {takers : List (List ℕ)}
    {target' : UnitOfWork → Program (Noted σ) Outcome} {target : UnitOfWork → Program σ Outcome}
    (ht : ∀ before unit, unit.message = event →
      MirrorsCalls depth loud before event takers (target' unit) (target unit))
    (chain : List (Interceptor σ)) (unit : UnitOfWork) (hu : unit.message = event)
    (before : List Note) :
    Mirrors depth before
      (fun b a added => b = a ∧ a.2.message = event ∧ ∃ notes, added = said loud notes ∧
        (notes = [] ∨ ∃ outcome, Calls event takers outcome notes) ∧
        ((∀ interceptor ∈ chain, interceptor.Passes) → Calls event takers a.1 notes))
      (Interceptor.chain target' (chain.map Interceptor.quiet) unit)
      (Interceptor.chain target chain unit) := by
  induction chain generalizing unit before with
  | nil =>
    simp only [List.map_nil, Interceptor.chain]
    apply (ht before unit hu).bind
    rintro outcome _ _ ⟨rfl, notes, rfl, hn⟩
    exact .pure ⟨rfl, hu, notes, List.append_nil _, .inr ⟨_, hn⟩, fun _ => hn⟩
  | cons interceptor rest ih =>
    simp only [List.map_cons, Interceptor.chain, Interceptor.quiet, bind_assoc, pure_bind]
    have hp : (interceptor.enter unit).Ends fun interception => interceptor.Passes →
        ∃ data leave, interception = .proceed data leave ∧
          ∀ unit outcome, (leave unit outcome).Ends (· = outcome) :=
      fun depth s value s' h hp => hp unit depth s value s' h
    apply ((Mirrors.quiet hf _).ends hp).bind
    rintro interception _ _ ⟨⟨rfl, rfl⟩, hp⟩
    cases interception with
    | stop outcome =>
      refine .pure ⟨rfl, hu, [], (said_nil loud).symm, .inl rfl, fun h => ?_⟩
      obtain ⟨_, _, hi, -⟩ := hp (h _ List.mem_cons_self)
      cases hi
    | proceed data leave =>
      apply (ih (unit.register data) hu _).bind
      rintro ⟨outcome, last⟩ _ _ ⟨rfl, hm, notes, rfl, hn, ho⟩
      have hl : (leave last outcome).Ends fun left => interceptor.Passes → left = outcome := by
        intro depth s value s' h hi
        obtain ⟨_, _, he, hl⟩ := hp hi
        cases he
        exact hl last outcome depth s value s' h
      apply ((Mirrors.quiet hf _).ends hl).bind
      rintro left _ _ ⟨⟨rfl, rfl⟩, hl⟩
      refine .pure ⟨rfl, hm, notes, by simp, hn, fun h => ?_⟩
      rw [hl (h _ List.mem_cons_self)]
      exact ho fun i hi => h i (List.mem_cons_of_mem _ hi)

end

end EventProcessing
