import EventProcessing.Proofs.Accounting

namespace EventProcessing

variable {σ : Type}

structure Callee (σ : Type) where
  errorHandler : ListenerErrorHandler σ
  handler : EventHandler σ

inductive Dispatches (depth : ℕ) (event : EventMessage) (unit : UnitOfWork) :
    List (Callee σ) → System σ → Outcome → System σ → Prop
  | done {s : System σ} : Dispatches depth event unit [] s (.ok ()) s
  | handled {callee : Callee σ} {rest : List (Callee σ)} {s s₁ s' : System σ} {outcome : Outcome}
      (hc : System.run depth (callee.handler.handle event unit) s = some (.ok (), s₁))
      (hr : Dispatches depth event unit rest s₁ outcome s') :
      Dispatches depth event unit (callee :: rest) s outcome s'
  | swallowed {callee : Callee σ} {rest : List (Callee σ)} {failure : Failure}
      {s s₁ s₂ s' : System σ} {outcome : Outcome}
      (hc : System.run depth (callee.handler.handle event unit) s = some (.error failure, s₁))
      (he : System.run depth (callee.errorHandler.onError failure event callee.handler) s₁ =
        some (.ok (), s₂))
      (hr : Dispatches depth event unit rest s₂ outcome s') :
      Dispatches depth event unit (callee :: rest) s outcome s'
  | propagated {callee : Callee σ} {rest : List (Callee σ)} {failure raised : Failure}
      {s s₁ s₂ : System σ}
      (hc : System.run depth (callee.handler.handle event unit) s = some (.error failure, s₁))
      (he : System.run depth (callee.errorHandler.onError failure event callee.handler) s₁ =
        some (.error raised, s₂)) :
      Dispatches depth event unit (callee :: rest) s (.error raised) s₂

namespace Callee

def callAll (event : EventMessage) (unit : UnitOfWork) : List (Callee σ) → Program σ Outcome
  | [] => return .ok ()
  | callee :: rest => do
    match ← callee.handler.handle event unit with
    | .ok () => callAll event unit rest
    | .error failure =>
      match ← callee.errorHandler.onError failure event callee.handler with
      | .ok () => callAll event unit rest
      | .error raised => return .error raised

variable (event : EventMessage) (unit : UnitOfWork) (callees : List (Callee σ))

lemma callAll_append (more : List (Callee σ)) : callAll event unit (callees ++ more) = do
    match ← callAll event unit callees with
    | .ok () => callAll event unit more
    | .error raised => return .error raised := by
  induction callees with
  | nil => rfl
  | cons callee rest ih =>
    rw [List.cons_append, callAll, callAll, bind_assoc]
    refine bind_congr fun outcome => ?_
    cases outcome with
    | ok _ => exact ih
    | error failure =>
      dsimp only
      rw [bind_assoc]
      refine bind_congr fun verdict => ?_
      cases verdict with
      | ok _ => exact ih
      | error raised => rfl

theorem run_callAll_iff (depth : ℕ) {s s' : System σ} {outcome : Outcome} :
    System.run depth (callAll event unit callees) s = some (outcome, s') ↔
      Dispatches depth event unit callees s outcome s' := by
  constructor
  · intro h
    induction callees generalizing s with
    | nil =>
      cases h
      exact .done
    | cons callee rest ih =>
      obtain ⟨first, s₁, hc, h⟩ := System.run_bind_eq_some.mp h
      cases first with
      | ok _ => exact .handled hc (ih h)
      | error failure =>
        obtain ⟨verdict, s₂, he, h⟩ := System.run_bind_eq_some.mp h
        cases verdict with
        | ok _ => exact .swallowed hc he (ih h)
        | error raised =>
          cases h
          exact .propagated hc he
  · intro h
    induction h with
    | done => rfl
    | handled hc _ ih => exact System.run_bind_eq_some.mpr ⟨_, _, hc, ih⟩
    | swallowed hc he _ ih =>
      exact System.run_bind_eq_some.mpr ⟨_, _, hc, System.run_bind_eq_some.mpr ⟨_, _, he, ih⟩⟩
    | propagated hc he =>
      exact System.run_bind_eq_some.mpr ⟨_, _, hc, System.run_bind_eq_some.mpr ⟨_, _, he, rfl⟩⟩

end Callee

namespace HandlerGroup

def callees (group : HandlerGroup σ) (event : EventMessage) (segment : Segment) :
    List (Callee σ) :=
  if group.owns event segment then
    (group.handlers.filter fun handler => handler.canHandle event).map (⟨group.errorHandler, ·⟩)
  else []

variable (group : HandlerGroup σ) (event : EventMessage) (unit : UnitOfWork) (segment : Segment)

lemma canHandle_iff : group.canHandle event segment = true ↔
    group.owns event segment = true ∧
      ∃ handler ∈ group.handlers, handler.canHandle event = true := by
  rw [canHandle, Bool.and_eq_true, List.any_eq_true]

lemma callees_eq_nil (h : group.canHandle event segment = false) :
    group.callees event segment = [] := by
  rw [callees]
  split
  · next ho =>
    rw [canHandle, ho, Bool.true_and, List.any_eq_false] at h
    rw [List.filter_eq_nil_iff.mpr h, List.map_nil]
  · rfl

lemma callEach_eq (errorHandler : ListenerErrorHandler σ) (handlers : List (EventHandler σ)) :
    callEach errorHandler event unit handlers = Callee.callAll event unit
      ((handlers.filter fun handler => handler.canHandle event).map (⟨errorHandler, ·⟩)) := by
  induction handlers with
  | nil => rfl
  | cons handler rest ih =>
    rw [callEach]
    by_cases h : handler.canHandle event = true
    · rw [if_pos h, ih, List.filter_cons, if_pos h, List.map_cons]
      rfl
    · rw [if_neg h, List.filter_cons, if_neg h, ih]

lemma handle_eq :
    group.handle event unit segment = Callee.callAll event unit (group.callees event segment) := by
  rw [handle, callees]
  split
  · exact callEach_eq event unit group.errorHandler group.handlers
  · rfl

end HandlerGroup

namespace Invoker

mutual

def groups : Invoker σ → List (HandlerGroup σ)
  | .group g => [g]
  | .manager _ => []
  | .all invokers => groupsAmong invokers

def groupsAmong : List (Invoker σ) → List (HandlerGroup σ)
  | [] => []
  | invoker :: rest => invoker.groups ++ groupsAmong rest

end

mutual

/-- There are only groups in the tree, and no manager of another kind. -/
def OverGroups : Invoker σ → Prop
  | .group _ => True
  | .manager _ => False
  | .all invokers => AllOverGroups invokers

def AllOverGroups : List (Invoker σ) → Prop
  | [] => True
  | invoker :: rest => invoker.OverGroups ∧ AllOverGroups rest

end

def callees (invoker : Invoker σ) (event : EventMessage) (segment : Segment) : List (Callee σ) :=
  invoker.groups.flatMap (·.callees event segment)

def flat (invoker : Invoker σ) : Invoker σ := .all (invoker.groups.map .group)

section Tree

variable (event : EventMessage) (unit : UnitOfWork) (segment : Segment)

mutual

lemma canHandle_eq_any : ∀ invoker : Invoker σ, invoker.OverGroups →
    invoker.canHandle event segment = invoker.groups.any (·.canHandle event segment)
  | .group g, _ => by simp [canHandle, groups]
  | .all invokers, h => by
    rw [canHandle, groups]
    exact canHandleAny_eq_any invokers h

lemma canHandleAny_eq_any : ∀ invokers : List (Invoker σ), AllOverGroups invokers →
    canHandleAny invokers event segment = (groupsAmong invokers).any (·.canHandle event segment)
  | [], _ => rfl
  | invoker :: rest, h => by
    rw [canHandleAny, groupsAmong, List.any_append, canHandle_eq_any invoker h.1,
      canHandleAny_eq_any rest h.2]

end

lemma callees_eq_nil {groups : List (HandlerGroup σ)}
    (h : groups.any (·.canHandle event segment) = false) :
    groups.flatMap (·.callees event segment) = [] := by
  rw [List.flatMap_eq_nil_iff]
  intro g hg
  exact g.callees_eq_nil event segment (by simpa using List.any_eq_false.mp h g hg)

mutual

lemma handle_eq : ∀ invoker : Invoker σ, invoker.OverGroups →
    invoker.handle event unit segment =
      Callee.callAll event unit (invoker.groups.flatMap (·.callees event segment))
  | .group g, _ => by
    rw [handle, groups, List.flatMap_singleton, g.handle_eq]
  | .all invokers, h => by
    rw [handle, groups]
    exact handleAll_eq invokers h

lemma handleAll_eq : ∀ invokers : List (Invoker σ), AllOverGroups invokers →
    handleAll invokers event unit segment =
      Callee.callAll event unit ((groupsAmong invokers).flatMap (·.callees event segment))
  | [], _ => rfl
  | invoker :: rest, h => by
    rw [handleAll, groupsAmong, List.flatMap_append, Callee.callAll_append,
      handle_eq invoker h.1, handleAll_eq rest h.2]
    split
    · rfl
    · next hc =>
      rw [canHandle_eq_any event segment invoker h.1, Bool.not_eq_true] at hc
      rw [callees_eq_nil event segment hc]
      rfl

end

end Tree

section Flat

mutual

lemma supportsReset_eq : ∀ invoker : Invoker σ, invoker.OverGroups → invoker.supportsReset = true
  | .group g, _ => rfl
  | .all invokers, h => by
    rw [supportsReset]
    exact allSupportReset_eq invokers h

lemma allSupportReset_eq : ∀ invokers : List (Invoker σ), AllOverGroups invokers →
    allSupportReset invokers = true
  | [], _ => rfl
  | invoker :: rest, h => by
    rw [allSupportReset, supportsReset_eq invoker h.1, allSupportReset_eq rest h.2, Bool.and_self]

end

variable (all : List (HandlerGroup σ))

lemma groupsAmong_map_group : groupsAmong (all.map .group) = all := by
  induction all with
  | nil => rfl
  | cons g rest ih => rw [List.map_cons, groupsAmong, groups, ih, List.singleton_append]

lemma allOverGroups_map_group : AllOverGroups (all.map .group) := by
  induction all with
  | nil => trivial
  | cons g rest ih => exact ⟨trivial, ih⟩

lemma groups_flat (invoker : Invoker σ) : invoker.flat.groups = invoker.groups := by
  rw [flat, groups, groupsAmong_map_group]

lemma overGroups_flat (invoker : Invoker σ) : invoker.flat.OverGroups :=
  allOverGroups_map_group _

end Flat

/-- A tree over groups can handle an event when one of its groups owns it and has a handler for it.
It calls just those handlers, each failure going to the error handler of its own group, and is no
different from the list of its groups. -/
theorem tree_dispatches_as_list (invoker : Invoker σ) (h : invoker.OverGroups)
    (event : EventMessage) (unit : UnitOfWork) (segment : Segment) :
    (invoker.canHandle event segment = true ↔
      ∃ group ∈ invoker.groups, group.owns event segment = true ∧
        ∃ handler ∈ group.handlers, handler.canHandle event = true) ∧
    (∀ depth s outcome s', System.run depth (invoker.handle event unit segment) s =
        some (outcome, s') ↔
      Dispatches depth event unit (invoker.callees event segment) s outcome s') ∧
    (invoker.canHandle event segment = false →
      invoker.callees event segment = [] ∧ invoker.handle event unit segment = return .ok ()) ∧
    invoker.flat.canHandle event segment = invoker.canHandle event segment ∧
    invoker.flat.handle event unit segment = invoker.handle event unit segment ∧
    invoker.flat.supportsReset = invoker.supportsReset := by
  have hcan := canHandle_eq_any event segment invoker h
  have hhandle := handle_eq event unit segment invoker h
  refine ⟨?_, fun depth s outcome s' => ?_, fun hc => ?_, ?_, ?_, ?_⟩
  · rw [hcan, List.any_eq_true]
    exact exists_congr fun group => and_congr_right fun _ => group.canHandle_iff event segment
  · rw [hhandle]
    exact Callee.run_callAll_iff event unit _ depth
  · rw [hcan] at hc
    have hnone := callees_eq_nil event segment hc
    exact ⟨hnone, by rw [hhandle, hnone, Callee.callAll]⟩
  · rw [hcan, canHandle_eq_any event segment _ invoker.overGroups_flat, groups_flat]
  · rw [hhandle, handle_eq event unit segment _ invoker.overGroups_flat, groups_flat]
  · rw [supportsReset_eq invoker h, supportsReset_eq _ invoker.overGroups_flat]

def Sample.tree : Invoker Unit :=
  .all [.all [],
    .all [.group (Sample.group (fun _ => .error (.report "broken")) (.logging 0)), .all []],
    .group (Sample.group (fun _ => .error (.report "fatal")) (.propagating 0)),
    .group (Sample.group (fun _ => .ok ()) (.logging 0))]

theorem nested_tree_stops : ∃ s',
    System.run 0 (Sample.tree.handle (Sample.event "first") { message := Sample.event "first" }
      .root) { shared := () } = some (.error (.report "fatal"), s') ∧
    Dispatches 0 (Sample.event "first") { message := Sample.event "first" }
      (Sample.tree.callees (Sample.event "first") .root) { shared := () }
      (.error (.report "fatal")) s' ∧
    (Sample.tree.callees (Sample.event "first") .root).length = 3 ∧
    Sample.tree.canHandle (Sample.event "first") .root = true := by
  have htree : Sample.tree.OverGroups :=
    ⟨trivial, ⟨trivial, trivial, trivial⟩, trivial, trivial, trivial⟩
  obtain ⟨hcan, hrun, -, -⟩ := tree_dispatches_as_list Sample.tree htree
    (Sample.event "first") { message := Sample.event "first" } .root
  refine ⟨_, rfl, (hrun 0 _ _ _).mp rfl, rfl, hcan.mpr ?_⟩
  exact ⟨_, List.mem_cons_self, rfl, _, List.mem_cons_self, rfl⟩

end Invoker

end EventProcessing
