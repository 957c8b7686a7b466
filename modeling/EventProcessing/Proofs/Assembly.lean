import EventProcessing.Assembly
import EventProcessing.Proofs.Execution

namespace EventProcessing

variable {σ κ α β : Type}

section FirstAppearance

variable [DecidableEq κ]

lemma eraseDups_concat (keys : List κ) (key : κ) :
    (keys ++ [key]).eraseDups =
      if key ∈ keys then keys.eraseDups else keys.eraseDups ++ [key] := by
  rw [List.eraseDups_append]
  split
  · next h => simp [List.removeAll, h]
  · next h => simp [List.removeAll, h, List.eraseDups_cons]

lemma nodup_eraseDups (keys : List κ) : keys.eraseDups.Nodup := by
  induction keys using List.reverseRecOn with
  | nil => exact List.nodup_nil
  | append_singleton keys key ih =>
    rw [eraseDups_concat]
    split
    · exact ih
    · next h =>
      have hk : key ∉ keys.eraseDups := fun hk => h (List.mem_eraseDups.mp hk)
      exact ih.append (List.nodup_singleton key) (List.disjoint_singleton.mpr hk)

lemma eraseDups_map_append [DecidableEq α] (f : α → κ) (xs : List α) (more : List κ) :
    (xs.eraseDups.map f ++ more).eraseDups = (xs.map f ++ more).eraseDups := by
  have hmem : ∀ ys key, key ∈ List.map f (List.eraseDups ys) ↔ key ∈ List.map f ys := by
    simp
  have hmap : (xs.eraseDups.map f).eraseDups = (xs.map f).eraseDups := by
    induction xs using List.reverseRecOn with
    | nil => rfl
    | append_singleton xs x ih =>
      rw [List.map_append, List.map_singleton, eraseDups_concat, eraseDups_concat]
      by_cases hx : x ∈ xs
      · rw [if_pos hx, ih, if_pos (List.mem_map_of_mem hx)]
      · simp only [if_neg hx, List.map_append, List.map_singleton, eraseDups_concat, hmem, ih]
  induction more using List.reverseRecOn with
  | nil => simpa using hmap
  | append_singleton more key ih =>
    simp only [← List.append_assoc, eraseDups_concat, ih, List.mem_append, hmem]

lemma perm_flatMap_filter (key : α → κ) {keys : List κ} (hn : keys.Nodup) {xs : List α}
    (hx : ∀ x ∈ xs, key x ∈ keys) :
    (keys.flatMap fun k => xs.filter fun x => key x = k).Perm xs := by
  induction keys generalizing xs with
  | nil =>
    obtain rfl : xs = [] := List.eq_nil_iff_forall_not_mem.mpr fun x h => by cases hx x h
    exact .refl _
  | cons k rest ih =>
    -- What does not belong to the first key has its keys among the rest.
    obtain ⟨hk, hn⟩ := List.nodup_cons.mp hn
    have hothers := @ih hn (xs.filter fun x => !decide (key x = k)) fun x h => by
      obtain ⟨h, hne⟩ := List.mem_filter.mp h
      exact (List.mem_cons.mp (hx x h)).resolve_left (by simpa using hne)
    have hsame : (rest.flatMap fun other => xs.filter fun x => key x = other) =
        rest.flatMap fun other =>
          (xs.filter fun x => !decide (key x = k)).filter fun x => key x = other := by
      apply List.flatMap_congr
      intro other ho
      rw [List.filter_filter]
      apply List.filter_congr
      intro x _
      have hne : other ≠ k := fun he => hk (he ▸ ho)
      by_cases h : key x = other
      · simp [h, hne]
      · simp [h]
    rw [List.flatMap_cons, hsame]
    exact (hothers.append_left _).trans (List.filter_append_perm _ xs)

end FirstAppearance

namespace Table

variable [DecidableEq κ]

def tabulate (keys : List κ) (f : κ → α) : Table κ α := keys.map fun key => (key, f key)

omit [DecidableEq κ] in
lemma keys_tabulate (keys : List κ) (f : κ → α) : (tabulate keys f).keys = keys := by
  simp [tabulate, Table.keys, Function.comp_def]

lemma get?_tabulate (keys : List κ) (f : κ → α) (key : κ) :
    (tabulate keys f).get? key = if key ∈ keys then some (f key) else none := by
  induction keys with
  | nil => rfl
  | cons k rest ih =>
    change (if k = key then some (f k) else (tabulate rest f).get? key) = _
    by_cases h : k = key
    · simp [h]
    · simp [h, ih, Ne.symm h]

lemma put_tabulate {keys : List κ} (hn : keys.Nodup) (f : κ → α) (key : κ) (value : α) :
    (tabulate keys f).put key value =
      tabulate (if key ∈ keys then keys else keys ++ [key]) (Function.update f key value) := by
  induction keys with
  | nil => simp [tabulate, put]
  | cons k rest ih =>
    obtain ⟨hk, hn⟩ := List.nodup_cons.mp hn
    change (if k = key then (k, value) :: tabulate rest f
      else (k, f k) :: (tabulate rest f).put key value) = _
    by_cases h : k = key
    · subst h
      have hrest : tabulate rest (Function.update f k value) = tabulate rest f := by
        apply List.map_congr_left
        intro other ho
        have hne : other ≠ k := fun he => hk (he ▸ ho)
        rw [Function.update_of_ne hne]
      rw [if_pos rfl, if_pos List.mem_cons_self, ← hrest]
      simp [tabulate]
    · rw [if_neg h, ih hn]
      by_cases hr : key ∈ rest <;> simp [tabulate, hr, h, Ne.symm h]

theorem foldl_push (key : β → κ) (value : β → α) (xs : List β) :
    xs.foldl (fun table x => Table.push table (key x) (value x)) [] =
      tabulate (xs.map key).eraseDups fun k => (xs.filter fun x => key x = k).map value := by
  -- The fold takes the last entry last.
  induction xs using List.reverseRecOn with
  | nil => rfl
  | append_singleton xs x ih =>
    have hfound : ((tabulate (xs.map key).eraseDups fun k =>
        (xs.filter fun x => key x = k).map value).get? (key x)).getD [] =
          (xs.filter fun y => key y = key x).map value := by
      rw [get?_tabulate]
      split
      · rfl
      · next h =>
        have hnone : (xs.filter fun y => key y = key x) = [] :=
          List.filter_eq_nil_iff.mpr fun y hy he => by
            refine h (List.mem_eraseDups.mpr (List.mem_map.mpr ⟨y, hy, ?_⟩))
            simpa using he
        simp [hnone]
    rw [List.foldl_append, ih, List.foldl_cons, List.foldl_nil, push, hfound,
      put_tabulate (nodup_eraseDups _), List.map_append, List.map_singleton, eraseDups_concat]
    simp only [List.mem_eraseDups]
    congr 1
    funext k
    by_cases hk : k = key x
    · subst hk
      simp
    · simp [hk, Ne.symm hk]

end Table

/-- The program ends in any system with this value, and all it does there is to tell these lines. -/
def ProgramOver.Tells (program : Program σ α) (value : α) (lines : List TraceLine) : Prop :=
  ∀ depth s, System.run depth program s = some (value, { s with trace := s.trace ++ lines })

namespace ProgramOver.Tells

variable {program : Program σ α} {value : α} {lines : List TraceLine}

lemma pure (value : α) : (Pure.pure value : Program σ α).Tells value [] := by
  intro depth s
  rw [List.append_nil]
  rfl

lemma trace (line : TraceLine) : (Program.trace line : Program σ Unit).Tells () [line] :=
  fun _ _ => rfl

lemma bind {next : α → Program σ β} {result : β} {more : List TraceLine}
    (hp : program.Tells value lines) (hn : (next value).Tells result more) :
    (program >>= next).Tells result (lines ++ more) := by
  intro depth s
  refine System.run_bind_eq_some.mpr ⟨value, _, hp depth s, ?_⟩
  rw [hn, List.append_assoc]

lemma map {f : α → β} (hp : program.Tells value lines) :
    (do return f (← program)).Tells (f value) lines := by
  have h : (program >>= fun a => Pure.pure (f a)).Tells (f value) (lines ++ []) :=
    hp.bind (.pure (f value))
  rwa [List.append_nil] at h

lemma mapM {f : α → Program σ β} {g : α → β} {line : α → TraceLine}
    (hf : ∀ x, (f x).Tells (g x) [line x]) (xs : List α) :
    (xs.mapM f).Tells (xs.map g) (xs.map line) := by
  induction xs with
  | nil => exact .pure []
  | cons x xs ih =>
    rw [List.mapM_cons]
    exact (hf x).bind ih.map

lemma forM {f : α → Program σ Unit} {line : α → TraceLine}
    (hf : ∀ x, (f x).Tells () [line x]) (xs : List α) : (xs.forM f).Tells () (xs.map line) := by
  induction xs with
  | nil => exact .pure ()
  | cons x xs ih => exact (hf x).bind ih

end ProgramOver.Tells

namespace InvokerSource

def members : InvokerSource σ → List (EventHandler σ)
  | .handlers _ members => members
  | .saga _ => []

def handlerGroup? : InvokerSource σ → Option String
  | .handlers group _ => some group
  | .saga _ => none

def saga? : InvokerSource σ → Option (Saga σ)
  | .handlers _ _ => none
  | .saga s => some s

end InvokerSource

namespace Assembly

section Parts

variable (handlers : List (EventHandler σ)) (sagas : List (Saga σ)) (selectors : SelectorChain σ)
  (names : ProcessorNames)

def processors : List String :=
  (handlers.map (fun handler => names.resolve (selectors.groupOf handler)) ++
    sagas.map fun saga => names.resolve saga.group).eraseDups

def groupSource (group : String) : InvokerSource σ :=
  .handlers group (handlers.filter fun handler => selectors.groupOf handler = group)

def sourcesOf (processor : String) : List (InvokerSource σ) :=
  ((handlers.map selectors.groupOf).eraseDups.filter fun group =>
      names.resolve group = processor).map (groupSource handlers selectors) ++
    (sagas.filter fun saga => names.resolve saga.group = processor).map .saga

structure Parts (assembly : Assembly σ) : Prop where
  keys : assembly.keys = processors handlers sagas selectors names
  nodup : assembly.keys.Nodup
  sources : ∀ processor ∈ assembly.keys,
    assembly.get? processor = some (sourcesOf handlers sagas selectors names processor)
  nonempty : ∀ entry ∈ assembly, entry.2 ≠ [] ∧
    ∀ group members, .handlers group members ∈ entry.2 → members ≠ []
  oneSource : ((assembly.flatMap Prod.snd).filterMap InvokerSource.handlerGroup?).Nodup
  handlers : ((assembly.flatMap Prod.snd).flatMap InvokerSource.members).Perm handlers
  sagas : ((assembly.flatMap Prod.snd).filterMap InvokerSource.saga?).Perm sagas

variable {handlers sagas selectors names}

lemma groups_eq : groups (handlers.map fun handler => (handler, selectors.groupOf handler)) =
    Table.tabulate (handlers.map selectors.groupOf).eraseDups fun group =>
      handlers.filter fun handler => selectors.groupOf handler = group := by
  have h := Table.foldl_push Prod.snd Prod.fst
    (handlers.map fun handler => (handler, selectors.groupOf handler))
  simpa [groups, List.filter_map, Function.comp_def] using h

lemma sources_eq :
    sources (handlers.map fun handler => (handler, selectors.groupOf handler)) sagas =
      (handlers.map selectors.groupOf).eraseDups.map (groupSource handlers selectors) ++
        sagas.map .saga := by
  rw [sources, groups_eq, Table.tabulate, List.map_map]
  rfl

abbrev allSources (handlers : List (EventHandler σ)) (sagas : List (Saga σ))
    (selectors : SelectorChain σ) : List (InvokerSource σ) :=
  (handlers.map selectors.groupOf).eraseDups.map (groupSource handlers selectors) ++
    sagas.map .saga

lemma processors_eq : processors handlers sagas selectors names =
    ((allSources handlers sagas selectors).map fun source =>
      names.resolve source.group).eraseDups := by
  have h := eraseDups_map_append names.resolve (handlers.map selectors.groupOf)
    (sagas.map fun saga => names.resolve saga.group)
  rw [List.map_map] at h
  rw [List.map_append, List.map_map, List.map_map]
  exact h.symm

lemma sourcesOf_eq (processor : String) : sourcesOf handlers sagas selectors names processor =
    (allSources handlers sagas selectors).filter fun source =>
      names.resolve source.group = processor := by
  rw [List.filter_append, List.filter_map, List.filter_map]
  rfl

lemma ofAssigned_eq :
    ofAssigned (handlers.map fun handler => (handler, selectors.groupOf handler)) sagas names =
      Table.tabulate (processors handlers sagas selectors names)
        (sourcesOf handlers sagas selectors names) := by
  have h := Table.foldl_push (fun source : InvokerSource σ => names.resolve source.group) id
    (allSources handlers sagas selectors)
  rw [← processors_eq] at h
  rw [ofAssigned, ofSources, sources_eq]
  refine h.trans (congrArg _ (funext fun processor => ?_))
  rw [List.map_id, sourcesOf_eq]

lemma eq_sourcesOf {processor : String} {sources : List (InvokerSource σ)}
    (h : (ofAssigned (handlers.map fun handler => (handler, selectors.groupOf handler)) sagas
      names).get? processor = some sources) :
    sources = sourcesOf handlers sagas selectors names processor := by
  rw [ofAssigned_eq, Table.get?_tabulate] at h
  split at h
  · exact (Option.some.inj h).symm
  · cases h

lemma mem_processors_iff {processor : String} :
    processor ∈ processors handlers sagas selectors names ↔
      ∃ source ∈ allSources handlers sagas selectors, names.resolve source.group = processor := by
  rw [processors_eq, List.mem_eraseDups, List.mem_map]

lemma perm_allSources :
    ((processors handlers sagas selectors names).flatMap
      (sourcesOf handlers sagas selectors names)).Perm (allSources handlers sagas selectors) := by
  simp only [funext sourcesOf_eq]
  refine perm_flatMap_filter (fun source : InvokerSource σ => names.resolve source.group)
    (nodup_eraseDups _) fun source hs => ?_
  exact mem_processors_iff.mpr ⟨source, hs, rfl⟩

lemma handlerGroups_allSources :
    (allSources handlers sagas selectors).filterMap InvokerSource.handlerGroup? =
      (handlers.map selectors.groupOf).eraseDups := by
  have hsagas : (sagas.map InvokerSource.saga).filterMap InvokerSource.handlerGroup? = [] := by
    simp [InvokerSource.handlerGroup?]
  rw [List.filterMap_append, hsagas, List.append_nil, List.filterMap_map]
  exact List.filterMap_some

lemma sagas_allSources :
    (allSources handlers sagas selectors).filterMap InvokerSource.saga? = sagas := by
  have hgroups : ((handlers.map selectors.groupOf).eraseDups.map
      (groupSource handlers selectors)).filterMap InvokerSource.saga? = [] := by
    simp [InvokerSource.saga?, groupSource]
  rw [List.filterMap_append, hgroups, List.nil_append, List.filterMap_map]
  exact List.filterMap_some

lemma members_allSources :
    ((allSources handlers sagas selectors).flatMap InvokerSource.members).Perm handlers := by
  have hsagas : (sagas.map InvokerSource.saga).flatMap InvokerSource.members = [] := by
    simp [InvokerSource.members]
  rw [List.flatMap_append, hsagas, List.append_nil, List.flatMap_map]
  refine perm_flatMap_filter selectors.groupOf (nodup_eraseDups _) fun handler hh => ?_
  exact List.mem_eraseDups.mpr (List.mem_map_of_mem hh)

lemma nonempty_of_mem_allSources {group : String} {members : List (EventHandler σ)}
    (h : .handlers group members ∈ allSources handlers sagas selectors) : members ≠ [] := by
  rcases List.mem_append.mp h with h | h
  · obtain ⟨_, hg, he⟩ := List.mem_map.mp h
    cases he
    obtain ⟨handler, hh, hgroup⟩ := List.mem_map.mp (List.mem_eraseDups.mp hg)
    exact List.ne_nil_of_mem (List.mem_filter.mpr ⟨hh, decide_eq_true hgroup⟩)
  · obtain ⟨_, -, he⟩ := List.mem_map.mp h
    cases he

lemma parts_tabulate : Parts handlers sagas selectors names
    (Table.tabulate (processors handlers sagas selectors names)
      (sourcesOf handlers sagas selectors names)) := by
  have hkeys := Table.keys_tabulate (processors handlers sagas selectors names)
    (sourcesOf handlers sagas selectors names)
  have hsources : (Table.tabulate (processors handlers sagas selectors names)
      (sourcesOf handlers sagas selectors names)).flatMap Prod.snd =
        (processors handlers sagas selectors names).flatMap
          (sourcesOf handlers sagas selectors names) := List.flatMap_map _ _ _
  have hperm : ((processors handlers sagas selectors names).flatMap
      (sourcesOf handlers sagas selectors names)).Perm (allSources handlers sagas selectors) :=
    perm_allSources
  constructor
  case keys => exact hkeys
  case nodup =>
    rw [hkeys]
    exact nodup_eraseDups _
  case sources =>
    intro processor hp
    rw [hkeys] at hp
    rw [Table.get?_tabulate, if_pos hp]
  case nonempty =>
    intro entry he
    obtain ⟨processor, hp, rfl⟩ := List.mem_map.mp he
    obtain ⟨source, hs, hn⟩ := mem_processors_iff.mp hp
    dsimp only
    rw [sourcesOf_eq]
    refine ⟨List.ne_nil_of_mem (List.mem_filter.mpr ⟨hs, decide_eq_true hn⟩), ?_⟩
    exact fun group members hm => nonempty_of_mem_allSources (List.mem_filter.mp hm).1
  case oneSource =>
    rw [hsources, (hperm.filterMap _).nodup_iff, handlerGroups_allSources]
    exact nodup_eraseDups _
  case handlers =>
    rw [hsources]
    exact (hperm.flatMap_right _).trans members_allSources
  case sagas =>
    rw [hsources]
    exact (hperm.filterMap _).trans (.of_eq sagas_allSources)

end Parts

lemma exists_tells_assign (selectors : SelectorChain σ) :
    ∃ line : EventHandler σ → TraceLine, ∀ handler,
      (selectors.assign handler).Tells (selectors.groupOf handler) [line handler] :=
  ⟨_, fun _ => (ProgramOver.Tells.trace _).map⟩

lemma exists_tells_make (handlers : List (EventHandler σ)) (sagas : List (Saga σ))
    (selectors : SelectorChain σ) (names : ProcessorNames) :
    ∃ lines, (make handlers sagas selectors names).Tells
      (ofAssigned (handlers.map fun handler => (handler, selectors.groupOf handler)) sagas names)
      lines := by
  obtain ⟨line, hassign⟩ := exists_tells_assign selectors
  have hassigned : ∀ handler, (do return (handler, ← selectors.assign handler) :
      Program σ (EventHandler σ × String)).Tells (handler, selectors.groupOf handler)
        [line handler] := fun handler => (hassign handler).map
  have hgroup : ∀ entry : String × List (EventHandler σ),
      (traceGroup names entry.1 : Program σ Unit).Tells () [_] := fun _ => .trace _
  have hall := ProgramOver.Tells.mapM hassigned handlers
  exact ⟨_, hall.bind (ProgramOver.Tells.forM hgroup _).map⟩

/-- Assembling ends in every system and does nothing there but tell of it, and every handler and
saga has its one place in what it gives. -/
theorem make_parts (handlers : List (EventHandler σ)) (sagas : List (Saga σ))
    (selectors : SelectorChain σ) (names : ProcessorNames) (depth : ℕ) (s : System σ) :
    ∃ assembly lines, System.run depth (make handlers sagas selectors names) s =
        some (assembly, { s with trace := s.trace ++ lines }) ∧
      Parts handlers sagas selectors names assembly := by
  obtain ⟨lines, hmake⟩ := exists_tells_make handlers sagas selectors names
  exact ⟨_, lines, hmake depth s, ofAssigned_eq ▸ parts_tabulate⟩

end Assembly

end EventProcessing
