import EventProcessing.Proofs.Notebook.Calls

namespace EventProcessing

variable {σ : Type} {event : EventMessage} {segment : Segment}

lemma mem_takersFrom {path place : List ℕ} {n : ℕ} {handlers : List (EventHandler σ)} :
    place ∈ takersFrom path event n handlers ↔ ∃ j handler, handlers[j]? = some handler ∧
      handler.canHandle event = true ∧ place = path ++ [n + j] := by
  induction handlers generalizing n with
  | nil => simp [takersFrom]
  | cons first rest ih =>
    have hrest : place ∈ takersFrom path event (n + 1) rest ↔
        ∃ j handler, (first :: rest)[j + 1]? = some handler ∧ handler.canHandle event = true ∧
          place = path ++ [n + (j + 1)] := by
      rw [ih]
      simp only [List.getElem?_cons_succ, Nat.add_assoc, Nat.add_comm 1]
    unfold takersFrom
    split
    · next hc =>
      rw [List.mem_cons, hrest]
      constructor
      · rintro (rfl | ⟨j, handler, hj⟩)
        · exact ⟨0, first, rfl, hc, rfl⟩
        · exact ⟨j + 1, handler, hj⟩
      · rintro ⟨_ | j, handler, hj⟩
        · exact .inl hj.2.2
        · exact .inr ⟨j, handler, hj⟩
    · next hc =>
      rw [hrest]
      constructor
      · rintro ⟨j, handler, hj⟩
        exact ⟨j + 1, handler, hj⟩
      · rintro ⟨_ | j, handler, hj⟩
        · cases hj.1
          exact absurd hj.2.1 hc
        · exact ⟨j, handler, hj⟩

lemma mem_takersAmong {path place : List ℕ} {n : ℕ} {groups : List (HandlerGroup σ)} :
    place ∈ Invoker.takersAmong event segment path n (groups.map Invoker.group) ↔
      ∃ g group, groups[g]? = some group ∧ group.owns event segment = true ∧
        place ∈ takersFrom (path ++ [n + g]) event 0 group.handlers := by
  induction groups generalizing n with
  | nil => simp [Invoker.takersAmong]
  | cons first rest ih =>
    have hfirst : place ∈ (Invoker.group first).takers event segment (path ++ [n]) ↔
        first.owns event segment = true ∧
          place ∈ takersFrom (path ++ [n]) event 0 first.handlers := by
      unfold Invoker.takers
      split <;> simp_all
    rw [List.map_cons, Invoker.takersAmong, List.mem_append, hfirst, ih]
    constructor
    · rintro (h | ⟨g, group, hg, h⟩)
      · exact ⟨0, first, rfl, h⟩
      · refine ⟨g + 1, group, hg, ?_⟩
        rwa [Nat.add_comm g, ← Nat.add_assoc]
    · rintro ⟨_ | g, group, hg, h⟩
      · cases hg
        exact .inl h
      · refine .inr ⟨g, group, hg, ?_⟩
        rwa [Nat.add_assoc, Nat.add_comm 1]

lemma mem_takers_all {place : List ℕ} {groups : List (HandlerGroup σ)} :
    place ∈ (Invoker.all (groups.map Invoker.group)).takers event segment [] ↔
      ∃ g h group handler, place = [g, h] ∧ groups[g]? = some group ∧
        group.handlers[h]? = some handler ∧ group.owns event segment = true ∧
        handler.canHandle event = true := by
  rw [Invoker.takers, mem_takersAmong]
  constructor
  · rintro ⟨g, group, hg, ho, hm⟩
    obtain ⟨h, handler, hh, hc, rfl⟩ := mem_takersFrom.mp hm
    exact ⟨g, h, group, handler, by simp, hg, hh, ho, hc⟩
  · rintro ⟨g, h, group, handler, rfl, hg, hh, ho, hc⟩
    exact ⟨g, group, hg, ho, mem_takersFrom.mpr ⟨h, handler, hh, hc, by simp⟩⟩

def InTurn (x y : List ℕ) : Prop := ∀ g h k, x = [g, h] → y = [g, k] → h < k

lemma pairwise_takersFrom (g n : ℕ) (handlers : List (EventHandler σ)) :
    (takersFrom [g] event n handlers).Pairwise InTurn := by
  induction handlers generalizing n with
  | nil => exact .nil
  | cons first rest ih =>
    unfold takersFrom
    split
    · refine List.pairwise_cons.mpr ⟨fun place hm => ?_, ih (n + 1)⟩
      obtain ⟨j, -, -, -, rfl⟩ := mem_takersFrom.mp hm
      intro g' h k hx hy
      cases hx
      cases hy
      omega
    · exact ih (n + 1)

lemma pairwise_takersAmong (n : ℕ) (groups : List (HandlerGroup σ)) :
    (Invoker.takersAmong event segment [] n (groups.map Invoker.group)).Pairwise InTurn := by
  induction groups generalizing n with
  | nil => exact .nil
  | cons first rest ih =>
    rw [List.map_cons, Invoker.takersAmong, List.pairwise_append]
    refine ⟨?_, ih (n + 1), fun x hx y hy => ?_⟩
    · unfold Invoker.takers
      split
      · exact pairwise_takersFrom n 0 first.handlers
      · exact .nil
    · obtain ⟨g, group, -, -, hm⟩ := mem_takersAmong.mp hy
      obtain ⟨_, -, -, -, rfl⟩ := mem_takersFrom.mp hm
      unfold Invoker.takers at hx
      split at hx
      · obtain ⟨_, -, -, -, rfl⟩ := mem_takersFrom.mp hx
        intro g' h k he he'
        cases he
        simp at he'
        omega
      · cases hx

end EventProcessing
