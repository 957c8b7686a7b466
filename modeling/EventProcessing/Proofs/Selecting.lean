import EventProcessing.Proofs.Assembly
import EventProcessing.Proofs.Ranking

namespace EventProcessing

variable {σ α : Type}

section Stable

variable {le : α → α → Bool} (trans : ∀ a b c, le a b = true → le b c = true → le a c = true)
  (total : ∀ a b, (le a b || le b a) = true) {p : α → Bool} {xs : List α} {x : α}

include trans total

lemma best_of_find?_mergeSort (h : (xs.mergeSort le).find? p = some x) :
    ∀ y ∈ xs, p y = true → le x y = true := by
  obtain ⟨-, early, late, hsplit, hearly⟩ := List.find?_eq_some_iff_append.mp h
  have hsorted := List.pairwise_mergeSort trans total xs
  intro y hy hpy
  have hmem : y ∈ xs.mergeSort le := List.mem_mergeSort.mpr hy
  rw [hsplit] at hsorted hmem
  rcases List.mem_append.mp hmem with hm | hm
  · have hnot := hearly y hm
    rw [hpy] at hnot
    cases hnot
  · rcases List.mem_cons.mp hm with rfl | hm
    · simpa using total y y
    · exact List.rel_of_pairwise_cons (List.pairwise_append.mp hsorted).2.1 hm

lemma first_of_find?_mergeSort (h : (xs.mergeSort le).find? p = some x) :
    ∃ before after, xs = before ++ x :: after ∧ ∀ y ∈ before, p y = true → le y x = false := by
  have hbest := best_of_find?_mergeSort trans total h
  obtain ⟨-, early, late, hsplit, hearly⟩ := List.find?_eq_some_iff_append.mp h
  -- Within the rank of `x`, the list and its sort have the same order.
  have hrank := filter_mergeSort trans total xs x
  have hself : (le x x && le x x) = true := by simpa using total x x
  rw [hsplit, List.filter_append, List.filter_cons, if_pos hself] at hrank
  obtain ⟨before, rest, rfl, hbefore, hrest⟩ := List.filter_eq_append_iff.mp hrank.symm
  obtain ⟨others, after, rfl, hothers, -, -⟩ := List.filter_eq_cons_iff.mp hrest
  refine ⟨before ++ others, after, (List.append_assoc ..).symm, fun y hy hpy => ?_⟩
  have hxy : le x y = true := by
    refine hbest y ?_ hpy
    rw [← List.append_assoc]
    exact List.mem_append_left _ hy
  by_contra hyx
  have hranked : (le y x && le x y) = true := by simpa [hxy] using hyx
  rcases List.mem_append.mp hy with hm | hm
  · have hmem : y ∈ early.filter fun a => le a x && le x a :=
      hbefore ▸ List.mem_filter.mpr ⟨hm, hranked⟩
    have hnot := hearly y (List.mem_filter.mp hmem).1
    rw [hpy] at hnot
    cases hnot
  · exact hothers y hm hranked

end Stable

inductive Arrangement (σ : Type) where
  | add (selector : Selector σ)
  | sort
  | setFallback (fallback : EventHandler σ → String)

namespace Arrangement

def perform (chain : SelectorChain σ) : Arrangement σ → SelectorChain σ
  | .add selector => chain.add selector
  | .sort => chain.sort
  | .setFallback fallback => { chain with fallback }

def added? : Arrangement σ → Option (Selector σ)
  | .add selector => some selector
  | _ => none

def fallback? : Arrangement σ → Option (EventHandler σ → String)
  | .setFallback fallback => some fallback
  | _ => none

def selectors (history : List (Arrangement σ)) : List (Selector σ) := history.filterMap added?

def fallback (history : List (Arrangement σ)) : EventHandler σ → String :=
  (history.filterMap fallback?).getLast?.getD ({} : SelectorChain σ).fallback

end Arrangement

namespace SelectorChain

def arranged (history : List (Arrangement σ)) : SelectorChain σ :=
  history.foldl Arrangement.perform {}

def gathered (history : List (Arrangement σ)) : SelectorChain σ where
  selectors := Arrangement.selectors history
  fallback := Arrangement.fallback history

lemma arranged_concat (history : List (Arrangement σ)) (last : Arrangement σ) :
    arranged (history ++ [last]) = last.perform (arranged history) := by
  rw [arranged, List.foldl_append]
  rfl

lemma gathered_add (history : List (Arrangement σ)) (selector : Selector σ) :
    gathered (history ++ [.add selector]) = (gathered history).add selector := by
  simp [gathered, add, Arrangement.selectors, Arrangement.fallback, Arrangement.added?,
    Arrangement.fallback?]

lemma gathered_sort (history : List (Arrangement σ)) :
    gathered (history ++ [.sort]) = gathered history := by
  simp [gathered, Arrangement.selectors, Arrangement.fallback, Arrangement.added?,
    Arrangement.fallback?]

lemma gathered_setFallback (history : List (Arrangement σ)) (fallback : EventHandler σ → String) :
    gathered (history ++ [.setFallback fallback]) = { gathered history with fallback } := by
  simp [gathered, Arrangement.selectors, Arrangement.fallback, Arrangement.added?,
    Arrangement.fallback?]

lemma sort_arranged (history : List (Arrangement σ)) :
    (arranged history).sort = (gathered history).sort := by
  induction history using List.reverseRecOn with
  | nil => rfl
  | append_singleton history last ih =>
    rw [arranged_concat]
    cases last with
    | add selector =>
      calc ((arranged history).add selector).sort
          = ((arranged history).sort.add selector).sort := (sort_sort_add _ _).symm
        _ = ((gathered history).sort.add selector).sort := by rw [ih]
        _ = ((gathered history).add selector).sort := sort_sort_add _ _
        _ = (gathered (history ++ [.add selector])).sort := by rw [gathered_add]
    | sort => rw [gathered_sort, ← ih, Arrangement.perform, sort_sort]
    | setFallback fallback =>
      rw [gathered_setFallback]
      exact congrArg (fun chain : SelectorChain σ => { chain with fallback }) ih

structure Prefers (selectors : List (Selector σ)) (handler : EventHandler σ) (i : ℕ)
    (selector : Selector σ) : Prop where
  added : selectors[i]? = some selector
  applies : selector.applies handler = true
  first : ∀ j other, selectors[j]? = some other → other.applies handler = true →
    other.priority < selector.priority ∨ other.priority = selector.priority ∧ i ≤ j

variable {chain : SelectorChain σ} {handler : EventHandler σ} {selector : Selector σ}

lemma selected?_eq (chain : SelectorChain σ) (handler : EventHandler σ) :
    chain.selected? handler =
      (chain.selectors.find? fun selector => selector.applies handler).map Selector.group := by
  rw [selected?, ← List.findSome?_guard, List.map_findSome?]
  congr 1
  funext selector
  by_cases h : selector.applies handler = true <;> simp [Selector.select?, Option.guard, h]

lemma exists_prefers (h : chain.sort.selectors.find? (fun selector => selector.applies handler) =
    some selector) : ∃ i, Prefers chain.selectors handler i selector := by
  have hbest := best_of_find?_mergeSort ranked_trans ranked_total h
  obtain ⟨before, after, hsplit, hbefore⟩ := first_of_find?_mergeSort ranked_trans ranked_total h
  have happlies : selector.applies handler = true :=
    (List.find?_eq_some_iff_append.mp h).1
  refine ⟨before.length, by rw [hsplit]; simp, happlies, fun j other hj ha => ?_⟩
  have hle : other.priority ≤ selector.priority :=
    of_decide_eq_true (hbest other (List.mem_of_getElem? hj) ha)
  rcases hle.lt_or_eq with hlt | heq
  · exact .inl hlt
  · refine .inr ⟨heq, not_lt.mp fun hlt => ?_⟩
    rw [hsplit, List.getElem?_append_left hlt] at hj
    have hworse := of_decide_eq_false (hbefore other (List.mem_of_getElem? hj) ha)
    exact hworse heq.ge

lemma groupOf_of_none (h : chain.selectors.find? (fun selector => selector.applies handler) =
    none) : chain.groupOf handler = handler.declaredGroup.getD (chain.fallback handler) := by
  rw [groupOf, selected?_eq, h]
  rfl

lemma groupOf_of_some (h : chain.selectors.find? (fun selector => selector.applies handler) =
    some selector) : chain.groupOf handler = selector.group := by
  rw [groupOf, selected?_eq, h]
  rfl

/-- However selectors were added and sorted in turn, a chain that was sorted last assigns a handler
by priority, and among equals by age; one that no selector matches goes where it declares, or else
to the last fallback. -/
theorem assigned_by_priority (history : List (Arrangement σ)) (handler : EventHandler σ) :
    arranged (history ++ [.sort]) = (gathered history).sort ∧
    ∃ group lines, ((arranged (history ++ [.sort])).assign handler).Tells group lines ∧
      ((∃ i selector, Prefers (Arrangement.selectors history) handler i selector ∧
          group = selector.group) ∨
        (∀ selector ∈ Arrangement.selectors history, selector.applies handler = false) ∧
          group = handler.declaredGroup.getD (Arrangement.fallback history handler)) := by
  have hsorted : arranged (history ++ [.sort]) = (gathered history).sort := by
    rw [arranged_concat]
    exact sort_arranged history
  obtain ⟨line, htells⟩ := Assembly.exists_tells_assign (gathered history).sort
  rw [hsorted]
  refine ⟨rfl, _, _, htells handler, ?_⟩
  cases hfind : (gathered history).sort.selectors.find? fun selector =>
      selector.applies handler with
  | some selector =>
    obtain ⟨i, hprefers⟩ := exists_prefers hfind
    exact .inl ⟨i, selector, hprefers, groupOf_of_some hfind⟩
  | none =>
    refine .inr ⟨fun selector hm => ?_, groupOf_of_none hfind⟩
    have hnone := List.find?_eq_none.mp hfind selector (List.mem_mergeSort.mpr hm)
    exact Bool.eq_false_iff.mpr hnone

end SelectorChain

end EventProcessing
