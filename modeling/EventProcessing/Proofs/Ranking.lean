import EventProcessing.Selector
import Mathlib.Tactic

/-! Sorting by rank. A stable sort is known by what it keeps: within one rank the order is that of
the list, so it makes no difference how often a part of the list was sorted before. -/

namespace EventProcessing

section Stable

variable {α : Type} {le : α → α → Bool}

lemma eq_of_pairwise_of_filter_eq {xs ys : List α} (hx : xs.Pairwise fun a b => le a b = true)
    (hy : ys.Pairwise fun a b => le a b = true) (hr : ∀ a, le a a = true)
    (h : ∀ x, (xs.filter fun a => le a x && le x a) = ys.filter fun a => le a x && le x a) :
    xs = ys := by
  induction xs generalizing ys with
  | nil =>
    refine (List.eq_nil_iff_forall_not_mem.mpr fun y hy => ?_).symm
    have hmem : y ∈ ys.filter fun a => le a y && le y a := List.mem_filter.mpr ⟨hy, by simp [hr]⟩
    rw [← h y] at hmem
    cases hmem
  | cons x xs ih =>
    obtain ⟨hxs, hxrest⟩ := List.pairwise_cons.mp hx
    -- The first of each list is in the other, and so of the same rank.
    have hmem : x ∈ ys.filter fun a => le a x && le x a := by
      rw [← h x]
      exact List.mem_filter.mpr ⟨List.mem_cons_self, by simp [hr]⟩
    cases ys with
    | nil => cases hmem
    | cons y ys =>
      obtain ⟨hys, hyrest⟩ := List.pairwise_cons.mp hy
      have hyx : le y x = true :=
        (List.mem_cons.mp (List.mem_filter.mp hmem).1).elim (fun e => e ▸ hr _) (hys x)
      have hxy : le x y = true := by
        have hmem : y ∈ (x :: xs).filter fun a => le a y && le y a := by
          rw [h y]
          exact List.mem_filter.mpr ⟨List.mem_cons_self, by simp [hr]⟩
        exact (List.mem_cons.mp (List.mem_filter.mp hmem).1).elim (fun e => e ▸ hr _) (hxs y)
      have hfirst := h x
      rw [List.filter_cons_of_pos (by simp [hr]), List.filter_cons_of_pos (by simp [hxy, hyx]),
        List.cons.injEq] at hfirst
      obtain ⟨rfl, -⟩ := hfirst
      refine congrArg (x :: ·) (ih hxrest hyrest fun z => ?_)
      have hz := h z
      by_cases hc : (le x z && le z x) = true
      · rw [List.filter_cons_of_pos (by simpa using hc),
          List.filter_cons_of_pos (by simpa using hc),
          List.cons.injEq] at hz
        exact hz.2
      · rwa [List.filter_cons_of_neg (by simpa using hc),
          List.filter_cons_of_neg (by simpa using hc)] at hz

variable (trans : ∀ a b c, le a b = true → le b c = true → le a c = true)
  (total : ∀ a b, (le a b || le b a) = true)

include trans total

lemma filter_mergeSort (xs : List α) (x : α) :
    ((xs.mergeSort le).filter fun a => le a x && le x a) =
      xs.filter fun a => le a x && le x a := by
  have hranked : (xs.filter fun a => le a x && le x a).Pairwise fun a b => le a b = true := by
    refine List.pairwise_iff_forall_sublist.mpr fun hs => ?_
    have ha := (List.mem_filter.mp (hs.subset List.mem_cons_self)).2
    have hb := (List.mem_filter.mp (hs.subset (List.mem_cons_of_mem _ List.mem_cons_self))).2
    rw [Bool.and_eq_true] at ha hb
    exact trans _ x _ ha.1 hb.2
  have hsub := (List.sublist_mergeSort trans total hranked List.filter_sublist).filter
    fun a => le a x && le x a
  rw [List.filter_filter] at hsub
  simp only [Bool.and_self] at hsub
  exact (hsub.eq_of_length ((List.mergeSort_perm xs le).filter _).length_eq.symm).symm

theorem mergeSort_eq_mergeSort {xs ys : List α}
    (h : ∀ x, (xs.filter fun a => le a x && le x a) = ys.filter fun a => le a x && le x a) :
    xs.mergeSort le = ys.mergeSort le := by
  refine eq_of_pairwise_of_filter_eq (List.pairwise_mergeSort trans total xs)
    (List.pairwise_mergeSort trans total ys) (fun a => by simpa using total a a) fun x => ?_
  rw [filter_mergeSort trans total, filter_mergeSort trans total, h]

theorem mergeSort_mergeSort_append (xs ys : List α) :
    (xs.mergeSort le ++ ys).mergeSort le = (xs ++ ys).mergeSort le := by
  refine mergeSort_eq_mergeSort trans total fun x => ?_
  rw [List.filter_append, List.filter_append, filter_mergeSort trans total]

end Stable

namespace SelectorChain

variable {σ : Type} (chain : SelectorChain σ)

lemma ranked_trans (a b c : Selector σ) (hab : decide (b.priority ≤ a.priority) = true)
    (hbc : decide (c.priority ≤ b.priority) = true) : decide (c.priority ≤ a.priority) = true := by
  simp only [decide_eq_true_eq] at hab hbc ⊢
  exact hbc.trans hab

lemma ranked_total (a b : Selector σ) :
    (decide (b.priority ≤ a.priority) || decide (a.priority ≤ b.priority)) = true := by
  simp only [Bool.or_eq_true, decide_eq_true_eq]
  exact le_total _ _

theorem sort_sort_add (selector : Selector σ) :
    (chain.sort.add selector).sort = (chain.add selector).sort := by
  simp only [sort, add, mk.injEq, and_true]
  exact mergeSort_mergeSort_append ranked_trans ranked_total _ _

theorem sort_sort : chain.sort.sort = chain.sort := by
  simp only [sort, mk.injEq, and_true]
  exact mergeSort_eq_mergeSort ranked_trans ranked_total fun selector =>
    filter_mergeSort ranked_trans ranked_total _ selector

end SelectorChain

end EventProcessing
