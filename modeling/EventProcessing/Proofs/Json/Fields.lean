import EventProcessing.Json.Value
import Mathlib.Data.String.Basic
import Mathlib.Tactic

namespace EventProcessing.Json

namespace Fields

variable {fields base extra : Fields} {key : String}

lemma get?_eq_none (h : ∀ entry ∈ fields, entry.1 ≠ key) : fields.get? key = none := by
  induction fields with
  | nil => rfl
  | cons first rest ih =>
    rw [get?, if_neg (h first List.mem_cons_self)]
    exact ih fun entry he => h entry (List.mem_cons_of_mem _ he)

lemma Sorted.get?_merge (h : extra.Sorted) (base : Fields) (key : String) :
    (base.merge extra).get? key = (extra.get? key).or (base.get? key) := by
  induction extra generalizing base with
  | nil => rfl
  | cons entry rest ih =>
    obtain ⟨k, value⟩ := entry
    obtain ⟨hfirst, hrest⟩ := List.pairwise_cons.mp h
    rw [merge_cons, ih hrest]
    by_cases hk : k = key
    · subst hk
      rw [get?_eq_none fun entry he => (hfirst entry he).ne', get?_put_self, get?, if_pos rfl]
      rfl
    · rw [get?_put_of_ne _ _ (Ne.symm hk), get?, if_neg hk]

lemma put_of_forall_lt (value : Json) (h : ∀ entry ∈ fields, entry.1 < key) :
    fields.put key value = fields ++ [(key, value)] := by
  induction fields with
  | nil => rfl
  | cons first rest ih =>
    have hfirst := h first List.mem_cons_self
    rw [put, if_neg hfirst.asymm, if_neg hfirst.ne,
      ih fun entry he => h entry (List.mem_cons_of_mem _ he), List.cons_append]

lemma first_le_of_get? {value : Json} {first : String × Json} {rest : Fields}
    (h : Sorted (first :: rest)) (hg : get? (first :: rest) key = some value) : first.1 ≤ key := by
  by_contra hlt
  obtain ⟨hfirst, -⟩ := List.pairwise_cons.mp h
  have hnone : get? (first :: rest) key = none := by
    refine get?_eq_none fun entry he => ?_
    rcases List.mem_cons.mp he with rfl | he
    · exact (not_le.mp hlt).ne'
    · exact ((not_le.mp hlt).trans (hfirst entry he)).ne'
  rw [hnone] at hg
  cases hg

lemma Sorted.ext {xs ys : Fields} (hx : xs.Sorted) (hy : ys.Sorted)
    (h : ∀ key, xs.get? key = ys.get? key) : xs = ys := by
  induction xs generalizing ys with
  | nil =>
    cases ys with
    | nil => rfl
    | cons entry rest =>
      have hk := h entry.1
      rw [get?_nil, get?, if_pos rfl] at hk
      cases hk
  | cons x xs ih =>
    obtain ⟨k, v⟩ := x
    cases ys with
    | nil =>
      have hk := h k
      rw [get?_nil, get?, if_pos rfl] at hk
      cases hk
    | cons y ys =>
      obtain ⟨l, w⟩ := y
      have hkv : get? ((k, v) :: xs) k = some v := if_pos rfl
      have hlw : get? ((l, w) :: ys) l = some w := if_pos rfl
      have hle := first_le_of_get? hx ((h l).trans hlw)
      have hge := first_le_of_get? hy ((h k).symm.trans hkv)
      obtain rfl : k = l := le_antisymm hle hge
      obtain rfl : v = w := Option.some.inj (hkv.symm.trans ((h k).trans hlw))
      obtain ⟨hfirst, hxs⟩ := List.pairwise_cons.mp hx
      obtain ⟨hfirst', hys⟩ := List.pairwise_cons.mp hy
      refine congrArg ((k, v) :: ·) (ih hxs hys fun key => ?_)
      by_cases hk : k = key
      · subst hk
        rw [get?_eq_none fun entry he => (hfirst entry he).ne',
          get?_eq_none fun entry he => (hfirst' entry he).ne']
      · have hkey := h key
        rwa [get?, get?, if_neg hk, if_neg hk] at hkey

end Fields

namespace Object

variable {base extra more : Object} {data : List Object} {key : String}

lemma ext (h : ∀ key, base.get? key = extra.get? key) : base = extra := by
  obtain ⟨fields, hf⟩ := base
  obtain ⟨others, ho⟩ := extra
  obtain rfl : fields = others := hf.ext ho h
  rfl

@[simp] lemma get?_empty : empty.get? key = none := rfl

lemma get?_merge : (base.merge extra).get? key = (extra.get? key).or (base.get? key) :=
  extra.sorted.get?_merge _ _

lemma merge_empty : base.merge empty = base := rfl

lemma empty_merge : empty.merge extra = extra :=
  ext fun key => by rw [get?_merge, get?_empty, Option.or_none]

lemma merge_assoc : (base.merge extra).merge more = base.merge (extra.merge more) :=
  ext fun key => by simp only [get?_merge, Option.or_assoc]

instance : Std.Associative Object.merge := ⟨fun _ _ _ => merge_assoc⟩

lemma merge_foldl_merge : base.merge (data.foldl merge empty) = data.foldl merge base :=
  calc
    _ = data.foldl merge (base.merge empty) := List.foldl_assoc.symm
    _ = data.foldl merge base := by rw [merge_empty]

lemma get?_foldl_merge : (data.foldl merge base).get? key =
    (data.reverse.findSome? fun part => part.get? key).or (base.get? key) := by
  induction data generalizing base with
  | nil => rfl
  | cons part rest ih =>
    rw [List.foldl_cons, ih, get?_merge, List.reverse_cons, List.findSome?_append, Option.or_assoc]
    congr 1
    cases h : part.get? key <;> simp [h]

end Object

end EventProcessing.Json
