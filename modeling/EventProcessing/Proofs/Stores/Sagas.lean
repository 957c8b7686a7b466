import EventProcessing.Proofs.Execution
import EventProcessing.Proofs.Tables
import EventProcessing.SagaStore.Calls
import Mathlib.Data.String.Basic

namespace EventProcessing

variable {σ : Type}

namespace Table

variable {κ α : Type} [DecidableEq κ] {table : Table κ α} {key other : κ}

lemma get?_remove_self : (table.remove key).get? key = none := by
  apply Option.eq_none_iff_forall_ne_some.mpr
  intro value h
  have hm := mem_of_get? h
  simp [remove] at hm

lemma get?_remove_of_ne (h : other ≠ key) : (table.remove key).get? other = table.get? other :=
  get?_filter (fun k => decide (k ≠ key)) table (by simpa)

lemma nodup_keys_remove (h : table.keys.Nodup) (key : κ) : (table.remove key).keys.Nodup :=
  h.sublist (List.filter_sublist.map _)

end Table

inductive SagaCall where
  | save (sagaType id : String) (entry : SagaEntry)
  | delete (sagaType id : String)

namespace SagaCall

def key : SagaCall → String × String
  | .save t i _ | .delete t i => (t, i)

/-- The entry of the last save of this instance, which no delete of it followed. -/
def Stands (history : List SagaCall) (t i : String) (entry : SagaEntry) : Prop :=
  ∃ before after, history = before ++ .save t i entry :: after ∧
    ∀ call ∈ after, call.key ≠ (t, i)

variable {history : List SagaCall} {call : SagaCall} {t i : String} {entry : SagaEntry}

lemma not_stands_nil : ¬ Stands [] t i entry := by
  rintro ⟨before, after, h, -⟩
  simp at h

lemma stands_concat : Stands (history ++ [call]) t i entry ↔
    call = .save t i entry ∨ call.key ≠ (t, i) ∧ Stands history t i entry := by
  constructor
  · rintro ⟨before, after, h, hafter⟩
    rcases List.eq_nil_or_concat after with rfl | ⟨after, last, rfl⟩
    · exact .inl (List.append_inj_right' h rfl |> List.singleton_inj.mp)
    · rw [List.concat_eq_append, ← List.cons_append, ← List.append_assoc] at h
      rw [List.concat_eq_append] at hafter
      obtain ⟨rfl, hlast⟩ := List.append_inj' h rfl
      cases hlast
      simp only [List.mem_append, List.mem_singleton, or_imp, forall_and, forall_eq] at hafter
      exact .inr ⟨hafter.2, before, after, rfl, hafter.1⟩
  · rintro (rfl | ⟨hkey, before, after, rfl, hafter⟩)
    · exact ⟨history, [], rfl, by simp⟩
    · refine ⟨before, after ++ [call], by simp, ?_⟩
      simp only [List.mem_append, List.mem_singleton, or_imp, forall_and, forall_eq]
      exact ⟨hafter, hkey⟩

end SagaCall

namespace SagaMemory

open SagaCall

variable {memory : SagaMemory} {t i : String} {entry : SagaEntry} {a : Association}
  {call : SagaCall}

def after (memory : SagaMemory) : SagaCall → SagaMemory
  | .save t i entry => memory.save t i entry
  | .delete t i => memory.delete t i

lemma load_after_of_ne (h : (t, i) ≠ call.key) :
    (memory.after call).load t i = memory.load t i := by
  cases call with
  | save => exact Table.get?_put_of_ne _ _ h
  | delete => exact Table.get?_remove_of_ne h

lemma nodup_after (h : memory.keys.Nodup) (call : SagaCall) : (memory.after call).keys.Nodup := by
  cases call with
  | save => exact Table.nodup_keys_put h _ _
  | delete => exact Table.nodup_keys_remove h _

lemma nodup_afterAll (history : List SagaCall) : (history.foldl after []).keys.Nodup := by
  induction history using List.reverseRecOn with
  | nil => exact List.nodup_nil
  | append_singleton history call ih =>
    rw [List.foldl_append]
    exact nodup_after ih call

theorem load_afterAll_iff (history : List SagaCall) :
    load (history.foldl after []) t i = some entry ↔ Stands history t i entry := by
  induction history using List.reverseRecOn with
  | nil => exact iff_of_false nofun not_stands_nil
  | append_singleton history call ih =>
    rw [List.foldl_append, stands_concat, ← ih]
    change load (after _ call) t i = _ ↔ _
    by_cases hkey : (t, i) = call.key
    · cases call with
      | save =>
        obtain ⟨rfl, rfl⟩ := Prod.mk.inj hkey
        simp [after, load, save, key]
      | delete =>
        obtain ⟨rfl, rfl⟩ := Prod.mk.inj hkey
        simp [after, load, delete, Table.get?_remove_self, key]
    · rw [load_after_of_ne hkey]
      have hne : call ≠ .save t i entry := by
        rintro rfl
        exact hkey rfl
      simp [hne, Ne.symm hkey]

lemma mem_find_iff (h : memory.keys.Nodup) :
    i ∈ memory.find t a ↔ ∃ entry, memory.load t i = some entry ∧ a ∈ entry.associations := by
  simp only [find, List.mem_mergeSort, List.mem_filterMap, Option.ite_none_right_eq_some,
    Option.some.injEq]
  constructor
  · rintro ⟨⟨⟨t, i⟩, entry⟩, hm, ⟨rfl, ha⟩, rfl⟩
    exact ⟨entry, Table.get?_of_mem h hm, ha⟩
  · rintro ⟨entry, hl, ha⟩
    exact ⟨_, Table.mem_of_get? hl, ⟨rfl, ha⟩, rfl⟩

lemma find_ascends (h : memory.keys.Nodup) : (memory.find t a).Pairwise (· < ·) := by
  have hn : (memory.find t a).Nodup := by
    rw [find, (List.mergeSort_perm _ _).nodup_iff]
    refine List.Pairwise.filterMap _ (fun x y hne i hx j hy hij => hne ?_) (List.pairwise_map.mp h)
    simp only [Option.ite_none_right_eq_some, Option.some.injEq] at hx hy
    exact Prod.ext (hx.1.1.trans hy.1.1.symm) (hx.2.trans (hij.trans hy.2.symm))
  have hle : (memory.find t a).Pairwise (· ≤ ·) := List.pairwise_mergeSort' _ _
  exact hle.imp₂ (fun _ _ hle hne => lt_of_le_of_ne hle hne) hn

lemma filter_find_after (h : memory.keys.Nodup) (call : SagaCall) (t : String) (a : Association) :
    ((memory.after call).find t a).filter (fun i => (t, i) ≠ call.key) =
      (memory.find t a).filter fun i => (t, i) ≠ call.key := by
  have hafter := find_ascends (t := t) (a := a) (nodup_after h call)
  have hbefore := find_ascends (t := t) (a := a) h
  apply List.Perm.eq_of_pairwise (fun _ _ _ _ hij hji => (hij.asymm hji).elim)
    (hafter.filter _) (hbefore.filter _)
  refine (List.perm_ext_iff_of_nodup (hafter.nodup.filter _) (hbefore.nodup.filter _)).mpr
    fun i => ?_
  simp only [List.mem_filter, decide_eq_true_eq, and_congr_left_iff]
  intro hkey
  rw [mem_find_iff (nodup_after h call), mem_find_iff h, load_after_of_ne hkey]

end SagaMemory

namespace SagaStore

open SagaCall

def call (store : SagaStore) : SagaCall → Run σ Unit
  | .save t i entry => store.save t i entry
  | .delete t i => store.delete t i

def calls (store : SagaStore) : List SagaCall → Run σ Unit
  | [] => return ()
  | call :: rest => do
    store.call call
    store.calls rest

structure Holds (store : SagaStore) (history : List SagaCall) (depth : ℕ) (s : System σ) :
    Prop where
  load : ∀ t i, ∃ found, store.load t i depth s = some (found, s) ∧
    ∀ entry, found = some entry ↔ Stands history t i entry
  find : ∀ t a, ∃ ids, store.find t a depth s = some (ids, s) ∧ ids.Pairwise (· < ·) ∧
    ∀ i, i ∈ ids ↔
      ∃ entry, store.load t i depth s = some (some entry, s) ∧ a ∈ entry.associations
  replaced : ∀ t i entry a, a ∉ entry.associations → ∃ s' ids,
    store.call (.save t i entry) depth s = some ((), s') ∧
      store.find t a depth s' = some (ids, s') ∧ i ∉ ids
  apart : ∀ call, ∃ s', store.call call depth s = some ((), s') ∧
    (∀ t i, (t, i) ≠ call.key → ∃ found, store.load t i depth s = some (found, s) ∧
      store.load t i depth s' = some (found, s')) ∧
    ∀ t a, ∃ ids ids', store.find t a depth s = some (ids, s) ∧
      store.find t a depth s' = some (ids', s') ∧
      ids'.filter (fun i => (t, i) ≠ call.key) = ids.filter fun i => (t, i) ≠ call.key

section InMemory

variable {id depth : ℕ} {s : System σ} {history : List SagaCall}

lemma sagaMemory_setSagaMemory (memory : SagaMemory) :
    (s.setSagaMemory id memory).sagaMemory id = memory := by
  simp [System.sagaMemory, System.setSagaMemory]

lemma load_inMemory (t i : String) : (inMemory id).load t i depth s =
    some ((s.sagaMemory id).load t i, s) := rfl

lemma find_inMemory (t : String) (a : Association) : (inMemory id).find t a depth s =
    some ((s.sagaMemory id).find t a, s) := rfl

lemma call_inMemory (call : SagaCall) : (inMemory id).call call depth s =
    some ((), s.setSagaMemory id ((s.sagaMemory id).after call)) := by
  cases call <;> rfl

lemma calls_inMemory (id depth : ℕ) (s : System σ) (history : List SagaCall) :
    ∃ s', (inMemory id).calls history depth s = some ((), s') ∧
      s'.sagaMemory id = history.foldl SagaMemory.after (s.sagaMemory id) := by
  induction history generalizing s with
  | nil => exact ⟨s, rfl, rfl⟩
  | cons call rest ih =>
    obtain ⟨s', hrest, hs'⟩ := ih (s.setSagaMemory id ((s.sagaMemory id).after call))
    rw [sagaMemory_setSagaMemory] at hs'
    exact ⟨s', Run.bind_eq_some.mpr ⟨(), _, call_inMemory call, hrest⟩, hs'⟩

lemma holds_inMemory (hm : s.sagaMemory id = history.foldl SagaMemory.after []) :
    (inMemory id).Holds history depth s := by
  have hnodup : (s.sagaMemory id).keys.Nodup := hm ▸ SagaMemory.nodup_afterAll history
  constructor
  case load =>
    intro t i
    refine ⟨_, load_inMemory t i, fun entry => ?_⟩
    rw [hm, SagaMemory.load_afterAll_iff]
  case find =>
    intro t a
    refine ⟨_, find_inMemory t a, SagaMemory.find_ascends hnodup, fun i => ?_⟩
    rw [SagaMemory.mem_find_iff hnodup]
    simp [load_inMemory]
  case replaced =>
    intro t i entry a ha
    refine ⟨_, _, call_inMemory _, find_inMemory t a, fun hi => ha ?_⟩
    rw [sagaMemory_setSagaMemory, SagaMemory.mem_find_iff (SagaMemory.nodup_after hnodup _)] at hi
    obtain ⟨stored, hstored, ha⟩ := hi
    obtain rfl : entry = stored :=
      Option.some.inj ((Table.get?_put_self _ _ _).symm.trans hstored)
    exact ha
  case apart =>
    intro call
    refine ⟨_, call_inMemory call, fun t i hkey => ?_, fun t a => ?_⟩
    · refine ⟨_, load_inMemory t i, ?_⟩
      rw [load_inMemory, sagaMemory_setSagaMemory, SagaMemory.load_after_of_ne hkey]
    · refine ⟨_, _, find_inMemory t a, find_inMemory t a, ?_⟩
      rw [sagaMemory_setSagaMemory, SagaMemory.filter_find_after hnodup]

end InMemory

/-- Every history of saves and deletes on a new store in memory is carried out. Afterwards an
instance is loaded as it was last saved, it is found by the associations it then had and by no
others, and a further call leaves all other instances as they are. -/
theorem instances_stand_as_saved (id depth : ℕ) (s : System σ) (hnew : s.sagaMemory id = [])
    (history : List SagaCall) :
    ∃ s', (inMemory id).calls history depth s = some ((), s') ∧
      (inMemory id).Holds history depth s' := by
  obtain ⟨s', hrun, hs'⟩ := calls_inMemory id depth s history
  rw [hnew] at hs'
  exact ⟨s', hrun, holds_inMemory hs'⟩

namespace Sample

def shipments : List SagaCall :=
  [.save "Shipping" "s-1" ⟨.null, [("order", "1")]⟩, .save "Shipping" "s-2" ⟨.null, []⟩,
    .save "Billing" "s-1" ⟨.null, [("order", "1")]⟩, .delete "Shipping" "s-2",
    .save "Shipping" "s-1" ⟨.bool true, [("order", "2")]⟩,
    .save "Shipping" "s-2" ⟨.null, [("order", "2"), ("order", "2")]⟩, .delete "Shipping" "s-3"]

end Sample

theorem shipments_stand_as_saved : ({ shared := () } : System Unit).sagaMemory 0 = [] ∧
    ∃ s', (inMemory 0).calls Sample.shipments 0 { shared := () } = some ((), s') ∧
      (inMemory 0).Holds Sample.shipments 0 s' ∧
      (inMemory 0).find "Shipping" ("order", "1") 0 s' = some ([], s') ∧
      (inMemory 0).find "Shipping" ("order", "2") 0 s' = some (["s-1", "s-2"], s') := by
  have hnew : ({ shared := () } : System Unit).sagaMemory 0 = [] := rfl
  obtain ⟨s', hrun, hholds⟩ := instances_stand_as_saved 0 0 { shared := () } hnew Sample.shipments
  have hmemory : s'.sagaMemory 0 = Sample.shipments.foldl SagaMemory.after [] := by
    cases hrun
    rfl
  have hold : SagaMemory.find (Sample.shipments.foldl SagaMemory.after []) "Shipping"
      ("order", "1") = [] := by cbv
  have hcurrent : SagaMemory.find (Sample.shipments.foldl SagaMemory.after []) "Shipping"
      ("order", "2") = ["s-1", "s-2"] := by cbv
  refine ⟨hnew, s', hrun, hholds, ?_, ?_⟩
  · rw [find_inMemory, hmemory, hold]
  · rw [find_inMemory, hmemory, hcurrent]

end SagaStore

end EventProcessing
