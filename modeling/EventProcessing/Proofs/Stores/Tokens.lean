import EventProcessing.Proofs.Tracking.Positions

namespace EventProcessing

variable {σ : Type}

inductive TokenAnswer where
  | done (outcome : Outcome)
  | position (fetched : Except Failure (Option Token))
  | ids (fetched : Except Failure (List ℕ))

namespace TokenCall

def processor : TokenCall → String
  | .begin processor _ _ | .store processor _ _ | .fetch processor _ | .segments processor =>
    processor

variable (p : String) (k : ℕ)

def token? : TokenCall → Option Token
  | .store q j token => if q = p ∧ j = k then some token else none
  | _ => none

def opens : TokenCall → Bool
  | .begin q count _ => q = p ∧ 0 < count
  | .store q _ _ => q = p
  | _ => false

def laid : TokenCall → ℕ × Option Token
  | .begin _ count initial => (count, initial)
  | _ => (0, none)

def lastToken? (history : List TokenCall) : Option Token :=
  (history.filterMap (token? p k)).getLast?

def initial? (history : List TokenCall) : Option (Option Token) :=
  ((history.find? (opens p)).map laid).bind fun laid => if k < laid.1 then some laid.2 else none

/-- The position that a segment has by the calls: the last token that was stored for it, else the
one at which it was created. -/
def position? (history : List TokenCall) : Option (Option Token) :=
  ((lastToken? p k history).map some).or (initial? p k history)

variable {p k} {history : List TokenCall} {call : TokenCall}

lemma lastToken?_concat : lastToken? p k (history ++ [call]) =
    (call.token? p k).or (lastToken? p k history) := by
  cases h : call.token? p k <;>
    simp [lastToken?, List.filterMap_append, h]

lemma initial?_concat_of_none (h : history.find? (opens p) = none) :
    initial? p k (history ++ [call]) = initial? p k [call] := by
  rw [initial?, List.find?_append, h, Option.none_or, initial?]

lemma initial?_concat_of_ne_none (h : history.find? (opens p) ≠ none) :
    initial? p k (history ++ [call]) = initial? p k history := by
  obtain ⟨opening, h⟩ := Option.ne_none_iff_exists'.mp h
  rw [initial?, List.find?_append, h, Option.some_or, initial?, h]

lemma initial?_of_none (h : history.find? (opens p) = none) : initial? p k history = none := by
  rw [initial?, h]
  rfl

lemma initial?_concat (h : history.find? (opens p) = none → initial? p k [call] = none) :
    initial? p k (history ++ [call]) = initial? p k history := by
  by_cases hnone : history.find? (opens p) = none
  · rw [initial?_concat_of_none hnone, h hnone, initial?_of_none hnone]
  · exact initial?_concat_of_ne_none hnone

lemma initial?_of_not_opens (h : call.opens p = false) : initial? p k [call] = none :=
  initial?_of_none (List.find?_cons_of_neg (by simp [h]))

lemma initial?_store (q : String) (j : ℕ) (token : Token) :
    initial? p k [.store q j token] = none := by
  by_cases hq : q = p <;> simp [initial?, opens, laid, hq]

lemma initial?_begin (count : ℕ) (initial : Option Token) :
    initial? p k [.begin p count initial] = if k < count then some initial else none := by
  by_cases hcount : 0 < count
  · simp [initial?, opens, laid, hcount]
  · have hk : ¬ k < count := by omega
    simp [initial?, opens, hcount, hk]

lemma position?_concat (ht : call.token? p k = none)
    (h : history.find? (opens p) = none → initial? p k [call] = none) :
    position? p k (history ++ [call]) = position? p k history := by
  rw [position?, lastToken?_concat, ht, Option.none_or, initial?_concat h, position?]

lemma lastToken?_of_none (h : history.find? (opens p) = none) :
    lastToken? p k history = none := by
  have hnone : history.filterMap (token? p k) = [] := by
    refine List.filterMap_eq_nil_iff.mpr fun call hm => ?_
    have hopens := List.find?_eq_none.mp h call hm
    cases call with
    | store q j token =>
      have hq : ¬ q = p := by simpa [opens] using hopens
      simp [token?, hq]
    | «begin» | fetch | segments => rfl
  rw [lastToken?, hnone]
  rfl

lemma position?_of_none (h : history.find? (opens p) = none) : position? p k history = none := by
  rw [position?, lastToken?_of_none h, initial?_of_none h]
  rfl

lemma exists_position?_of_some {opening : TokenCall}
    (h : history.find? (opens p) = some opening) :
    ∃ k position, position? p k history = some position := by
  obtain ⟨hopens, -⟩ := List.find?_eq_some_iff_append.mp h
  have hmem := List.mem_of_find?_eq_some h
  cases opening with
  | «begin» q count initial =>
    obtain ⟨rfl, hcount⟩ : q = p ∧ 0 < count := by simpa [opens] using hopens
    refine ⟨0, ?_⟩
    have hinitial : initial? q 0 history = some initial := by
      rw [initial?, h]
      exact if_pos hcount
    rw [position?, hinitial]
    cases lastToken? q 0 history with
    | none => exact ⟨_, rfl⟩
    | some token => exact ⟨_, rfl⟩
  | store q j token =>
    obtain rfl : q = p := by simpa [opens] using hopens
    refine ⟨j, ?_⟩
    have hstored : token ∈ history.filterMap (token? q j) :=
      List.mem_filterMap.mpr ⟨_, hmem, by simp [token?]⟩
    have hlast : (lastToken? q j history).isSome := by
      rw [lastToken?, List.getLast?_isSome]
      exact List.ne_nil_of_mem hstored
    obtain ⟨last, hlast⟩ := Option.isSome_iff_exists.mp hlast
    exact ⟨some last, by rw [position?, hlast]; rfl⟩
  | fetch | segments => cases hopens

end TokenCall

namespace TokenMemory

open TokenCall

variable {memory : TokenMemory} {p : String} {k : ℕ} {call : TokenCall}
  {history : List TokenCall}

def part (memory : TokenMemory) (p : String) : TokenMemory :=
  memory.filter fun entry => entry.1.1 = p

def answer (memory : TokenMemory) : TokenCall → TokenAnswer × TokenMemory
  | .begin q count initial =>
    match memory.begin? q count initial with
    | .ok created => (.done (.ok ()), created)
    | .error failure => (.done (.error failure), memory)
  | .store q j token => (.done (.ok ()), memory.store q j token)
  | .fetch q j => (.position (memory.fetch q j), memory)
  | .segments q => (.ids (.ok (memory.segments q)), memory)

def answers : TokenMemory → List TokenCall → List (TokenCall × TokenAnswer)
  | _, [] => []
  | memory, call :: rest => (call, (memory.answer call).1) :: answers (memory.answer call).2 rest

def after (memory : TokenMemory) (history : List TokenCall) : TokenMemory :=
  history.foldl (fun memory call => (memory.answer call).2) memory

lemma answer_begin_of_nil {q : String} {count : ℕ} {initial : Option Token}
    (h : memory.segments q = []) :
    memory.answer (.begin q count initial) = (.done (.ok ()), memory.create q initial count) := by
  simp only [answer, begin?, h, List.isEmpty_nil, if_true]

lemma answer_begin_of_ne_nil {q : String} {count : ℕ} {initial : Option Token}
    (h : memory.segments q ≠ []) :
    memory.answer (.begin q count initial) = (.done (.error (.segmentsExist q)), memory) := by
  have hempty : (memory.segments q).isEmpty = false := List.isEmpty_eq_false_iff.mpr h
  simp only [answer, begin?, hempty]
  rfl

lemma after_concat (history : List TokenCall) :
    memory.after (history ++ [call]) = ((memory.after history).answer call).2 := by
  rw [after, List.foldl_append]
  rfl

lemma segments_part : (memory.part p).segments p = memory.segments p := by
  have h : (memory.part p).keys.filterMap (fun key => if key.1 = p then some key.2 else none) =
      memory.keys.filterMap fun key => if key.1 = p then some key.2 else none := by
    simp only [part, Table.keys, List.filterMap_map, List.filterMap_filter]
    refine List.filterMap_congr fun entry _ => ?_
    by_cases hp : entry.1.1 = p <;> simp [hp]
  rw [segments, h, segments]

lemma get?_part : (memory.part p).get? (p, k) = memory.get? (p, k) :=
  Table.get?_filter (fun key : String × ℕ => decide (key.1 = p)) memory (by simp)

lemma part_put (position : Option Token) :
    part (memory.put (p, k) position) p = (memory.part p).put (p, k) position :=
  Table.filter_put (fun key : String × ℕ => decide (key.1 = p)) memory position (by simp)

lemma part_put_of_ne {q : String} (h : q ≠ p) (position : Option Token) :
    part (memory.put (q, k) position) p = memory.part p :=
  Table.filter_put_of_not (fun key : String × ℕ => decide (key.1 = p)) memory position (by simpa)

lemma part_create (initial : Option Token) (count : ℕ) :
    (memory.create p initial count).part p = (memory.part p).create p initial count := by
  induction count with
  | zero => simp [create]
  | succ count ih => rw [create_succ, create_succ, part_put, ih]

lemma part_create_of_ne {q : String} (h : q ≠ p) (initial : Option Token) (count : ℕ) :
    part (memory.create q initial count) p = memory.part p := by
  induction count with
  | zero => simp [create]
  | succ count ih => rw [create_succ, part_put_of_ne h, ih]

lemma answer_part (h : call.processor = p) :
    (memory.part p).answer call = ((memory.answer call).1, (memory.answer call).2.part p) := by
  subst h
  cases call with
  | «begin» q count initial =>
    change (memory.part q).answer _ = _
    by_cases hq : memory.segments q = []
    · rw [answer_begin_of_nil hq, answer_begin_of_nil (segments_part.trans hq)]
      exact congrArg (Prod.mk _) (part_create initial count).symm
    · rw [answer_begin_of_ne_nil hq]
      exact answer_begin_of_ne_nil fun hnil => hq (segments_part.symm.trans hnil)
  | store q j token =>
    simp only [answer, processor, store]
    rw [part_put]
  | fetch q j => simp only [answer, processor, fetch, get?_part]
  | segments q => simp only [answer, processor, segments_part]

lemma part_answer_of_ne (h : call.processor ≠ p) :
    (memory.answer call).2.part p = memory.part p := by
  cases call with
  | «begin» q count initial =>
    by_cases hq : memory.segments q = []
    · rw [answer_begin_of_nil hq]
      exact part_create_of_ne h initial count
    · rw [answer_begin_of_ne_nil hq]
  | store q j token => exact part_put_of_ne h (some token)
  | fetch | segments => rfl

theorem answers_part (memory : TokenMemory) (history : List TokenCall) (p : String) :
    (memory.answers history).filter (fun entry => entry.1.processor = p) =
      (memory.part p).answers (history.filter fun call => call.processor = p) := by
  induction history generalizing memory with
  | nil => rfl
  | cons call rest ih =>
    by_cases h : call.processor = p
    · rw [answers, List.filter_cons_of_pos (by simpa), List.filter_cons_of_pos (by simpa), answers,
        answer_part h, ih]
    · rw [answers, List.filter_cons_of_neg (by simpa), List.filter_cons_of_neg (by simpa), ih,
        part_answer_of_ne h]

lemma nodup_create (h : memory.keys.Nodup) (q : String) (initial : Option Token) (count : ℕ) :
    (memory.create q initial count).keys.Nodup := by
  induction count with
  | zero => simpa [create] using h
  | succ count ih =>
    rw [create_succ]
    exact Table.nodup_keys_put ih _ _

lemma nodup_answer (h : memory.keys.Nodup) (call : TokenCall) :
    (memory.answer call).2.keys.Nodup := by
  cases call with
  | «begin» q count initial =>
    by_cases hq : memory.segments q = []
    · rw [answer_begin_of_nil hq]
      exact nodup_create h q initial count
    · rwa [answer_begin_of_ne_nil hq]
  | store q j token => exact Table.nodup_keys_put h _ _
  | fetch | segments => exact h

lemma nodup_after (history : List TokenCall) : (after [] history).keys.Nodup := by
  induction history using List.reverseRecOn with
  | nil => exact List.nodup_nil
  | append_singleton history call ih =>
    rw [after_concat]
    exact nodup_answer ih call

lemma segments_ascend (h : memory.keys.Nodup) (p : String) :
    (memory.segments p).Pairwise (· < ·) := by
  have hn : (memory.segments p).Nodup := by
    rw [segments, (List.mergeSort_perm _ _).nodup_iff]
    refine h.filterMap fun a b k ha hb => ?_
    simp only [Option.mem_def, Option.ite_none_right_eq_some, Option.some.injEq] at ha hb
    exact Prod.ext (ha.1.trans hb.1.symm) (ha.2.trans hb.2.symm)
  have hle : (memory.segments p).Pairwise (· ≤ ·) := List.pairwise_mergeSort' _ _
  exact hle.imp₂ (fun _ _ hle hne => lt_of_le_of_ne hle hne) hn

lemma get?_answer (hopen : memory.segments p = [] ↔ history.find? (opens p) = none)
    (hposition : memory.get? (p, k) = position? p k history) (call : TokenCall) :
    (memory.answer call).2.get? (p, k) = position? p k (history ++ [call]) := by
  cases call with
  | fetch | segments => rw [position?_concat rfl fun _ => rfl, ← hposition]; rfl
  | store q j token =>
    by_cases hkey : q = p ∧ j = k
    · obtain ⟨rfl, rfl⟩ := hkey
      have htoken : (TokenCall.store q j token).token? q j = some token := by simp [token?]
      rw [position?, lastToken?_concat, htoken]
      exact Table.get?_put_self _ _ _
    · rw [position?_concat (by simp [token?, hkey]) fun _ => initial?_store q j token, ← hposition]
      exact Table.get?_put_of_ne _ _ fun he => hkey ((Prod.mk.inj he).imp Eq.symm Eq.symm)
  | «begin» q count initial =>
    by_cases hp : q = p
    · subst hp
      by_cases hq : memory.segments q = []
      · have hnone := hopen.mp hq
        rw [answer_begin_of_nil hq, get?_create, get?_eq_none_of_segments hq, position?,
          lastToken?_concat, initial?_concat_of_none hnone, lastToken?_of_none hnone,
          initial?_begin]
        rfl
      · rw [answer_begin_of_ne_nil hq,
          position?_concat rfl fun hnone => absurd (hopen.mpr hnone) hq, ← hposition]
    · have hother : (TokenCall.begin q count initial).processor ≠ p := hp
      have hopens : (TokenCall.begin q count initial).opens p = false := by simp [opens, hp]
      rw [position?_concat rfl fun _ => initial?_of_not_opens hopens, ← hposition, ← get?_part,
        part_answer_of_ne hother, get?_part]

lemma segments_eq_nil_iff (h : ∀ k, memory.get? (p, k) = position? p k history) :
    memory.segments p = [] ↔ history.find? (opens p) = none := by
  constructor
  · intro hnil
    by_contra hne
    obtain ⟨opening, hopening⟩ := Option.ne_none_iff_exists'.mp hne
    obtain ⟨k, position, hposition⟩ := exists_position?_of_some hopening
    rw [← h, get?_eq_none_of_segments hnil] at hposition
    cases hposition
  · intro hnone
    refine List.eq_nil_iff_forall_not_mem.mpr fun k hk => ?_
    obtain ⟨position, hposition⟩ := (mem_segments_iff memory p k).mp hk
    rw [h, position?_of_none hnone] at hposition
    cases hposition

theorem get?_after (history : List TokenCall) (p : String) (k : ℕ) :
    (after [] history).get? (p, k) = position? p k history := by
  induction history using List.reverseRecOn generalizing k with
  | nil => rfl
  | append_singleton history call ih =>
    rw [after_concat]
    exact get?_answer (segments_eq_nil_iff ih) (ih k) call

lemma mem_segments_answer (h : k ∈ memory.segments p) (call : TokenCall) :
    k ∈ (memory.answer call).2.segments p := by
  rw [mem_segments_iff] at h ⊢
  obtain ⟨position, hposition⟩ := h
  cases call with
  | fetch | segments => exact ⟨position, hposition⟩
  | store q j token =>
    by_cases hkey : (p, k) = (q, j)
    · exact ⟨some token, hkey ▸ Table.get?_put_self _ _ _⟩
    · exact ⟨position, (Table.get?_put_of_ne _ _ hkey).trans hposition⟩
  | «begin» q count initial =>
    by_cases hq : memory.segments q = []
    · rw [answer_begin_of_nil hq]
      exact ⟨position, get?_create_of_get? hq _ _ hposition⟩
    · rw [answer_begin_of_ne_nil hq]
      exact ⟨position, hposition⟩

end TokenMemory

namespace TokenStore

open TokenCall

def call (store : TokenStore σ) : TokenCall → Run σ TokenAnswer
  | .begin p count initial => return .done (← store.begin p count initial)
  | .store p k token => return .done (← store.put p k token)
  | .fetch p k => return .position (← store.fetch p k)
  | .segments p => return .ids (← store.segments p)

def calls (store : TokenStore σ) : List TokenCall → Run σ (List (TokenCall × TokenAnswer))
  | [] => return []
  | call :: rest => do
    let answer ← store.call call
    return (call, answer) :: (← store.calls rest)

structure Keeps (store : TokenStore σ) (history : List TokenCall) (depth : ℕ) (s : System σ) :
    Prop where
  segments : ∀ p, ∃ ids, store.segments p depth s = some (.ok ids, s) ∧ ids.Pairwise (· < ·) ∧
    ∀ k, k ∈ ids ↔ ∃ position, store.fetch p k depth s = some (.ok position, s)
  fetch : ∀ p k, store.fetch p k depth s =
    some ((position? p k history).elim (.error (.noToken p k)) .ok, s)
  begun : ∀ p count initial, store.segments p depth s = some (.ok [], s) →
    ∃ s', store.begin p count initial depth s = some (.ok (), s') ∧
      store.segments p depth s' = some (.ok (List.range count), s') ∧
      ∀ k < count, store.fetch p k depth s' = some (.ok initial, s')
  refused : ∀ p count initial ids, store.segments p depth s = some (.ok ids, s) → ids ≠ [] →
    store.begin p count initial depth s = some (.error (.segmentsExist p), s)
  lasting : ∀ call answer s' p k, store.call call depth s = some (answer, s') →
    (∃ ids, store.segments p depth s = some (.ok ids, s) ∧ k ∈ ids) →
    ∃ ids, store.segments p depth s' = some (.ok ids, s') ∧ k ∈ ids

section InMemory

variable {id depth : ℕ} {s : System σ} {p : String} {count : ℕ} {initial : Option Token}

lemma segments_inMemory (p : String) : (inMemory id).segments p depth s =
    some (.ok ((s.tokenMemory id).segments p), s) := rfl

lemma segments_inMemory_iff {ids : List ℕ} :
    (inMemory id).segments p depth s = some (.ok ids, s) ↔ (s.tokenMemory id).segments p = ids := by
  simp [segments_inMemory]

lemma fetch_inMemory (p : String) (k : ℕ) :
    (inMemory id).fetch p k depth s = some ((s.tokenMemory id).fetch p k, s) := rfl

lemma begin_inMemory_of_nil (h : (s.tokenMemory id).segments p = []) :
    (inMemory id).begin p count initial depth s =
      some (.ok (), s.setTokenMemory id ((s.tokenMemory id).create p initial count)) :=
  begin_of_ok rfl h

lemma begin_inMemory_of_ne_nil (h : (s.tokenMemory id).segments p ≠ []) :
    (inMemory id).begin p count initial depth s = some (.error (.segmentsExist p), s) := by
  obtain ⟨first, rest, hids⟩ := List.exists_cons_of_ne_nil h
  exact begin_of_some rfl hids

lemma call_inMemory (id depth : ℕ) (s : System σ) (call : TokenCall) : ∃ s',
    (inMemory id).call call depth s = some (((s.tokenMemory id).answer call).1, s') ∧
      s'.tokenMemory id = ((s.tokenMemory id).answer call).2 := by
  cases call with
  | «begin» p count initial =>
    by_cases h : (s.tokenMemory id).segments p = []
    · rw [TokenMemory.answer_begin_of_nil h]
      exact ⟨_, Run.bind_eq_some.mpr ⟨_, _, begin_inMemory_of_nil h, rfl⟩,
        System.tokenMemory_setTokenMemory _ _ _⟩
    · rw [TokenMemory.answer_begin_of_ne_nil h]
      exact ⟨_, Run.bind_eq_some.mpr ⟨_, _, begin_inMemory_of_ne_nil h, rfl⟩, rfl⟩
  | store p k token =>
    exact ⟨_, Run.bind_eq_some.mpr ⟨_, _, put_of_ok rfl, rfl⟩,
      System.tokenMemory_setTokenMemory _ _ _⟩
  | fetch | segments => exact ⟨s, rfl, rfl⟩

lemma calls_inMemory (id depth : ℕ) (s : System σ) (history : List TokenCall) : ∃ s',
    (inMemory id).calls history depth s = some ((s.tokenMemory id).answers history, s') ∧
      s'.tokenMemory id = (s.tokenMemory id).after history := by
  induction history generalizing s with
  | nil => exact ⟨s, rfl, rfl⟩
  | cons call rest ih =>
    obtain ⟨middle, hcall, hmiddle⟩ := call_inMemory id depth s call
    obtain ⟨s', hrest, hs'⟩ := ih middle
    rw [hmiddle] at hrest hs'
    exact ⟨s', Run.bind_eq_some.mpr ⟨_, _, hcall, Run.bind_eq_some.mpr ⟨_, _, hrest, rfl⟩⟩, hs'⟩

lemma keeps_inMemory {history : List TokenCall}
    (hm : s.tokenMemory id = TokenMemory.after [] history) :
    (inMemory id).Keeps history depth s where
  segments p := by
    refine ⟨_, segments_inMemory p, ?_, fun k => ?_⟩
    · rw [hm]
      exact TokenMemory.segments_ascend (TokenMemory.nodup_after history) p
    · rw [TokenMemory.mem_segments_iff, fetch_inMemory, TokenMemory.fetch]
      cases (s.tokenMemory id).get? (p, k) <;> simp
  fetch p k := by
    rw [fetch_inMemory, TokenMemory.fetch, hm, TokenMemory.get?_after]
    cases position? p k history <;> rfl
  begun p count initial hnil := by
    have hnil : (s.tokenMemory id).segments p = [] := segments_inMemory_iff.mp hnil
    have hcreated : (s.setTokenMemory id
        ((s.tokenMemory id).create p initial count)).tokenMemory id =
          (s.tokenMemory id).create p initial count := System.tokenMemory_setTokenMemory _ _ _
    refine ⟨_, begin_inMemory_of_nil hnil, ?_, fun k hk => ?_⟩
    · rw [segments_inMemory_iff, hcreated, TokenMemory.segments_create hnil]
    · rw [fetch_inMemory, hcreated, TokenMemory.fetch, TokenMemory.get?_create, if_pos hk]
  refused p count initial ids hids hne := by
    rw [← segments_inMemory_iff.mp hids] at hne
    exact begin_inMemory_of_ne_nil hne
  lasting call answer s' p k hcall hk := by
    obtain ⟨ids, hids, hk⟩ := hk
    rw [← segments_inMemory_iff.mp hids] at hk
    obtain ⟨r, hr, hmemory⟩ := call_inMemory id depth s call
    obtain rfl : r = s' := (Prod.mk.inj (Option.some.inj (hr.symm.trans hcall))).2
    refine ⟨_, segments_inMemory p, ?_⟩
    rw [hmemory]
    exact TokenMemory.mem_segments_answer hk call

end InMemory

/-- Every history of calls on a new store in memory has its answers. Those to one processor are what
they are without the calls of the others, and afterwards each processor has the segments and
positions that its calls gave it. -/
theorem processors_keep_their_tokens (id depth : ℕ) (s : System σ) (hnew : s.tokenMemory id = [])
    (history : List TokenCall) :
    ∃ answers s', (inMemory id).calls history depth s = some (answers, s') ∧
      (∀ p, ∃ r, (inMemory id).calls (history.filter fun call => call.processor = p) depth s =
        some (answers.filter fun entry => entry.1.processor = p, r)) ∧
      (inMemory id).Keeps history depth s' := by
  obtain ⟨s', hrun, hs'⟩ := calls_inMemory id depth s history
  rw [hnew] at hrun hs'
  refine ⟨_, s', hrun, fun p => ?_, keeps_inMemory hs'⟩
  obtain ⟨r, halone, -⟩ := calls_inMemory id depth s
    (history.filter fun call => call.processor = p)
  rw [hnew] at halone
  refine ⟨r, ?_⟩
  rw [TokenMemory.answers_part]
  exact halone

namespace Sample

def shared : List TokenCall :=
  [.store "late" 5 7, .begin "orders" 0 none, .begin "orders" 2 (some 3), .begin "late" 1 none,
    .store "orders" 1 9]

end Sample

theorem shared_tokens_kept : ({ shared := () } : System Unit).tokenMemory 0 = [] ∧
    ∃ answers s', (inMemory 0).calls Sample.shared 0 { shared := () } = some (answers, s') ∧
      (∃ r, (inMemory 0).calls [.store "late" 5 7, .begin "late" 1 none] 0 { shared := () } =
        some (answers.filter fun entry => entry.1.processor = "late", r)) ∧
      (inMemory 0).fetch "orders" 0 0 s' = some (.ok (some 3), s') ∧
      (inMemory 0).fetch "orders" 1 0 s' = some (.ok (some 9), s') ∧
      (inMemory 0).fetch "late" 5 0 s' = some (.ok (some 7), s') ∧
      (inMemory 0).fetch "late" 0 0 s' = some (.error (.noToken "late" 0), s') := by
  have hnew : ({ shared := () } : System Unit).tokenMemory 0 = [] := rfl
  obtain ⟨answers, s', hrun, halone, hkeeps⟩ :=
    processors_keep_their_tokens 0 0 { shared := () } hnew Sample.shared
  exact ⟨hnew, answers, s', hrun, halone "late", hkeeps.fetch "orders" 0, hkeeps.fetch "orders" 1,
    hkeeps.fetch "late" 5, hkeeps.fetch "late" 0⟩

end TokenStore

end EventProcessing
