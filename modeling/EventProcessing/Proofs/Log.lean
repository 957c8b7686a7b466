import EventProcessing.Proofs.Execution

namespace EventProcessing

abbrev covered (token : Option Token) : ℕ := token.elim 0 (· + 1)

lemma covered_injective : Function.Injective covered := by
  intro a b h
  cases a with
  | none => cases b with
    | none => rfl
    | some _ => cases h
  | some i => cases b with
    | none => cases h
    | some _ => exact congrArg some (Nat.succ.inj h)

namespace Bus

lemma getElem?_entriesFrom (n : ℕ) (events : List EventMessage) (i : ℕ) :
    (entriesFrom n events)[i]? = events[i]?.map (TrackedEvent.mk (n + i)) := by
  induction events generalizing n i with
  | nil => rfl
  | cons event rest ih =>
    cases i with
    | zero => rfl
    | succ i =>
      have hn : n + 1 + i = n + (i + 1) := by omega
      simp only [entriesFrom, List.getElem?_cons_succ, ih, hn]

def Numbered (log : List TrackedEvent) : Prop :=
  ∀ (i : ℕ) (entry : TrackedEvent), log[i]? = some entry → entry.token = i

lemma Extends.numbered {log : List TrackedEvent} (h : Extends [] log) : Numbered log := by
  obtain ⟨events, rfl⟩ := h
  intro i entry hi
  rw [List.nil_append, getElem?_entriesFrom] at hi
  obtain ⟨event, -, rfl⟩ := Option.map_eq_some_iff.mp hi
  exact Nat.zero_add i

lemma Extends.getElem? {earlier later : List TrackedEvent} (h : Extends earlier later) {i : ℕ}
    {entry : TrackedEvent} (hi : earlier[i]? = some entry) : later[i]? = some entry := by
  obtain ⟨events, rfl⟩ := h
  rw [List.getElem?_append_left (List.getElem?_eq_some_iff.mp hi).1, hi]

end Bus

lemma covered_headToken? {log : List TrackedEvent} (h : Bus.Numbered log) :
    covered (headToken? log) = log.length := by
  cases hl : log.getLast? with
  | none =>
    rw [List.getLast?_eq_none_iff] at hl
    rw [hl]
    rfl
  | some last =>
    have hget := hl
    rw [List.getLast?_eq_getElem?] at hget
    have hlength := (List.getElem?_eq_some_iff.mp hget).1
    have htoken := h _ _ hget
    rw [headToken?, hl]
    change last.token + 1 = log.length
    rw [htoken, Nat.sub_add_cancel (by omega)]

structure ReadFrom (log : List TrackedEvent) (token : Option Token) (max : ℕ)
    (batch : List TrackedEvent) : Prop where
  length_le : batch.length ≤ max
  tokens_eq : batch.map TrackedEvent.token = List.range' (covered token) batch.length
  logged : ∀ entry ∈ batch, log[entry.token]? = some entry

lemma readFrom_readLog {log : List TrackedEvent} (hn : Bus.Numbered log) (token : Option Token)
    (max : ℕ) : ReadFrom log token max (readLog log token max) := by
  have hget : ∀ i entry, (readLog log token max)[i]? = some entry →
      log[covered token + i]? = some entry ∧ entry.token = covered token + i := by
    intro i entry hi
    rw [readLog, List.getElem?_take] at hi
    split at hi
    · rw [List.getElem?_drop] at hi
      exact ⟨hi, hn _ _ hi⟩
    · cases hi
  refine ⟨by simp [readLog], ?_, ?_⟩
  · apply List.ext_getElem?
    intro i
    rw [List.getElem?_map]
    cases hi : (readLog log token max)[i]? with
    | none =>
      have hl := List.getElem?_eq_none_iff.mp hi
      simp [hl]
    | some entry =>
      have hl := (List.getElem?_eq_some_iff.mp hi).1
      simp [hl, (hget i entry hi).2]
  · intro entry he
    obtain ⟨i, hi⟩ := List.mem_iff_getElem?.mp he
    obtain ⟨hlog, ht⟩ := hget i entry hi
    rw [ht, hlog]

namespace ReadFrom

variable {log longer : List TrackedEvent} {token : Option Token} {max : ℕ}
  {batch : List TrackedEvent}

lemma later (h : ReadFrom log token max batch) (he : Bus.Extends log longer) :
    ReadFrom longer token max batch :=
  ⟨h.length_le, h.tokens_eq, fun entry hm => he.getElem? (h.logged entry hm)⟩

lemma mem_tokens (h : ReadFrom log token max batch) (i : ℕ) :
    i ∈ batch.map TrackedEvent.token ↔ covered token ≤ i ∧ i < covered token + batch.length := by
  rw [h.tokens_eq, List.mem_range'_1]

lemma covered_last (h : ReadFrom log token max batch) {last : Token}
    (hl : headToken? batch = some last) :
    covered (some last) = covered token + batch.length := by
  have ht := congrArg List.getLast? h.tokens_eq
  rw [List.getLast?_map] at ht
  change headToken? batch = _ at ht
  rw [hl] at ht
  have hp : 0 < batch.length := by
    rw [List.length_pos_iff]
    rintro rfl
    cases hl
  obtain ⟨n, hn⟩ := Nat.exists_eq_succ_of_ne_zero hp.ne'
  rw [hn, List.range'_concat, List.getLast?_concat] at ht
  cases ht
  simp [covered, hn]
  omega

end ReadFrom

end EventProcessing
