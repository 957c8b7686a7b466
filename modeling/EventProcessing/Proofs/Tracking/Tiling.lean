import EventProcessing.Proofs.Tracking.Effects

namespace EventProcessing

variable {σ : Type}

def storedTokens (attempts : List (Attempt σ)) (k : ℕ) : List Token :=
  (attempts.filter fun a => a.stored && a.key == k).flatMap fun a =>
    a.batch.map TrackedEvent.token

inductive Tiled (t : TrackingProcessor σ) (base : ℕ → Option (Option Token))
    (attempts : List (Attempt σ)) (s : System σ) (k : ℕ) : Prop
  | missing (hb : base k = none) (hp : t.position? s k = none)
      (ht : storedTokens attempts k = [])
  | between {first last : Option Token} (hb : base k = some first)
      (hp : t.position? s k = some last) (hle : covered first ≤ covered last)
      (ht : storedTokens attempts k =
        List.range' (covered first) (covered last - covered first))

section

variable {p : Processor σ} {t : TrackingProcessor σ} {s₀ s s' : System σ}
  {base : ℕ → Option (Option Token)} {attempts : List (Attempt σ)} {attempt : Option (Attempt σ)}
  {k : ℕ}

lemma storedTokens_append (xs ys : List (Attempt σ)) :
    storedTokens (xs ++ ys) k = storedTokens xs k ++ storedTokens ys k := by
  simp [storedTokens]

lemma storedTokens_of_not_stored (h : ∀ a, attempt = some a → a.stored = false) :
    storedTokens attempt.toList k = [] := by
  cases attempt with
  | none => rfl
  | some a => simp [storedTokens, h a rfl]

lemma storedTokens_of_stored {a : Attempt σ} (h : a.stored = true) :
    storedTokens [a] k = if k = a.key then a.batch.map TrackedEvent.token else [] := by
  by_cases hk : k = a.key
  · simp [storedTokens, h, hk]
  · have hne : ¬ a.key = k := fun he => hk he.symm
    simp [storedTokens, h, hk, hne]

lemma Tiled.of_same (h : Tiled t base attempts s k) (hp : t.position? s' k = t.position? s k)
    (ht : storedTokens attempt.toList k = []) :
    Tiled t (fun k => (base k).or (t.position? s' k)) (attempts ++ attempt.toList) s' k := by
  have htokens : storedTokens (attempts ++ attempt.toList) k = storedTokens attempts k := by
    rw [storedTokens_append, ht, List.append_nil]
  cases h with
  | missing hb hq ht => exact .missing (by simp [hb, hp, hq]) (hp.trans hq) (htokens.trans ht)
  | between hb hq hle ht => exact .between (by simp [hb]) (hp.trans hq) hle (htokens.trans ht)

lemma Tiled.store {a : Attempt σ} {last : Token} (h : Tiled t base attempts s a.key)
    (ha : a.stored = true) (hb : t.position? s a.key = some a.token)
    (hp : t.position? s' a.key = some (some last))
    (ht : a.batch.map TrackedEvent.token = List.range' (covered a.token) a.batch.length)
    (hl : covered (some last) = covered a.token + a.batch.length) :
    Tiled t (fun k => (base k).or (t.position? s' k)) (attempts ++ [a]) s' a.key := by
  cases h with
  | missing _ hq =>
    rw [hq] at hb
    cases hb
  | @between first _ hbase hq hle hstored =>
    rw [hq] at hb
    cases hb
    have hstart : covered a.token = covered first + (covered a.token - covered first) := by omega
    have hlength : covered a.token - covered first + a.batch.length =
        covered (some last) - covered first := by omega
    have hbase' : (base a.key).or (t.position? s' a.key) = some first := by simp [hbase]
    refine .between hbase' hp (by omega) ?_
    calc storedTokens (attempts ++ [a]) a.key
        = List.range' (covered first) (covered a.token - covered first) ++
            List.range' (covered a.token) a.batch.length := by
          rw [storedTokens_append, storedTokens_of_stored ha, if_pos rfl, hstored, ht]
      _ = List.range' (covered first) (covered a.token - covered first + a.batch.length) := by
          rw [← List.range'_append_1, ← hstart]
      _ = List.range' (covered first) (covered (some last) - covered first) := by rw [hlength]

lemma Tiled.next (h : Tiled t base attempts s k) (he : Effect p t s s' attempt)
    (hlog : Bus.Extends [] (s.bus t.source.bus).log) :
    Tiled t (fun k => (base k).or (t.position? s' k)) (attempts ++ attempt.toList) s' k := by
  have hm := he.moves
  cases hm with
  | stay hp hs => exact h.of_same (hp k) (storedTokens_of_not_stored hs)
  | @create initial count hn _ hc =>
    cases h with
    | between hb hp => rw [hn k] at hp; cases hp
    | missing hb hp ht =>
      by_cases hk : k < count
      · have hp' : t.position? s' k = some initial := by rw [hc k, if_pos hk]
        exact .between (by simp [hb, hp']) hp' le_rfl (by simpa using ht)
      · have hp' : t.position? s' k = none := by rw [hc k, if_neg hk]
        exact .missing (by simp [hb, hp']) hp' (by simpa using ht)
  | @store a last hs hl hp =>
    by_cases hk : k = a.key
    · subst hk
      have hread := (he.new hlog).read
      exact h.store hs (he.attempted a rfl).1.token (by rw [hp, if_pos rfl]) hread.tokens_eq
        (hread.covered_last hl)
    · exact h.of_same (by rw [hp k, if_neg hk])
        (by rw [Option.toList_some, storedTokens_of_stored hs, if_neg hk])

theorem Reaches.tiled (hk : p.kind = .tracking t) (hi : Initial p t s₀)
    (h : Reaches p t s₀ base attempts s) (k : ℕ) : Tiled t base attempts s k := by
  induction h with
  | init =>
    cases hp : t.position? s₀ k with
    | none => exact .missing hp hp rfl
    | some position => exact .between hp hp le_rfl (by simp [storedTokens])
  | next hr ht ih => exact ih.next (hr.effect hk hi ht) (hr.log hk hi)

inductive Advances (p : Processor σ) (t : TrackingProcessor σ) (s s' : System σ) (k : ℕ)
    (position : Option Token) (last : Token) : Prop
  | mk {id depth : ℕ} {worker : Worker σ} {batch : List TrackedEvent} {start done : System σ}
      (hw : s.workers.get? id = some worker)
      (hwork : worker.work = Processor.work p.self.id t worker.work.segment)
      (hk : worker.work.segment.id.toNat = k)
      (hr : worker.work.Reads depth s position batch start)
      (hb : batch ≠ [])
      (hread : ReadFrom (start.bus t.source.bus).log position (max t.settings.batchSize 1) batch)
      (hp : worker.work.process batch depth start = some (.ok (), done))
      (hl : headToken? batch = some last)
      (hs : worker.work.store last depth done = some (.ok (), s'))

end

end EventProcessing
