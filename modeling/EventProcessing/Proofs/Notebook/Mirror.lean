import EventProcessing.Proofs.Notebook.Quiet

namespace EventProcessing

variable {σ α β γ δ : Type}

@[simp] lemma said_append (loud : Bool) (xs ys : List Note) :
    said loud xs ++ said loud ys = said loud (xs ++ ys) := by
  cases loud <;> rfl

@[simp] lemma said_nil (loud : Bool) : said loud [] = [] := by
  cases loud <;> rfl

/-- Whenever `p` ends, `q` ends beside a notebook that holds `before`, with `R` of the two values
and of the notes that `q` adds, and in the system that `p` leaves. -/
def Mirrors (depth : ℕ) (before : List Note) (R : β → α → List Note → Prop)
    (q : Program (Noted σ) β) (p : Program σ α) : Prop :=
  ∀ s a s', System.run depth p s = some (a, s') →
    ∃ b added, R b a added ∧
      System.run depth q (s.quiet before) = some (b, s'.quiet (before ++ added))

namespace Mirrors

variable {depth : ℕ} {before : List Note} {R : β → α → List Note → Prop}
  {T : δ → γ → List Note → Prop}

lemma pure {b : β} {a : α} (h : R b a []) :
    Mirrors depth before R (Pure.pure b : Program (Noted σ) β) (Pure.pure a : Program σ α) := by
  intro s a' s' hp
  cases hp
  exact ⟨b, [], h, by rw [List.append_nil]; rfl⟩

lemma bind {q : Program (Noted σ) β} {p : Program σ α} {g : β → Program (Noted σ) δ}
    {f : α → Program σ γ} (hq : Mirrors depth before R q p)
    (hg : ∀ b a added, R b a added →
      Mirrors depth (before ++ added) (fun d c more => T d c (added ++ more)) (g b) (f a)) :
    Mirrors depth before T (q >>= g) (p >>= f) := by
  intro s c s' h
  obtain ⟨a, middle, hp, hf⟩ := System.run_bind_eq_some.mp h
  obtain ⟨b, added, hr, hq'⟩ := hq s a middle hp
  obtain ⟨d, more, ht, hg'⟩ := hg b a added hr middle c s' hf
  refine ⟨d, added ++ more, ht, System.run_bind_eq_some.mpr ⟨b, _, hq', ?_⟩⟩
  rw [hg', List.append_assoc]

lemma mono {R' : β → α → List Note → Prop} {q : Program (Noted σ) β} {p : Program σ α}
    (h : Mirrors depth before R q p) (hr : ∀ b a added, R b a added → R' b a added) :
    Mirrors depth before R' q p := by
  intro s a s' hp
  obtain ⟨b, added, hb, hq⟩ := h s a s' hp
  exact ⟨b, added, hr b a added hb, hq⟩

lemma map {q : Program (Noted σ) β} {p : Program σ α} {g : β → δ} {S : δ → α → List Note → Prop}
    (h : Mirrors depth before R q p) (hs : ∀ b a added, R b a added → S (g b) a added) :
    Mirrors depth before S (do return g (← q)) p := by
  rw [← bind_pure p]
  refine h.bind fun b a added hr => .pure ?_
  simpa using hs b a added hr

lemma ends {q : Program (Noted σ) β} {p : Program σ α} {P : α → Prop}
    (h : Mirrors depth before R q p) (hp : p.Ends P) :
    Mirrors depth before (fun b a added => R b a added ∧ P a) q p := by
  intro s a s' hr
  obtain ⟨b, added, hb, hq⟩ := h s a s' hr
  exact ⟨b, added, ⟨hb, hp depth s a s' hr⟩, hq⟩

lemma quiet (hf : Faithful σ depth) (p : Program σ α) :
    Mirrors depth before (fun b a added => b = a ∧ added = []) p.quiet p := by
  intro s a s' hp
  refine ⟨a, [], ⟨rfl, rfl⟩, ?_⟩
  rw [List.append_nil]
  exact run_quiet hf before hp

lemma get_bind {g : Noted σ → Program (Noted σ) β} {p : Program σ α}
    (h : ∀ state, Mirrors depth before R (g ⟨state, before⟩) p) :
    Mirrors depth before R (Program.get >>= g) p :=
  fun s a s' hp => h s.shared s a s' hp

lemma note_bind {loud : Bool} {entry : Note} {g : Unit → Program (Noted σ) β} {p : Program σ α}
    (h : Mirrors depth (before ++ said loud [entry])
      (fun b a more => R b a (said loud [entry] ++ more)) (g ()) p) :
    Mirrors depth before R (note loud entry >>= g) p := by
  intro s a s' hp
  obtain ⟨b, added, hr, hq⟩ := h s a s' hp
  refine ⟨b, said loud [entry] ++ added, hr, ?_⟩
  rw [List.append_assoc] at hq
  cases loud with
  | false =>
    change System.run depth (g ()) _ = _
    simpa [said] using hq
  | true => exact hq

lemma note {loud : Bool} {entry : Note} :
    Mirrors depth before (fun _ _ added => added = said loud [entry])
      (EventProcessing.note loud entry) (Pure.pure () : Program σ Unit) := by
  rw [← bind_pure (EventProcessing.note loud entry)]
  exact .note_bind (.pure (List.append_nil _))

lemma noting (hf : Faithful σ depth) (loud : Bool) (p : Program σ α) (entry : α → Note) :
    Mirrors depth before (fun b a added => b = a ∧ added = said loud [entry a])
      (do
        let a ← p.quiet
        EventProcessing.note loud (entry a)
        return a) p := by
  have h : Mirrors depth before (fun b a added => b = a ∧ added = said loud [entry a])
      (p.quiet >>= fun a => EventProcessing.note loud (entry a) >>= fun _ => Pure.pure a)
      (p >>= Pure.pure) := by
    apply (Mirrors.quiet hf p).bind
    rintro a _ _ ⟨rfl, rfl⟩
    exact .note_bind (.pure ⟨rfl, List.append_nil _⟩)
  rwa [bind_pure] at h

end Mirrors

end EventProcessing
