import EventProcessing.Proofs.Module.Consistency
import EventProcessing.Proofs.Module.Deeds

namespace EventProcessing

variable {σ : Type} {depth : ℕ} {s s' : System σ} {m m' : Module σ} {c : Configuration σ}

abbrev Knowledge (σ : Type) := String → Option (Processor σ)

def Module.known (m : Module σ) : Knowledge σ := fun name =>
  (m.processors.get? name).bind Component.built

lemma Module.known_of_cell {name : String} {cell : ProcessorCell σ}
    (hcell : m.processors.get? name = some cell) : m.known name = cell.built := by
  rw [known, hcell, Option.bind_some]

namespace Deed

/-- The factory runs only for a name without a processor; all else is done to the one there is. -/
def Heeds (known : Knowledge σ) : Deed σ → Prop
  | .built name _ | .failed name _ => known name = none
  | .found name p | .started name p | .stopped name p => known name = some p

def learn (known : Knowledge σ) : Deed σ → Knowledge σ
  | .built name p => Function.update known name (some p)
  | _ => known

def Has (name : String) (p : Processor σ) (deed : Deed σ) : Prop :=
  deed = .found name p ∨ deed = .started name p ∨ deed = .stopped name p

lemma has_of_heeds {known : Knowledge σ} {deed : Deed σ} {p : Processor σ}
    (h : deed.Heeds known) (hk : known deed.name = some p) : deed.Has deed.name p := by
  cases deed with
  | built | failed => cases hk.symm.trans h
  | found name q =>
    cases h.symm.trans hk
    exact .inl rfl
  | started name q =>
    cases h.symm.trans hk
    exact .inr (.inl rfl)
  | stopped name q =>
    cases h.symm.trans hk
    exact .inr (.inr rfl)

lemma known_of_has {known : Knowledge σ} {deed : Deed σ} {name : String} {p : Processor σ}
    (h : deed.Heeds known) (hp : deed.Has name p) : known name = some p := by
  obtain rfl | rfl | rfl := hp <;> exact h

lemma not_has_failed {name other : String} {failure : Failure} {p : Processor σ} :
    ¬ (Deed.failed name failure).Has other p := by
  simp [Has]

end Deed

inductive Accords : Knowledge σ → List (Deed σ) → Knowledge σ → Prop
  | nil {known : Knowledge σ} : Accords known [] known
  | cons {known known' : Knowledge σ} {deed : Deed σ} {deeds : List (Deed σ)}
      (h : deed.Heeds known) (hr : Accords (deed.learn known) deeds known') :
      Accords known (deed :: deeds) known'

namespace Accords

variable {known middle known' : Knowledge σ} {deed : Deed σ} {deeds more : List (Deed σ)}
  {name : String} {p : Processor σ}

lemma one (h : deed.Heeds known) : Accords known [deed] (deed.learn known) := .cons h .nil

lemma of_has (h : ∀ deed ∈ deeds, ∃ name p, deed.Has name p ∧ known name = some p) :
    Accords known deeds known := by
  induction deeds with
  | nil => exact .nil
  | cons deed deeds ih =>
    obtain ⟨name, p, hhas, hk⟩ := h deed List.mem_cons_self
    have hrest := ih fun d hm => h d (List.mem_cons_of_mem _ hm)
    obtain rfl | rfl | rfl := hhas <;> exact .cons hk hrest

lemma append (h : Accords known deeds middle) (h' : Accords middle more known') :
    Accords known (deeds ++ more) known' := by
  induction h with
  | nil => exact h'
  | cons hd _ ih => exact .cons hd (ih h')

lemma split (h : Accords known (deeds ++ more) known') :
    ∃ middle, Accords known deeds middle ∧ Accords middle more known' := by
  induction deeds generalizing known with
  | nil => exact ⟨known, .nil, h⟩
  | cons deed deeds ih =>
    cases h with
    | cons hd hr =>
      obtain ⟨middle, hfirst, hlast⟩ := ih hr
      exact ⟨middle, .cons hd hfirst, hlast⟩

lemma learn_of_some (h : deed.Heeds known) (hk : known name = some p) :
    deed.learn known name = some p := by
  cases deed with
  | built other q =>
    have hne : name ≠ other := by
      rintro rfl
      cases hk.symm.trans h
    exact (Function.update_of_ne hne _ _).trans hk
  | _ => exact hk

lemma kept (h : Accords known deeds known') (hk : known name = some p) :
    known' name = some p ∧ ∀ deed ∈ deeds, deed.name = name → deed.Has name p := by
  induction h with
  | nil => exact ⟨hk, by rintro _ ⟨⟩⟩
  | @cons known _ first _ hd _ ih =>
    obtain ⟨hlast, hrest⟩ := ih (learn_of_some hd hk)
    refine ⟨hlast, fun deed hm hname => ?_⟩
    rcases List.mem_cons.mp hm with rfl | hm
    · subst hname
      exact Deed.has_of_heeds hd hk
    · exact hrest deed hm hname

lemma origin (h : Accords known deeds known') (hk : known' name = some p) :
    known name = some p ∨ .built name p ∈ deeds := by
  induction h with
  | nil => exact .inl hk
  | @cons known _ deed _ hd _ ih =>
    rcases ih hk with hlearned | hm
    · cases deed with
      | built other q =>
        by_cases hne : name = other
        · subst hne
          have hq : q = p := by simpa [Deed.learn] using hlearned
          exact .inr (hq ▸ List.mem_cons_self)
        · exact .inl ((Function.update_of_ne hne _ _).symm.trans hlearned)
      | _ => exact .inl hlearned
    · exact .inr (List.mem_cons_of_mem _ hm)

lemma known_of_built (h : Accords known deeds known') (hm : .built name p ∈ deeds) :
    known' name = some p := by
  obtain ⟨before, after, rfl⟩ := List.append_of_mem hm
  obtain ⟨middle, -, hlast⟩ := h.split
  cases hlast with
  | cons _ hr => exact (hr.kept (Function.update_self ..)).1

end Accords

namespace Module

structure Leaves (m : Module σ) (deeds : List (Deed σ)) (m' : Module σ) : Prop where
  configuration : m'.configuration = m.configuration
  keys : m'.processors.keys = m.processors.keys
  accords : Accords m.known deeds m'.known
  others : ∀ name, (∀ p, .built name p ∉ deeds) →
    m'.processors.get? name = m.processors.get? name

namespace Leaves

variable {deeds more : List (Deed σ)} {m'' : Module σ}

lemma of_accords (h : Accords m.known deeds m.known) : m.Leaves deeds m :=
  ⟨rfl, rfl, h, fun _ _ => rfl⟩

lemma append (h : m.Leaves deeds m') (h' : m'.Leaves more m'') :
    m.Leaves (deeds ++ more) m'' where
  configuration := h'.configuration.trans h.configuration
  keys := h'.keys.trans h.keys
  accords := h.accords.append h'.accords
  others name hn :=
    (h'.others name fun p hm => hn p (List.mem_append_right _ hm)).trans
      (h.others name fun p hm => hn p (List.mem_append_left _ hm))

end Leaves

section LookUp

variable {name : String} {deeds : List (Deed σ)} {answer : Except Failure (Option (Processor σ))}
  {p : Processor σ} {failure : Failure}

lemma Finds.leaves (h : Finds name depth m s deeds answer m' s') : m.Leaves deeds m' := by
  cases h with
  | unknown => exact .of_accords .nil
  | ready h => exact .of_accords (.one h)
  | @builds cell p o' s' hcell hb ha =>
    have hknown : (m.attempted name cell o' (.ok p)).2.known =
        Function.update m.known name (some p) := by
      funext other
      by_cases ho : other = name
      · subst ho
        rw [Function.update_self]
        simp [known, attempted]
      · rw [Function.update_of_ne ho]
        simp [known, attempted, Table.get?_put_of_ne _ _ ho]
    refine ⟨rfl, Table.keys_put_of_get? hcell, ?_, fun other ho => ?_⟩
    · rw [hknown]
      exact .one ((known_of_cell hcell).trans hb)
    · have hne : other ≠ name := by
        rintro rfl
        exact ho p List.mem_cons_self
      exact Table.get?_put_of_ne _ _ hne
  | fails hcell hb ha =>
    exact ⟨rfl, rfl, .one ((known_of_cell hcell).trans hb), fun _ _ => rfl⟩

lemma Finds.known_of_ok (h : Finds name depth m s deeds (.ok (some p)) m' s') :
    m'.known name = some p := by
  cases h with
  | ready h => exact h
  | builds => simp [known, attempted]

lemma Finds.failed {other : String} (h : Finds name depth m s deeds answer m' s')
    (hm : .failed other failure ∈ deeds) :
    deeds = [.failed other failure] ∧ answer = .error (.processorBuild other failure) := by
  cases h with
  | unknown => cases hm
  | ready | builds => simp at hm
  | fails =>
    cases List.mem_singleton.mp hm
    exact ⟨rfl, rfl⟩

end LookUp

section Walk

variable {deal : String → Processor σ → Run σ Outcome}
  {deed : String → Processor σ → List (Deed σ)} {names : List String} {deeds : List (Deed σ)}
  {answer : Except Failure (List (String × Processor σ))}
  (hd : ∀ name p, ∀ d ∈ deed name p, d.Has name p)

include hd

lemma leaves_of_known {name : String} {p : Processor σ} (hk : m.known name = some p) :
    m.Leaves (deed name p) m :=
  .of_accords (.of_has fun d hm => ⟨name, p, hd name p d hm, hk⟩)

lemma Walks.leaves (h : Walks deal deed depth names m s deeds answer m' s') :
    m.Leaves deeds m' := by
  induction h with
  | done => exact .of_accords .nil
  | unknown hf _ ih => exact hf.leaves.append ih
  | unbuilt hf => exact hf.leaves
  | refused hf _ => exact hf.leaves.append (leaves_of_known hd hf.known_of_ok)
  | next hf _ _ ih => exact (hf.leaves.append (leaves_of_known hd hf.known_of_ok)).append ih

lemma Walks.failed {name : String} {failure : Failure}
    (h : Walks deal deed depth names m s deeds answer m' s') (hm : .failed name failure ∈ deeds) :
    (∃ before, deeds = before ++ [.failed name failure]) ∧
      answer = .error (.processorBuild name failure) := by
  have hnone : ∀ other p, .failed name failure ∉ deed other p :=
    fun other p hm => Deed.not_has_failed (hd other p _ hm)
  induction h with
  | done => cases hm
  | unknown hf _ ih =>
    rcases List.mem_append.mp hm with hm | hm
    · cases (hf.failed hm).2
    · obtain ⟨⟨before, rfl⟩, ha⟩ := ih hm
      exact ⟨⟨_, (List.append_assoc _ _ _).symm⟩, ha⟩
  | unbuilt hf =>
    obtain ⟨rfl, ha⟩ := hf.failed hm
    exact ⟨⟨[], rfl⟩, congrArg Except.error (Except.error.inj ha)⟩
  | refused hf _ =>
    rcases List.mem_append.mp hm with hm | hm
    · cases (hf.failed hm).2
    · exact absurd hm (hnone _ _)
  | next hf _ _ ih =>
    rcases List.mem_append.mp hm with hm | hm
    · rcases List.mem_append.mp hm with hm | hm
      · cases (hf.failed hm).2
      · exact absurd hm (hnone _ _)
    · obtain ⟨⟨before, rfl⟩, rfl⟩ := ih hm
      exact ⟨⟨_, (List.append_assoc _ _ _).symm⟩, rfl⟩

lemma Walks.known_of_ok {entries : List (String × Processor σ)}
    (h : Walks deal deed depth names m s deeds answer m' s') (ha : answer = .ok entries) :
    ∀ entry ∈ entries, m'.known entry.1 = some entry.2 := by
  induction h generalizing entries with
  | done =>
    cases ha
    rintro _ ⟨⟩
  | unknown _ _ ih => exact ih ha
  | unbuilt | refused => cases ha
  | @next name _ _ _ _ _ _ _ _ _ _ p answer hf _ hr ih =>
    cases answer with
    | error => cases ha
    | ok others =>
      cases ha
      intro entry hm
      rcases List.mem_cons.mp hm with rfl | hm
      · exact ((hr.leaves hd).accords.kept hf.known_of_ok).1
      · exact ih rfl entry hm

end Walk

section Does

variable {use : Use σ} {deeds : List (Deed σ)} {answer : Except Failure use.Result}

lemma has_started (name : String) (p : Processor σ) :
    ∀ d ∈ [Deed.started name p], d.Has name p := by
  simp [Deed.Has]

lemma Does.leaves (h : m.Does depth s use deeds answer m' s')
    (hn : m.processors.keys.Nodup) : m.Leaves deeds m' := by
  cases h with
  | start h => exact h.leaves has_started
  | shutDown h =>
    refine .of_accords (.of_has fun deed hm => ?_)
    obtain ⟨⟨name, p⟩, he, rfl⟩ := List.mem_map.mp hm
    have hb : m.Built name p := (mem_builtEntries_iff hn).mp (List.mem_reverse.mp he)
    exact ⟨name, p, .inr (.inr rfl), hb⟩
  | allProcessors h => exact h.leaves (by simp)
  | processor h | processorAs h | processorOfGroup h | interceptorsOf h => exact h.leaves
  | processorNames | groupsOf | processorNameOf | sagaConfigurations => exact .of_accords .nil

lemma Does.failed {name : String} {failure : Failure}
    (h : m.Does depth s use deeds answer m' s') (hm : .failed name failure ∈ deeds) :
    (∃ before, deeds = before ++ [.failed name failure]) ∧
      answer = .error (.processorBuild name failure) := by
  cases h with
  | start h =>
    obtain ⟨hlast, rfl⟩ := h.failed has_started hm
    exact ⟨hlast, rfl⟩
  | shutDown h => simp at hm
  | allProcessors h => exact h.failed (by simp) hm
  | processor h | processorOfGroup h =>
    obtain ⟨rfl, rfl⟩ := h.failed hm
    exact ⟨⟨[], rfl⟩, rfl⟩
  | processorAs h | interceptorsOf h =>
    obtain ⟨rfl, rfl⟩ := h.failed hm
    exact ⟨⟨[], rfl⟩, rfl⟩
  | processorNames | groupsOf | processorNameOf | sagaConfigurations => cases hm

def handedOut (names : ProcessorNames) : (use : Use σ) → use.Result → List (String × Processor σ)
  | .processor name, found => (found.map (Prod.mk name)).toList
  | .processorAs _ name, found => (found.map (Prod.mk name)).toList
  | .processorOfGroup group, found => (found.map (Prod.mk (names.resolve group))).toList
  | .allProcessors, entries => entries
  | _, _ => []

lemma Finds.known_of_mem {name : String} {found : Option (Processor σ)}
    {entry : String × Processor σ} (h : Finds name depth m s deeds (.ok found) m' s')
    (hm : entry ∈ (found.map (Prod.mk name)).toList) : m'.known entry.1 = some entry.2 := by
  cases found with
  | none => cases hm
  | some p =>
    cases List.mem_singleton.mp hm
    exact h.known_of_ok

lemma Does.known_of_handedOut {result : use.Result}
    (h : m.Does depth s use deeds answer m' s') (ha : answer = .ok result) :
    ∀ entry ∈ handedOut m.names use result, m'.known entry.1 = some entry.2 := by
  cases h with
  | processor h | processorOfGroup h =>
    subst ha
    exact fun entry => h.known_of_mem
  | @processorAs isWanted _ _ found _ _ h =>
    cases found with
    | error => cases ha
    | ok found =>
      cases ha
      intro entry hm
      obtain ⟨p, hp, rfl⟩ := Option.map_eq_some_iff.mp (Option.mem_toList.mp hm)
      obtain ⟨rfl, -⟩ := Option.filter_eq_some_iff.mp hp
      exact h.known_of_ok
  | allProcessors h => exact h.known_of_ok (by simp) ha
  | start | shutDown | interceptorsOf | processorNames | groupsOf | processorNameOf
    | sagaConfigurations => rintro _ ⟨⟩

end Does

section Quiet

variable {use : Use σ}

def refit (m : Module σ) (overrides : Overrides σ)
    (factory : String → InterceptorRegistry σ → Building σ (Except Failure (Processor σ))) :
    Module σ :=
  { m with
    overrides
    processors := m.processors.map fun entry =>
      (entry.1, { entry.2 with factory := factory entry.1 }) }

variable (overrides : Overrides σ)
  (factory : String → InterceptorRegistry σ → Building σ (Except Failure (Processor σ)))

lemma builtEntries_refit : (m.refit overrides factory).builtEntries = m.builtEntries := by
  simp [builtEntries, refit, List.filterMap_map]

lemma keys_refit : (m.refit overrides factory).processors.keys = m.processors.keys := by
  simp [refit, Table.keys, Function.comp_def]

omit overrides factory in
lemma shutDown_eq : shutDown m depth s =
    (shutDownEach m.builtEntries.reverse depth s).map fun r => ((r.1, m), r.2) := by
  rw [Option.map_eq_bind]
  rfl

lemma processorNames_refit : (m.refit overrides factory).processorNames = m.processorNames := by
  rw [processorNames, processorNames, keys_refit]
  rfl

lemma call_refit (hq : use.isQuiet = true) :
    use.call (m.refit overrides factory) depth s =
      (use.call m depth s).map fun r => ((r.1.1, m.refit overrides factory), r.2) := by
  cases use with
  | shutDown =>
    refine shutDown_eq.trans ?_
    rw [builtEntries_refit, Use.call, shutDown_eq, Option.map_map]
    rfl
  | processorNames =>
    change some ((processorNames (m.refit overrides factory), m.refit overrides factory), s) = _
    rw [processorNames_refit]
    rfl
  | groupsOf | processorNameOf | sagaConfigurations => rfl
  | _ => cases hq

end Quiet

/-- What a module comes to by calls after a set-up, each in a system of its own, and what was done
to the processors. -/
inductive Used (m₀ : Module σ) : List (Deed σ) → Module σ → Prop
  | unused : Used m₀ [] m₀
  | call {log deeds : List (Deed σ)} {m m' : Module σ} {use : Use σ} {depth : ℕ} {s s' : System σ}
      {answer : Except Failure use.Result} (h : Used m₀ log m)
      (hc : use.call m depth s = some ((answer, m'), s'))
      (hd : m.Does depth s use deeds answer m' s') : Used m₀ (log ++ deeds) m'

structure BuiltOnce (log : List (Deed σ)) : Prop where
  once : ∀ before name p after, log = before ++ .built name p :: after →
    ∀ deed ∈ after, deed.name = name → deed.Has name p
  first : ∀ before deed after name p, log = before ++ deed :: after → deed.Has name p →
    .built name p ∈ before

/-- The next look-up of a name, by what was done so far: one that was built is at hand, and for all
others the factory is run. -/
structure LooksUpNext (log : List (Deed σ)) (m : Module σ) : Prop where
  cached : ∀ name p, .built name p ∈ log → ∀ depth s,
    processor? name m depth s = some ((.ok (some p), m), s)
  tried : ∀ name cell, m.processors.get? name = some cell → (∀ p, .built name p ∉ log) →
    ∀ depth s, processor? name m depth s =
      (m.attempt cell depth s).map fun r => (m.attempted name cell r.2.1 r.1, r.2.2)

structure Spends (log : List (Deed σ)) (m : Module σ) (use : Use σ) (deeds : List (Deed σ))
    (answer : Except Failure use.Result) (m' : Module σ) : Prop where
  handedOut : ∀ result, answer = .ok result → ∀ entry ∈ handedOut m.names use result,
    .built entry.1 entry.2 ∈ log ++ deeds
  others : ∀ name, (∀ p, .built name p ∉ deeds) →
    m'.processors.get? name = m.processors.get? name
  failed : ∀ name failure, .failed name failure ∈ deeds →
    answer = .error (.processorBuild name failure) ∧
    (∃ before, deeds = before ++ [.failed name failure]) ∧ ∀ p, .built name p ∉ log ++ deeds
  quiet : use.isQuiet = true → m' = m ∧ ∀ deed ∈ deeds, ∃ name p, deed = .stopped name p

section Used

variable {m₀ : Module σ} {log : List (Deed σ)}

lemma Used.leaves (h : Used m₀ log m) (hn : m₀.processors.keys.Nodup) : m₀.Leaves log m := by
  induction h with
  | unused => exact .of_accords .nil
  | call _ _ hd ih => exact ih.append (hd.leaves (ih.keys ▸ hn))

section Leaves

variable (h : m₀.Leaves log m) (h₀ : ∀ name p, ¬ m₀.Built name p)

include h h₀

lemma Leaves.mem_of_known {name : String} {p : Processor σ} (hk : m.known name = some p) :
    .built name p ∈ log :=
  (h.accords.origin hk).resolve_left (h₀ name p)

lemma Leaves.builtOnce : BuiltOnce log where
  once := by
    rintro before name p after rfl
    obtain ⟨middle, -, hlast⟩ := h.accords.split
    cases hlast with
    | cons _ hr => exact (hr.kept (Function.update_self ..)).2
  first := by
    rintro before deed after name p rfl hp
    obtain ⟨middle, hfirst, hlast⟩ := h.accords.split
    cases hlast with
    | cons hd _ => exact (hfirst.origin (Deed.known_of_has hd hp)).resolve_left (h₀ name p)

lemma Leaves.looksUpNext (hc : m₀.configuration = some c) : LooksUpNext log m where
  cached name p hm depth s :=
    processor?_of_built (h.configuration.trans hc) (h.accords.known_of_built hm)
  tried name cell hcell hn depth s := by
    refine processor?_of_unbuilt (h.configuration.trans hc) hcell ?_
    refine Option.eq_none_iff_forall_ne_some.mpr fun p hb => hn p ?_
    exact h.mem_of_known h₀ ((known_of_cell hcell).trans hb)

lemma Does.spends {use : Use σ} {deeds : List (Deed σ)} {answer : Except Failure use.Result}
    (hd : m.Does depth s use deeds answer m' s') (hn : m₀.processors.keys.Nodup) :
    Spends log m use deeds answer m' := by
  have hleaves := hd.leaves (h.keys ▸ hn)
  have hall := h.append hleaves
  constructor
  case handedOut =>
    exact fun result ha entry hm => hall.mem_of_known h₀ (hd.known_of_handedOut ha entry hm)
  case others => exact hleaves.others
  case failed =>
    intro name failure hm
    obtain ⟨⟨before, rfl⟩, ha⟩ := hd.failed hm
    refine ⟨ha, ⟨before, rfl⟩, fun p hb => ?_⟩
    have hknown : m'.known name = some p := hall.accords.known_of_built hb
    obtain ⟨middle, -, hlast⟩ := hleaves.accords.split
    cases hlast with
    | cons hunknown hr =>
      cases hr
      cases hunknown.symm.trans hknown
  case quiet =>
    intro hq
    cases hd with
    | shutDown h =>
      refine ⟨rfl, fun deed hm => ?_⟩
      obtain ⟨entry, -, rfl⟩ := List.mem_map.mp hm
      exact ⟨_, _, rfl⟩
    | processorNames | groupsOf | processorNameOf | sagaConfigurations =>
      exact ⟨rfl, by rintro _ ⟨⟩⟩
    | _ => cases hq

end Leaves

end Used

/-- A set-up builds no processor. After it each one is built at most once, when it is first looked
up or started with success: that instance is the one that is used from then on, and as long as there
is none the factory of the cell is run anew. Calls that need no processor build none, and do not
depend on what would. -/
theorem processors_are_built_once {s₀ s₁ : System σ} {history : List (Change σ)} {m₀ : Module σ}
    (hv : s₀.Vacant) (h : Reaches {} s₀ history m s)
    (hu : setUp c m depth s = some (((), m₀), s₁)) :
    (∀ name p, ¬ m₀.Built name p) ∧
    (∀ log m, Used m₀ log m → BuiltOnce log ∧ LooksUpNext log m ∧
      ∀ (use : Use σ) depth s answer m' s', use.call m depth s = some ((answer, m'), s') →
        (∃ deeds, m.Does depth s use deeds answer m' s') ∧
        ∀ deeds, m.Does depth s use deeds answer m' s' → Spends log m use deeds answer m') ∧
    ∀ use : Use σ, use.isQuiet = true → ∀ (m : Module σ) depth s overrides factory,
      use.call (m.refit overrides factory) depth s =
        (use.call m depth s).map fun r => ((r.1.1, m.refit overrides factory), r.2) := by
  have hsound := h.sound (.init hv)
  obtain ⟨handlers, sagas, overrides, -, -, -, -, -, -, -, rfl⟩ :=
    setUp_cases hsound.handlers hsound.sagas hu
  have h₀ : ∀ name p, ¬ (m.settled c handlers sagas overrides).Built name p := not_built_settled m
  have hn : (m.settled c handlers sagas overrides).processors.keys.Nodup := nodup_keys_settled m
  refine ⟨h₀, fun log m' hused => ?_, fun use hq m depth s overrides factory => ?_⟩
  · have hleaves := hused.leaves hn
    have hc : m'.configuration = some c := hleaves.configuration
    refine ⟨hleaves.builtOnce h₀, hleaves.looksUpNext h₀ rfl, fun use depth s answer m'' s' h => ?_⟩
    exact ⟨exists_does hc h, fun deeds hd => hd.spends hleaves h₀ hn⟩
  · exact call_refit overrides factory hq

theorem launched_built_once : ∃ deeds,
    Used Sample.prepared.1 deeds Sample.launched.1 ∧ BuiltOnce deeds ∧
    LooksUpNext deeds Sample.launched.1 ∧ (∃ p, .built "orders" p ∈ deeds) ∧
    ∀ p, .built "mail" p ∉ deeds := by
  have hreaches := Reaches.init.following Sample.following_mixed
  have hsetUp : setUp (Sample.configuration 0) Sample.registered.1 1 Sample.registered.2 =
      some (((), Sample.prepared.1), Sample.prepared.2) :=
    following?_singleton Sample.following_registered
  obtain ⟨hunbuilt, hused, -⟩ :=
    processors_are_built_once Sample.vacant_blank hreaches hsetUp
  obtain ⟨outcome, hstart⟩ := exists_outcome (following?_singleton Sample.following_prepared)
  have hcall : Use.start.call Sample.prepared.1 1 Sample.prepared.2 =
      some ((outcome, Sample.launched.1), Sample.launched.2) := hstart
  obtain ⟨deeds, hdoes⟩ := ((hused [] _ .unused).2.2 _ _ _ _ _ _ hcall).1
  have hlaunched : Used Sample.prepared.1 deeds Sample.launched.1 := .call .unused hcall hdoes
  have hkeys : Sample.prepared.1.processors.keys = ["ledger", "orders", "mail"] := by
    decide +kernel
  have hleaves := hlaunched.leaves (by rw [hkeys]; decide)
  have horders : (Sample.launched.1.known "orders").isSome = true := by decide +kernel
  have hmail : (Sample.launched.1.known "mail").isNone = true := by decide +kernel
  refine ⟨deeds, hlaunched, (hused _ _ hlaunched).1, (hused _ _ hlaunched).2.1, ?_, fun p hb => ?_⟩
  · obtain ⟨p, hp⟩ := Option.isSome_iff_exists.mp horders
    exact ⟨p, hleaves.mem_of_known hunbuilt hp⟩
  · rw [hleaves.accords.known_of_built hb] at hmail
    cases hmail

end Module

end EventProcessing
