import EventProcessing.Proofs.Cells
import EventProcessing.Proofs.Module.Steps
import EventProcessing.Proofs.Overrides

namespace EventProcessing

variable {σ α : Type} {depth : ℕ} {s s' : System σ} {c : Configuration σ}

open Cell (latest kept)

namespace Part

variable {part : Part σ α} {factory : Factory σ α}

lemma run_construct (name : String) (factory : Factory σ α) :
    System.run depth (Component.construct name (Part.ofFactory name factory).factory c) s =
      (System.run depth (factory c) (s.addTrace (Component.building name))).map fun r =>
        (.ok r.1, r.2) :=
  (Execution.programs depth).run_bind_pure (factory c) (fun a => (.ok a : Except Empty α)) _

lemma run_resolve_of_none {name : String} :
    System.run depth ((Part.ofFactory name factory).resolve c) s =
      (System.run depth (factory c) (s.addTrace (Component.building name))).map fun r =>
        ((r.1, { Part.ofFactory name factory with built := some r.1 }), r.2) := by
  have hget : System.run depth ((Part.ofFactory name factory).get c) s = _ :=
    (Component.run_get_of_none (Execution.programs depth) rfl).trans
      (congrArg (Option.map _) (run_construct name factory))
  refine (System.run_bind _ _ _ _).trans ?_
  rw [hget, Option.map_map, Option.bind_map, Option.map_eq_bind]
  rfl

end Part

namespace OverrideTable

variable {axis : String} {standard : Factory σ α} {table table' : OverrideTable σ α}
  {cell : Option String} {key other : String} {value : α} {factory : Factory σ α}

inductive Event (σ α : Type) where
  | registered (cell : Option String) (factory : Factory σ α)
  | resolved (key : String) (value : α)
  | reset

/-- The cell that serves a key: its own if it ever got a factory, else the default. -/
def cellOf (key : String) : List (Event σ α) → Option String
  | [] => none
  | .registered cell _ :: earlier => if cell = some key then some key else cellOf key earlier
  | .resolved .. :: earlier => cellOf key earlier
  | .reset :: earlier => cellOf key earlier

def pastOf (cell : Option String) : List (Event σ α) → List (Cell.Event (Factory σ α) Empty α)
  | [] => []
  | .registered other factory :: earlier =>
    if other = cell then .renewed factory :: pastOf cell earlier else pastOf cell earlier
  | .resolved key value :: earlier =>
    if cellOf key earlier = cell then .asked (.ok value) :: pastOf cell earlier
    else pastOf cell earlier
  | .reset :: earlier => .reset :: pastOf cell earlier

inductive Does (table : OverrideTable σ α) : Event σ α → OverrideTable σ α → Prop
  | register {key : String} {factory : Factory σ α} {table' : OverrideTable σ α} {depth : ℕ}
      {s s' : System σ} (h : System.run depth (table.register key factory) s = some (table', s')) :
      Does table (.registered (some key) factory) table'
  | registerDefault {factory : Factory σ α} {table' : OverrideTable σ α} {depth : ℕ}
      {s s' : System σ}
      (h : System.run depth (table.registerDefault factory) s = some (table', s')) :
      Does table (.registered none factory) table'
  | resolve {key : String} {value : α} {table' : OverrideTable σ α} {c : Configuration σ}
      {depth : ℕ} {s s' : System σ}
      (h : System.run depth (table.resolve key c) s = some ((value, table'), s')) :
      Does table (.resolved key value) table'
  | reset : Does table .reset table.reset

inductive Past (axis : String) (standard : Factory σ α) :
    List (Event σ α) → OverrideTable σ α → Prop
  | made : Past axis standard [] (.make axis standard)
  | does {past : List (Event σ α)} {event : Event σ α} {table table' : OverrideTable σ α}
      (h : Past axis standard past table) (hd : table.Does event table') :
      Past axis standard (event :: past) table'

def cellName (axis : String) (cell : Option String) : String :=
  axis ++ "[" ++ cell.getD "default" ++ "]"

lemma cellName_none (axis : String) : cellName axis none = axis ++ "[default]" := by
  rw [cellName, String.append_assoc, String.append_assoc]
  rfl

def left (axis : String) (standard : Factory σ α) (past : List (Event σ α))
    (cell : Option String) : Part σ α :=
  { Part.ofFactory (cellName axis cell) (latest standard (pastOf cell past)) with
    built := kept (pastOf cell past) }

structure Reflects (axis : String) (standard : Factory σ α) (past : List (Event σ α))
    (table : OverrideTable σ α) : Prop where
  name : table.axis = axis
  default : table.default = left axis standard past none
  keyed : ∀ key, table.keyed.get? key =
    (cellOf key past).map fun _ => left axis standard past (some key)

section Left

variable {past : List (Event σ α)}

lemma cellOf_cases (key : String) (past : List (Event σ α)) :
    cellOf key past = none ∨ cellOf key past = some key := by
  induction past with
  | nil => exact .inl rfl
  | cons event earlier ih =>
    cases event with
    | registered cell factory =>
      rw [cellOf]
      split
      · exact .inr rfl
      · exact ih
    | resolved | reset => exact ih

lemma cellOf_registered_of_ne {past : List (Event σ α)} (h : cell ≠ some key) :
    cellOf key (.registered cell factory :: past) = cellOf key past := if_neg h

lemma kept_of_cellOf_none (h : cellOf key past = none) : kept (pastOf (some key) past) = none := by
  induction past with
  | nil => rfl
  | cons event earlier ih =>
    cases event with
    | registered cell factory =>
      rw [cellOf] at h
      split at h
      · cases h
      · next hne =>
        rw [pastOf, if_neg hne]
        exact ih h
    | resolved other value =>
      rw [pastOf, if_neg]
      · exact ih h
      · intro ho
        rcases cellOf_cases other earlier with hnone | hsome
        · rw [hnone] at ho
          cases ho
        · have hkey : other = key := Option.some.inj (hsome.symm.trans ho)
          subst hkey
          rw [cellOf, hsome] at h
          cases h
    | reset => rfl

lemma left_registered_self : left axis standard (.registered cell factory :: past) cell =
    (left axis standard past cell).renew factory := by
  rw [left, pastOf, if_pos rfl]
  rfl

lemma left_registered_of_ne {cell' : Option String} (h : cell' ≠ cell) :
    left axis standard (.registered cell' factory :: past) cell =
      left axis standard past cell := by
  rw [left, pastOf, if_neg h, left]

lemma left_resolved_self
    (h : ∀ old, (left axis standard past (cellOf key past)).built = some old → value = old) :
    left axis standard (.resolved key value :: past) (cellOf key past) =
      { left axis standard past (cellOf key past) with built := some value } := by
  have hvalue : (kept (pastOf (cellOf key past) past)).getD value = value := by
    cases hk : kept (pastOf (cellOf key past) past) with
    | none => rfl
    | some old => exact (h old hk).symm
  rw [left, pastOf, if_pos rfl, kept, hvalue]
  rfl

lemma left_resolved_of_ne (h : cellOf key past ≠ cell) :
    left axis standard (.resolved key value :: past) cell = left axis standard past cell := by
  rw [left, pastOf, if_neg h, left]

end Left

namespace Reflects

variable {past : List (Event σ α)} (h : Reflects axis standard past table)

include h

lemma serving (key : String) :
    table.serving key = left axis standard past (cellOf key past) := by
  rw [OverrideTable.serving, h.keyed, h.default]
  rcases cellOf_cases key past with hc | hc <;> rw [hc] <;> rfl

lemma enter (cell : Option String) (factory : Factory σ α) :
    Reflects axis standard (.registered cell factory :: past) (table.enter cell factory) := by
  cases cell with
  | none =>
    refine ⟨h.name, ?_, fun key => ?_⟩
    · rw [left_registered_self, ← h.default]
      rfl
    · rw [left_registered_of_ne (by simp), cellOf_registered_of_ne (by simp)]
      exact h.keyed key
  | some key =>
    refine ⟨h.name, ?_, fun other => ?_⟩
    · rw [left_registered_of_ne (by simp)]
      exact h.default
    · by_cases ho : other = key
      · subst ho
        rw [left_registered_self, cellOf, if_pos rfl, Option.map_some]
        refine (Table.get?_put_self _ _ _).trans (congrArg some ?_)
        rw [h.keyed, h.name]
        rcases cellOf_cases other past with hc | hc <;> rw [hc]
        · rw [Part.renew, left, kept_of_cellOf_none hc]
          rfl
        · rfl
      · have hne : some key ≠ some other := fun he => ho (Option.some.inj he).symm
        rw [left_registered_of_ne hne, cellOf_registered_of_ne hne, ← h.keyed]
        exact Table.get?_put_of_ne _ _ ho

lemma keep (hv : ∀ old, (table.serving key).built = some old → value = old) :
    Reflects axis standard (.resolved key value :: past) (table.keep key value) := by
  rw [h.serving] at hv
  have hself := left_resolved_self hv
  have hget := h.keyed key
  rcases cellOf_cases key past with hc | hc
  · rw [hc] at hget hself
    have hkeep : table.keep key value =
        { table with default := { table.default with built := some value } } := by
      rw [OverrideTable.keep, hget]
      rfl
    rw [hkeep]
    refine ⟨h.name, ?_, fun other => ?_⟩
    · rw [hself, ← h.default]
    · rw [left_resolved_of_ne (by simp [hc]), cellOf]
      exact h.keyed other
  · rw [hc] at hget hself
    have hkeep : table.keep key value = { table with
        keyed := table.keyed.put key
          { left axis standard past (some key) with built := some value } } := by
      rw [OverrideTable.keep, hget]
      rfl
    rw [hkeep]
    refine ⟨h.name, ?_, fun other => ?_⟩
    · rw [left_resolved_of_ne (by simp [hc])]
      exact h.default
    · rw [cellOf]
      by_cases ho : other = key
      · subst ho
        rw [hc, hself]
        exact Table.get?_put_self _ _ _
      · have hne : cellOf key past ≠ some other := by
          rw [hc]
          exact fun he => ho (Option.some.inj he).symm
        rw [left_resolved_of_ne hne, ← h.keyed]
        exact Table.get?_put_of_ne _ _ ho

lemma reset : Reflects axis standard (.reset :: past) table.reset := by
  refine ⟨h.name, ?_, fun key => ?_⟩
  · change table.default.reset = (left axis standard past none).reset
    rw [h.default]
  · refine (Table.get?_mapValues Component.reset table.keyed key).trans ?_
    rw [h.keyed, Option.map_map]
    rfl

lemma does {event : Event σ α} (hd : table.Does event table') :
    Reflects axis standard (event :: past) table' := by
  cases hd with
  | @register key factory _ _ _ _ hr =>
    obtain ⟨lines, ht⟩ := table.exists_tells_register factory key
    obtain ⟨rfl, -⟩ := ht.eq_of_run hr
    exact h.enter (some key) factory
  | @registerDefault factory _ _ _ _ hr =>
    obtain ⟨lines, ht⟩ := table.exists_tells_registerDefault factory
    obtain ⟨rfl, -⟩ := ht.eq_of_run hr
    exact h.enter none factory
  | resolve hr =>
    obtain ⟨rfl, hold⟩ := resolve_cases hr
    exact h.keep fun old ho => (hold old ho).1
  | reset => exact h.reset

end Reflects

lemma Past.reflects {past : List (Event σ α)} (h : Past axis standard past table) :
    Reflects axis standard past table := by
  induction h with
  | made =>
    refine ⟨rfl, ?_, fun _ => rfl⟩
    rw [left, cellName_none]
    rfl
  | does _ hd ih => exact ih.does hd

lemma run_resolve_of_none {name : String} (h : table.serving key = Part.ofFactory name factory) :
    System.run depth (table.resolve key c) s =
      (System.run depth (factory c) (s.addTrace (Component.building name))).map fun r =>
        ((r.1, table.keep key r.1), r.2) := by
  unfold resolve keep
  unfold serving at h
  cases hget : table.keyed.get? key with
  | some part =>
    rw [hget, Option.getD_some] at h
    subst h
    refine (System.run_bind _ _ _ _).trans ?_
    rw [Part.run_resolve_of_none, Option.bind_map, Option.map_eq_bind]
    rfl
  | none =>
    rw [hget, Option.getD_none] at h
    refine (System.run_bind _ _ _ _).trans ?_
    rw [h, Part.run_resolve_of_none, Option.bind_map, Option.map_eq_bind]
    rfl

def answer? (depth : ℕ) (table : OverrideTable σ α) (key : String) (c : Configuration σ)
    (s : System σ) : Option (α × System σ) :=
  (System.run depth (table.resolve key c) s).map fun r => (r.1.1, r.2)

def Event.Spares (key : String) : Event σ α → Prop
  | .registered cell _ => cell ≠ some key
  | .resolved other _ => other ≠ key
  | .reset => False

structure Recalls (axis : String) (standard : Factory σ α) (past : List (Event σ α))
    (table : OverrideTable σ α) : Prop where
  cached : ∀ key value, kept (pastOf (cellOf key past) past) = some value → ∀ depth c s,
    System.run depth (table.resolve key c) s = some ((value, table), s)
  built : ∀ key, kept (pastOf (cellOf key past) past) = none → ∀ depth c s,
    System.run depth (table.resolve key c) s =
      (System.run depth (latest standard (pastOf (cellOf key past) past) c)
        (s.addTrace (Component.building (cellName axis (cellOf key past))))).map fun r =>
          ((r.1, table.keep key r.1), r.2)
  once : ∀ later key value earlier, past = later ++ .resolved key value :: earlier →
    .reset ∉ later → ∀ other, cellOf other past = cellOf key earlier → ∀ depth c s,
      System.run depth (table.resolve other c) s = some ((value, table), s)
  shared : ∀ later key value earlier, past = later ++ .resolved key value :: earlier →
    .reset ∉ later → cellOf key past = none → ∀ other, cellOf other past = none → ∀ depth c s,
      System.run depth (table.resolve other c) s = some ((value, table), s)
  stale : ∀ later cell factory earlier value,
    past = later ++ .registered cell factory :: earlier → .reset ∉ later →
    kept (pastOf cell earlier) = some value → ∀ key, cellOf key past = cell → ∀ depth c s,
      System.run depth (table.resolve key c) s = some ((value, table), s)
  renewed : ∀ key depth c s,
    System.run depth (table.reset.resolve key c) s =
      (System.run depth (latest standard (pastOf (cellOf key past) past) c)
        (s.addTrace (Component.building (cellName axis (cellOf key past))))).map fun r =>
          ((r.1, table.reset.keep key r.1), r.2)
  apart : ∀ key, cellOf key past = some key → ∀ later table', (∀ event ∈ later, event.Spares key) →
    Past axis standard (later ++ past) table' → ∀ depth c s,
      table'.answer? depth key c s = table.answer? depth key c s

namespace Reflects

variable {past : List (Event σ α)} (h : Reflects axis standard past table)

include h

lemma run_of_kept (hk : kept (pastOf (cellOf key past) past) = some value) :
    System.run depth (table.resolve key c) s = some ((value, table), s) := by
  refine resolve_of_built ?_
  rw [h.serving]
  exact hk

lemma run_of_not_kept (hk : kept (pastOf (cellOf key past) past) = none) :
    System.run depth (table.resolve key c) s =
      (System.run depth (latest standard (pastOf (cellOf key past) past) c)
        (s.addTrace (Component.building (cellName axis (cellOf key past))))).map fun r =>
          ((r.1, table.keep key r.1), r.2) := by
  refine run_resolve_of_none ?_
  rw [h.serving, left, hk]
  rfl

lemma answer?_eq : table.answer? depth key c s =
    match kept (pastOf (cellOf key past) past) with
    | some value => some (value, s)
    | none => System.run depth (latest standard (pastOf (cellOf key past) past) c)
        (s.addTrace (Component.building (cellName axis (cellOf key past)))) := by
  unfold answer?
  split
  · next hk => rw [h.run_of_kept hk, Option.map_some]
  · next hk => rw [h.run_of_not_kept hk, Option.map_map, Function.comp_def, Option.map_id']

end Reflects

section Later

variable {later past : List (Event σ α)}

lemma cellOf_append_eq_none (h : cellOf key (later ++ past) = none) : cellOf key past = none := by
  induction later with
  | nil => exact h
  | cons event later ih =>
    cases event with
    | registered cell factory =>
      rw [List.cons_append, cellOf] at h
      split at h
      · cases h
      · exact ih h
    | resolved | reset => exact ih h

lemma exists_pastOf_append (cell : Option String) (past : List (Event σ α))
    (hl : .reset ∉ later) :
    ∃ more, pastOf cell (later ++ past) = more ++ pastOf cell past ∧ .reset ∉ more := by
  induction later with
  | nil => exact ⟨[], rfl, List.not_mem_nil⟩
  | cons event later ih =>
    obtain ⟨more, hmore, hreset⟩ := ih fun hm => hl (List.mem_cons_of_mem _ hm)
    rw [List.cons_append]
    cases event with
    | registered other factory =>
      rw [pastOf, hmore]
      split
      · exact ⟨.renewed factory :: more, rfl, by simp [hreset]⟩
      · exact ⟨more, rfl, hreset⟩
    | resolved key value =>
      rw [pastOf, hmore]
      split
      · exact ⟨.asked (.ok value) :: more, rfl, by simp [hreset]⟩
      · exact ⟨more, rfl, hreset⟩
    | reset => exact absurd List.mem_cons_self hl

lemma kept_pastOf_append (hl : .reset ∉ later) (h : kept (pastOf cell past) = some value) :
    kept (pastOf cell (later ++ past)) = some value := by
  obtain ⟨more, hmore, hreset⟩ := exists_pastOf_append cell past hl
  rw [hmore]
  exact Cell.kept_append hreset h

lemma pastOf_append_of_spares (hl : ∀ event ∈ later, event.Spares key)
    (h : cellOf key past = some key) :
    cellOf key (later ++ past) = some key ∧
      pastOf (some key) (later ++ past) = pastOf (some key) past := by
  induction later with
  | nil => exact ⟨h, rfl⟩
  | cons event later ih =>
    obtain ⟨hcell, hpast⟩ := ih fun e hm => hl e (List.mem_cons_of_mem _ hm)
    have hspares := hl event List.mem_cons_self
    rw [List.cons_append]
    cases event with
    | registered cell factory =>
      rw [cellOf_registered_of_ne hspares, pastOf, if_neg hspares]
      exact ⟨hcell, hpast⟩
    | resolved other value =>
      refine ⟨hcell, ?_⟩
      rw [pastOf, if_neg, hpast]
      intro ho
      rcases cellOf_cases other (later ++ past) with hc | hc
      · cases hc.symm.trans ho
      · exact hspares (Option.some.inj (hc.symm.trans ho))
    | reset => exact hspares.elim

lemma Past.earlier (h : Past axis standard (later ++ past) table) :
    ∃ before, Past axis standard past before := by
  induction later generalizing table with
  | nil => exact ⟨table, h⟩
  | cons event later ih =>
    cases h with
    | does h _ => exact ih h

lemma Past.kept_of_resolved (h : Past axis standard (.resolved key value :: past) table) :
    kept (pastOf (cellOf key past) (.resolved key value :: past)) = some value := by
  cases h with
  | does h hd =>
    cases hd with
    | resolve hr =>
      have hold := (resolve_cases hr).2
      rw [h.reflects.serving] at hold
      exact congrArg Component.built (left_resolved_self fun old ho => (hold old ho).1)

end Later

lemma Past.recalls {past : List (Event σ α)} (h : Past axis standard past table) :
    Recalls axis standard past table := by
  have hr := h.reflects
  have once : ∀ later key value earlier, past = later ++ .resolved key value :: earlier →
      .reset ∉ later → ∀ other, cellOf other past = cellOf key earlier → ∀ depth c s,
        System.run depth (table.resolve other c) s = some ((value, table), s) := by
    rintro later key value earlier rfl hl other hcell depth c s
    obtain ⟨before, hbefore⟩ := h.earlier
    refine hr.run_of_kept ?_
    rw [hcell]
    exact kept_pastOf_append hl hbefore.kept_of_resolved
  constructor
  case cached => exact fun key value hk depth c s => hr.run_of_kept hk
  case built => exact fun key hk depth c s => hr.run_of_not_kept hk
  case once => exact once
  case shared =>
    intro later key value earlier heq hl hkey other hother
    refine once later key value earlier heq hl other (hother.trans ?_)
    have hearlier : cellOf key (.resolved key value :: earlier) = none :=
      cellOf_append_eq_none (heq ▸ hkey)
    exact hearlier.symm
  case stale =>
    rintro later cell factory earlier value rfl hl hk key hcell depth c s
    refine hr.run_of_kept ?_
    rw [hcell]
    refine kept_pastOf_append hl ?_
    rwa [pastOf, if_pos rfl]
  case renewed => exact fun key depth c s => hr.reset.run_of_not_kept rfl
  case apart =>
    intro key hkey later table' hl h' depth c s
    obtain ⟨hcell, hpast⟩ := pastOf_append_of_spares hl hkey
    rw [h'.reflects.answer?_eq, hr.answer?_eq, hcell, hkey, hpast]

end OverrideTable

namespace Overrides

variable {o o' : Overrides σ} {axis other : Axis}

inductive Does (axis : Axis) (o : Overrides σ) : Overrides σ → Prop
  | register {key : Option String} {factory : Factory σ (axis.Value σ)} {o' : Overrides σ}
      {depth : ℕ} {s s' : System σ}
      (h : System.run depth (register axis key factory o) s = some (o', s')) : Does axis o o'
  | resolve {key : String} {c : Configuration σ} {value : axis.Value σ} {o' : Overrides σ}
      {depth : ℕ} {s s' : System σ}
      (h : System.run depth (resolve axis key c o) s = some ((value, o'), s')) : Does axis o o'
  | reset : Does axis o (o.setTable axis (o.table axis).reset)

lemma Does.table_eq (h : Does axis o o') (ho : other ≠ axis) : o'.table other = o.table other := by
  cases h with
  | @register key factory _ _ _ _ h =>
    obtain ⟨lines, ht⟩ := exists_tells_register axis key factory o
    obtain ⟨rfl, -⟩ := ht.eq_of_run h
    exact table_setTable_of_ne _ _ ho
  | resolve h =>
    obtain ⟨⟨made, table⟩, middle, -, h⟩ := System.run_bind_eq_some.mp h
    cases h
    exact table_setTable_of_ne _ _ ho
  | reset => exact table_setTable_of_ne _ _ ho

end Overrides

/-- Tables and components answer by their pasts: with what was built since the last reset, or else
by one run of the factory that came last. What is done to one table is nothing to another. -/
theorem pasts_are_recalled :
    (∀ {σ α : Type} {axis : String} {standard : Factory σ α}
      {past : List (OverrideTable.Event σ α)} {table : OverrideTable σ α},
        OverrideTable.Past axis standard past table →
          OverrideTable.Recalls axis standard past table) ∧
    (∀ {m : Type → Type} {S κ ε α : Type} [Monad m] [Traces m] (E : Execution m S) {name : String}
      {first : κ → m (Except ε α)} {past : List (Cell.Event (κ → m (Except ε α)) ε α)}
      {component : Component m κ ε α},
        Component.Past E name first past component →
          Component.Recalls E name first past component) ∧
    ∀ {σ : Type} {axis other : Axis} {o o' : Overrides σ}, other ≠ axis → o.Does axis o' →
      ∀ depth key c s,
        (o'.table other).answer? depth key c s = (o.table other).answer? depth key c s := by
  refine ⟨fun h => h.recalls, fun E _ _ _ _ h => h.recalls, fun ho h depth key c s => ?_⟩
  rw [h.table_eq ho]

namespace Sample

def bare : Configuration ℕ where
  bus := 0

def counted : System ℕ where
  shared := 0

def tally : Factory ℕ ℕ := fun _ => do
  let runs ← Program.get
  Program.set (runs + 1)
  return runs

def hesitant : Configuration ℕ → Program ℕ (Except String ℕ) := fun c => do
  let runs ← tally c
  return if runs = 0 then .error "not yet" else .ok runs

lemma tally_past : ∃ table, OverrideTable.Past "sample" tally
    [.registered (some "second") tally, .resolved "first" 0] table :=
  ⟨_, .does (.does .made (.resolve (c := bare) (s := counted) (rfl : System.run 0 _ _ = _)))
    (.register (s := counted) (rfl : System.run 0 _ _ = _))⟩

lemma hesitant_past : ∃ component, Component.Past (Execution.programs 0) "sample" hesitant
    [.asked (.ok 1), .asked (.error "not yet")] component := by
  have hfailed : (Execution.programs 0).run (Component.get ⟨"sample", hesitant, none⟩ bare)
      counted = some ((.error "not yet", _), _) := rfl
  have hmade : (Execution.programs 0).run (Component.get ⟨"sample", hesitant, none⟩ bare)
      { counted with shared := 1 } = some ((.ok 1, _), _) := rfl
  exact ⟨_, .get (.get .made hfailed) hmade⟩

end Sample

theorem tally_and_hesitant_recalled :
    (∃ table, OverrideTable.Past "sample" Sample.tally
      [.registered (some "second") Sample.tally, .resolved "first" 0] table ∧
      ∀ depth c s, System.run depth (table.resolve "third" c) s = some ((0, table), s)) ∧
    ∃ component, Component.Past (Execution.programs 0) "sample" Sample.hesitant
      [.asked (.ok 1), .asked (.error "not yet")] component ∧
      ∀ input s, System.run 0 (component.get input) s = some ((.ok 1, component), s) := by
  obtain ⟨table, htable⟩ := Sample.tally_past
  obtain ⟨component, hcomponent⟩ := Sample.hesitant_past
  refine ⟨⟨table, htable, fun depth c s => ?_⟩, component, hcomponent, fun input s => ?_⟩
  · exact (pasts_are_recalled.1 htable).shared [_] "first" 0 [] rfl (by simp) rfl "third" rfl
      depth c s
  · exact (pasts_are_recalled.2.1 _ hcomponent).cached 1 rfl input s

end EventProcessing
